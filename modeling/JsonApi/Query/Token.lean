/-!
Tokens: the names in sort fields and in the keys of parameter families.
-/

namespace JsonApi.Query

def isTokenEnd (c : Char) : Bool := c.isAlphanum

def isTokenChar (c : Char) : Bool := isTokenEnd c || c = '-' || c = '_'

def isToken (text : List Char) : Bool :=
  text.head?.any isTokenEnd && text.getLast?.any isTokenEnd && text.all isTokenChar

end JsonApi.Query
