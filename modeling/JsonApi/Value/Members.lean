import JsonApi.Fault
import JsonApi.Value.Basic

/-!
Values from outside: what is met in walking through one, which members one has, and which texts one
holds.
-/

namespace JsonApi

namespace Text

def occursIn (part : List Char) : List Char → Bool
  | [] => part.isEmpty
  | c :: rest => part.isPrefixOf (c :: rest) || occursIn part rest

end Text

namespace Value

def elements? : Value → Option (List Value)
  | .text s => some (s.toList.map fun c => .text (String.singleton c))
  | .bytes content => some (content.map fun byte => .int byte.toNat)
  | .list items => some items
  | .tuple items => some items
  | .set _ items => some items
  | .dict entries => some (entries.map (·.1))
  | .record shape fields extra =>
    if shape.isOpen then
      some ((fields ++ extra).map fun member => .tuple [.text member.1, member.2])
    else none
  | _ => none

def isText (text : String) : Value → Bool
  | .text s => s == text
  | _ => false

/-- Whether a text is among what a value holds, if that can be asked. A text holds its parts. -/
def holds? (v : Value) (text : String) : Option Bool :=
  match v with
  | .text s => some (Text.occursIn text.toList s.toList)
  | .bytes _ => none
  | v => v.elements?.map fun items => items.any (isText text)

def hasMember (name : String) : Value → Bool
  | .record _ fields extra =>
    (Entries.get? fields name).isSome || (Entries.get? extra name).isSome
  | .foreign attributes => (Entries.get? attributes name).isSome
  | _ => false

/-- What comes of carrying out an operation that no value has. -/
def absenceFault (v : Value) (operation : String) : Fault :=
  if v.hasMember operation then .wrongType else .noSuchMember

end Value

end JsonApi
