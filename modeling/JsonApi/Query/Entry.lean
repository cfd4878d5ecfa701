import JsonApi.Log
import JsonApi.Query.Basic
import JsonApi.Text.Percent

/-!
Reading a query, entry by entry. Reading is lenient: an entry of another shape than those below
changes nothing, and at most leaves a record.
-/

namespace JsonApi.Query

inductive SortPart where
  | field (field : SortField)
  | noToken (text : String)
deriving DecidableEq, Repr

inductive Entry where
  /-- No equals sign. -/
  | bare
  | inclusion (names : List String)
  | sort (parts : List SortPart)
  | fieldset (path : String) (names : List String)
  | filter (path value : String)
  | unknownFamily (name : String)
  | unknownKey (key : String)
deriving DecidableEq, Repr

/-- The pieces between commas that are not empty. -/
def readNames (text : List Char) : List String :=
  ((Text.pieces ',' text).filter (· ≠ [])).map String.ofList

def readSortPart (text : List Char) : SortPart :=
  let (descending, field) := match text with
    | '-' :: rest => (true, rest)
    | rest => (false, rest)
  if isToken field then .field ⟨String.ofList field, descending⟩ else .noToken (String.ofList field)

def readSort (text : List Char) : List SortPart := (Text.pieces ',' text).map readSortPart

def sortFields (parts : List SortPart) : List SortField :=
  parts.filterMap fun
    | .field field => some field
    | .noToken _ => none

def includeKey : List Char := "include".toList

def sortKey : List Char := "sort".toList

def fieldsetFamily : List Char := "fields".toList

def filterFamily : List Char := "filter".toList

def classify (key value : List Char) : Entry :=
  if key = includeKey then .inclusion (readNames value)
  else if key = sortKey then .sort (readSort value)
  else match FamilyKey.read? key with
    | none => .unknownKey (String.ofList key)
    | some family =>
      if family.name = fieldsetFamily then .fieldset (String.ofList family.path) (readNames value)
      else if family.name = filterFamily then
        .filter (String.ofList family.path) (String.ofList value)
      else .unknownFamily (String.ofList family.name)

/-- Key and value are cut at the first equals sign and decoded after that. -/
def readEntry (text : List Char) : Entry :=
  match Text.cut '=' text with
  | (_, none) => .bare
  | (key, some value) => classify (Text.decodeForm key) (Text.decodeForm value)

def apply (q : Query) : Entry → Query
  | .inclusion names => { q with inclusions := some names }
  | .sort parts => { q with sort := some (sortFields parts) }
  | .fieldset path names => { q with fieldsets := putOption q.fieldsets path names }
  | .filter path value => { q with filters := putOption q.filters path value }
  | _ => q

def entries (text : List Char) : List Entry := (Text.pieces '&' text).map readEntry

def read (text : List Char) : Query := (entries text).foldl apply empty

def remarks : Entry → List Record
  | .sort parts => parts.filterMap fun
    | .field _ => none
    | .noToken text => some ⟨.debug, "Ignoring invalid sort field '" ++ text ++ "'"⟩
  | .unknownKey key => [⟨.debug, "Ignoring query parameter '" ++ key ++ "'"⟩]
  | .unknownFamily name => [⟨.debug, "Ignoring query parameter family '" ++ name ++ "'"⟩]
  | _ => []

def records (text : List Char) : List Record := (entries text).flatMap remarks

end JsonApi.Query
