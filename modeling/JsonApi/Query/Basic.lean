import JsonApi.Entries
import JsonApi.Query.Family

/-!
What a request asks for: sparse fieldsets by type, relationships to include, filters by path, and an
order. A part that is absent differs from one that is there and empty.
-/

namespace JsonApi

namespace Query

structure SortField where
  field : String
  descending : Bool
deriving DecidableEq, Repr

end Query

structure Query where
  fieldsets : Option (List (String × List String))
  inclusions : Option (List String)
  filters : Option (List (String × String))
  sort : Option (List Query.SortField)
deriving DecidableEq, Repr

namespace Query

def empty : Query := ⟨none, none, none, none⟩

/-- The fields requested of a type, or nothing if all are. -/
def fieldsFor (q : Query) (kind : String) : Option (List String) :=
  q.fieldsets.bind fun fieldsets => Entries.get? fieldsets kind

/-- Without a choice of relationships all of them are included. -/
def includes (q : Query) (relationship : String) : Bool :=
  match q.inclusions with
  | none => true
  | some names => names.contains relationship

def narrow {β : Type} (fields : Option (List String)) (members : List (String × β)) :
    List (String × β) :=
  match fields with
  | none => members
  | some fields => members.filter fun member => fields.contains member.1

def putOption {β : Type} (entries : Option (List (String × β))) (key : String) (value : β) :
    Option (List (String × β)) :=
  some (Entries.put (entries.getD []) key value)

end Query

end JsonApi
