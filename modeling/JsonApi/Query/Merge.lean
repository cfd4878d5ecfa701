import JsonApi.Query.Entry

/-!
Queries put together. What the later one asks for counts; what it does not speak of is as in the earlier
one.
-/

namespace JsonApi.Query

/-- Values on the right replace those on the left in place, and what is new comes behind. A map without
entries counts as absent. -/
def mergeMaps {β : Type} (left right : Option (List (String × β))) : Option (List (String × β)) :=
  match Entries.putAll (left.getD []) (right.getD []) with
  | [] => none
  | entry :: rest => some (entry :: rest)

def merge (left right : Query) : Query where
  fieldsets := mergeMaps left.fieldsets right.fieldsets
  inclusions := right.inclusions.or left.inclusions
  filters := mergeMaps left.filters right.filters
  sort := right.sort.or left.sort

/-- Two queries that ask for the same, except for the order in which they name types and paths. -/
structure Rearranged (q p : Query) : Prop where
  fieldsets : Option.Rel List.Perm q.fieldsets p.fieldsets
  inclusions : q.inclusions = p.inclusions
  filters : Option.Rel List.Perm q.filters p.filters
  sort : q.sort = p.sort

namespace Entry

def inclusion? : Entry → Option (List String)
  | .inclusion names => some names
  | _ => none

def sort? : Entry → Option (List SortField)
  | .sort parts => some (sortFields parts)
  | _ => none

def fieldset? : Entry → Option (String × List String)
  | .fieldset path names => some (path, names)
  | _ => none

def filter? : Entry → Option (String × String)
  | .filter path value => some (path, value)
  | _ => none

end Entry

end JsonApi.Query
