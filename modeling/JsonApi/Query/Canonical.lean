import JsonApi.Query.Entry

/-!
Queries that can be asked for, and the canonical text that asks for one: an entry for each part, with
every byte escaped that is no ASCII letter or digit.
-/

namespace JsonApi.Query

def IsName (name : String) : Prop := name ≠ "" ∧ ',' ∉ name.toList

instance (name : String) : Decidable (IsName name) := inferInstanceAs (Decidable (_ ∧ _))

def IsPath (path : String) : Prop :=
  ∃ segments : List (List Char), segments ≠ [] ∧ (∀ segment ∈ segments, isToken segment = true) ∧
    path.toList = Text.joinWith ['.'] segments

def IsMap {β : Type} (P : String × β → Prop) (entries : Option (List (String × β))) : Prop :=
  ∀ known, entries = some known →
    known ≠ [] ∧ (Entries.keys known).Nodup ∧ ∀ entry ∈ known, P entry

/-- A choice of relationships or an order may be there and empty, fieldsets and filters may not. -/
structure WellFormed (q : Query) : Prop where
  inclusions : ∀ names, q.inclusions = some names → ∀ name ∈ names, IsName name
  sort : ∀ fields, q.sort = some fields → ∀ field ∈ fields, isToken field.field.toList = true
  fieldsets : IsMap (fun fieldset => IsPath fieldset.1 ∧ ∀ name ∈ fieldset.2, IsName name) q.fieldsets
  filters : IsMap (fun filter => IsPath filter.1) q.filters

def writeNames (names : List String) : List Char := Text.joinWith [','] (names.map String.toList)

def writeSortField (field : SortField) : List Char :=
  (if field.descending then ['-'] else []) ++ field.field.toList

def writeSort (fields : List SortField) : List Char := Text.joinWith [','] (fields.map writeSortField)

def pathKey (family : List Char) (path : String) : List Char :=
  FamilyKey.write ⟨family, Text.pieces '.' path.toList⟩

def members (q : Query) : List (List Char × List Char) :=
  q.inclusions.toList.map (fun names => (includeKey, writeNames names)) ++
    q.sort.toList.map (fun fields => (sortKey, writeSort fields)) ++
    (q.fieldsets.getD []).map (fun fieldset =>
      (pathKey fieldsetFamily fieldset.1, writeNames fieldset.2)) ++
    (q.filters.getD []).map fun filter => (pathKey filterFamily filter.1, filter.2.toList)

def writeEntry (key value : List Char) : List Char := Text.encodeForm key ++ '=' :: Text.encodeForm value

def write (q : Query) : List Char :=
  Text.joinWith ['&'] (q.members.map fun member => writeEntry member.1 member.2)

end JsonApi.Query
