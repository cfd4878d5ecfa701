import JsonApi.Proofs.Value.Parts

/-!
Plain forms. Main statement: a plain form is its own plain form, and so is every value without structured
values in it.
-/

namespace JsonApi

namespace Value

/-- Values that have no structured value among their parts. What a set holds can be told apart by its hash. -/
inductive Unstructured : Value → Prop where
  | single {v : Value} (alone : v.isSingle = true) : Unstructured v
  | list {items : List Value} (inside : ∀ item ∈ items, Unstructured item) : Unstructured (.list items)
  | tuple {items : List Value} (inside : ∀ item ∈ items, Unstructured item) : Unstructured (.tuple items)
  | set {frozen : Bool} {items : List Value} (inside : ∀ item ∈ items, Unstructured item)
    (hashable : ∀ item ∈ items, isHashable item = true) : Unstructured (.set frozen items)
  | dict {entries : List (Value × Value)} (inside : ∀ entry ∈ entries, Unstructured entry.2) :
    Unstructured (.dict entries)

variable {v : Value} {shape : Shape} {fields extra members : Members}

theorem dump_of_isSingle (alone : v.isSingle = true) : v.dump = v := by
  cases v with
  | list | tuple | set | dict | record => cases alone
  | _ => rfl

theorem hasPlainForm_of_isSingle (alone : v.isSingle = true) : v.hasPlainForm = true := by
  cases v with
  | list | tuple | set | dict | record => cases alone
  | _ => rfl

theorem map_eq_self {items : List Value} {f : Value → Value} (same : ∀ item ∈ items, f item = item) :
    items.map f = items :=
  (List.map_congr_left same).trans (List.map_id items)

theorem map_snd_eq_self {κ : Type} {entries : List (κ × Value)} {f : Value → Value}
    (same : ∀ entry ∈ entries, f entry.2 = entry.2) :
    (entries.map fun entry => (entry.1, f entry.2)) = entries :=
  (List.map_congr_left fun entry member => congrArg (entry.1, ·) (same entry member)).trans
    (List.map_id entries)

theorem Unstructured.dump (plain : v.Unstructured) : v.dump = v := by
  induction plain with
  | single alone => exact dump_of_isSingle alone
  | list _ ih => rw [Value.dump, dumpItems_eq_map, map_eq_self ih]
  | tuple _ ih => rw [Value.dump, dumpItems_eq_map, map_eq_self ih]
  | set _ _ ih => rw [Value.dump, dumpItems_eq_map, map_eq_self ih]
  | dict _ ih => rw [Value.dump, dumpEntries_eq_map, map_snd_eq_self ih]

theorem Unstructured.hasPlainForm (plain : v.Unstructured) : v.hasPlainForm = true := by
  induction plain with
  | single alone => exact hasPlainForm_of_isSingle alone
  | list _ ih => rwa [Value.hasPlainForm, itemsHavePlainForm_iff]
  | tuple _ ih => rwa [Value.hasPlainForm, itemsHavePlainForm_iff]
  | set inside hashable ih =>
    rw [Value.hasPlainForm, Bool.and_eq_true, itemsHavePlainForm_iff, List.all_eq_true]
    exact ⟨ih, fun item member => by rw [(inside item member).dump, hashable item member]⟩
  | dict _ ih => rwa [Value.hasPlainForm, entriesHavePlainForm_iff]

theorem dump_record : dump (.record shape fields extra) =
    .ofMembers (if shape.isOpen then presentMembers shape (dumpFields fields) (dumpFields extra)
      else dumpFields fields) := by
  rw [dump]
  split <;> rfl

theorem dump_dump (v : Value) : v.dump.dump = v.dump := by
  induction v using byParts with
  | single v alone => rw [dump_of_isSingle alone, dump_of_isSingle alone]
  | list items ih =>
    rw [dump, dump, dumpItems_eq_map, dumpItems_eq_map, map_eq_self (List.forall_mem_map.mpr ih)]
  | tuple items ih =>
    rw [dump, dump, dumpItems_eq_map, dumpItems_eq_map, map_eq_self (List.forall_mem_map.mpr ih)]
  | set frozen items ih =>
    rw [dump, dump, dumpItems_eq_map, dumpItems_eq_map, map_eq_self (List.forall_mem_map.mpr ih)]
  | dict entries ih =>
    rw [dump, dump, dumpEntries_eq_map, dumpEntries_eq_map, map_snd_eq_self (List.forall_mem_map.mpr ih)]
  | record shape fields extra ih ih' =>
    have declared : ∀ field ∈ dumpFields fields, field.2.dump = field.2 := by
      rw [dumpFields_eq_map]
      exact List.forall_mem_map.mpr ih
    have further : ∀ field ∈ dumpFields extra, field.2.dump = field.2 := by
      rw [dumpFields_eq_map]
      exact List.forall_mem_map.mpr ih'
    rw [dump_record, dump_ofMembers, map_snd_eq_self]
    intro member inside
    split at inside
    · rcases mem_presentMembers inside with ⟨field, listed, same⟩ | listed
      · rw [← same]
        exact declared field listed
      · exact further member listed
    · exact declared member inside

theorem hasPlainForm_dump (formed : v.hasPlainForm = true) : v.dump.hasPlainForm = true := by
  induction v using byParts with
  | single v alone => rwa [dump_of_isSingle alone]
  | list items ih =>
    rw [hasPlainForm, itemsHavePlainForm_iff] at formed
    rw [dump, dumpItems_eq_map, hasPlainForm, itemsHavePlainForm_iff]
    exact List.forall_mem_map.mpr fun item member => ih item member (formed item member)
  | tuple items ih =>
    rw [hasPlainForm, itemsHavePlainForm_iff] at formed
    rw [dump, dumpItems_eq_map, hasPlainForm, itemsHavePlainForm_iff]
    exact List.forall_mem_map.mpr fun item member => ih item member (formed item member)
  | set frozen items ih =>
    rw [hasPlainForm, Bool.and_eq_true, itemsHavePlainForm_iff, List.all_eq_true] at formed
    rw [dump, dumpItems_eq_map, hasPlainForm, Bool.and_eq_true, itemsHavePlainForm_iff, List.all_eq_true]
    refine ⟨List.forall_mem_map.mpr fun item member => ih item member (formed.1 item member),
      List.forall_mem_map.mpr fun item member => ?_⟩
    rw [dump_dump]
    exact formed.2 item member
  | dict entries ih =>
    rw [hasPlainForm, entriesHavePlainForm_iff] at formed
    rw [dump, dumpEntries_eq_map, hasPlainForm, entriesHavePlainForm_iff]
    exact List.forall_mem_map.mpr fun entry member => ih entry member (formed entry member)
  | record shape fields extra ih ih' =>
    rw [hasPlainForm, Bool.and_eq_true, fieldsHavePlainForm_iff, fieldsHavePlainForm_iff] at formed
    have declared : ∀ field ∈ dumpFields fields, field.2.hasPlainForm = true := by
      rw [dumpFields_eq_map]
      exact List.forall_mem_map.mpr fun field listed => ih field listed (formed.1 field listed)
    have further : ∀ field ∈ dumpFields extra, field.2.hasPlainForm = true := by
      rw [dumpFields_eq_map]
      exact List.forall_mem_map.mpr fun field listed => ih' field listed (formed.2 field listed)
    rw [dump_record, hasPlainForm_ofMembers]
    intro member inside
    split at inside
    · rcases mem_presentMembers inside with ⟨field, listed, same⟩ | listed
      · rw [← same]
        exact declared field listed
      · exact further member listed
    · exact declared member inside

end Value

end JsonApi
