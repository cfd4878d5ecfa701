import JsonApi.Value.Basic

/-!
Values all of whose dictionaries have texts as keys, at every depth.
-/

namespace JsonApi.Value

def isTextKey : Value → Bool
  | .text _ => true
  | _ => false

mutual
def hasTextKeys : Value → Bool
  | .list items => itemsHaveTextKeys items
  | .tuple items => itemsHaveTextKeys items
  | .set _ items => itemsHaveTextKeys items
  | .dict entries => entriesHaveTextKeys entries
  | .record _ fields extra => fieldsHaveTextKeys fields && fieldsHaveTextKeys extra
  | _ => true

def itemsHaveTextKeys : List Value → Bool
  | [] => true
  | item :: rest => hasTextKeys item && itemsHaveTextKeys rest

def entriesHaveTextKeys : List (Value × Value) → Bool
  | [] => true
  | (key, value) :: rest => isTextKey key && hasTextKeys value && entriesHaveTextKeys rest

def fieldsHaveTextKeys : List (String × Value) → Bool
  | [] => true
  | (_, value) :: rest => hasTextKeys value && fieldsHaveTextKeys rest
end

theorem isTextKey_iff {key : Value} : isTextKey key = true ↔ ∃ name, key = .text name := by
  cases key <;> simp [isTextKey]

theorem itemsHaveTextKeys_iff {items : List Value} :
    itemsHaveTextKeys items = true ↔ ∀ item ∈ items, hasTextKeys item = true := by
  induction items with
  | nil => simp [itemsHaveTextKeys]
  | cons item rest ih => rw [itemsHaveTextKeys, Bool.and_eq_true, ih, List.forall_mem_cons]

theorem entriesHaveTextKeys_iff {entries : List (Value × Value)} :
    entriesHaveTextKeys entries = true ↔
      ∀ entry ∈ entries, (∃ name, entry.1 = .text name) ∧ hasTextKeys entry.2 = true := by
  induction entries with
  | nil => simp [entriesHaveTextKeys]
  | cons entry rest ih =>
    rw [entriesHaveTextKeys, Bool.and_eq_true, Bool.and_eq_true, isTextKey_iff, ih,
      List.forall_mem_cons]

theorem fieldsHaveTextKeys_iff {fields : Members} :
    fieldsHaveTextKeys fields = true ↔ ∀ field ∈ fields, hasTextKeys field.2 = true := by
  induction fields with
  | nil => simp [fieldsHaveTextKeys]
  | cons field rest ih => rw [fieldsHaveTextKeys, Bool.and_eq_true, ih, List.forall_mem_cons]

section Map

variable {f : Value → Value}

theorem itemsHaveTextKeys_map {items : List Value}
    (kept : ∀ item ∈ items, hasTextKeys item = true → hasTextKeys (f item) = true)
    (keyed : itemsHaveTextKeys items = true) : itemsHaveTextKeys (items.map f) = true := by
  rw [itemsHaveTextKeys_iff] at keyed ⊢
  exact List.forall_mem_map.mpr fun item member => kept item member (keyed item member)

theorem entriesHaveTextKeys_map {entries : List (Value × Value)}
    (kept : ∀ entry ∈ entries, hasTextKeys entry.2 = true → hasTextKeys (f entry.2) = true)
    (keyed : entriesHaveTextKeys entries = true) :
    entriesHaveTextKeys (entries.map fun entry => (entry.1, f entry.2)) = true := by
  rw [entriesHaveTextKeys_iff] at keyed ⊢
  exact List.forall_mem_map.mpr fun entry member =>
    ⟨(keyed entry member).1, kept entry member (keyed entry member).2⟩

theorem fieldsHaveTextKeys_map {fields : Members}
    (kept : ∀ field ∈ fields, hasTextKeys field.2 = true → hasTextKeys (f field.2) = true)
    (keyed : fieldsHaveTextKeys fields = true) :
    fieldsHaveTextKeys (fields.map fun field => (field.1, f field.2)) = true := by
  rw [fieldsHaveTextKeys_iff] at keyed ⊢
  exact List.forall_mem_map.mpr fun field member => kept field member (keyed field member)

end Map

theorem hasTextKeys_ofMembers {members : Members} (keyed : fieldsHaveTextKeys members = true) :
    hasTextKeys (ofMembers members) = true := by
  rw [fieldsHaveTextKeys_iff] at keyed
  rw [ofMembers, hasTextKeys, entriesHaveTextKeys_iff]
  exact List.forall_mem_map.mpr fun member inside => ⟨⟨member.1, rfl⟩, keyed member inside⟩

end JsonApi.Value
