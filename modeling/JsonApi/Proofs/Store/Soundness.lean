import JsonApi.Proofs.Entries
import JsonApi.Store

/-!
Stores in which keys are the identifiers of what is stored under them. Main statements: both ways to
fill a store keep it so, what registering does in each of the three states of an identifier, and that
looking for an identifier is looking for the first key that means the same.
-/

namespace JsonApi.Store

/-- Keys are lasting identifiers of what is stored under them, and only keys are reserved. -/
structure Sound (s : Store) : Prop where
  keyed : ∀ entry ∈ s.entries, entry.1.isPersisted = true ∧ entry.2.identifier = entry.1
  held : ∀ identifier ∈ s.reserved, identifier ∈ s.identifiers

variable {s : Store} {identifier : Identifier} {item : Instance}

theorem sound_empty : empty.Sound where
  keyed := by simp [empty]
  held := by simp [empty]

theorem keyed_put (sound : s.Sound) (persisted : item.identifier.isPersisted = true) :
    ∀ entry ∈ Entries.put s.entries item.identifier item,
      entry.1.isPersisted = true ∧ entry.2.identifier = entry.1 := by
  intro entry member
  rcases Entries.mem_put member with here | before
  · rw [here]
    exact ⟨persisted, rfl⟩
  · exact sound.keyed entry before

theorem sound_hold (sound : s.Sound) (persisted : item.identifier.isPersisted = true) :
    (s.hold item).Sound := by
  have keys := identifiers_hold s item
  unfold hold at keys ⊢
  cases found : s.get? item.identifier with
  | some current => exact sound
  | none =>
    simp only [found] at keys
    refine ⟨keyed_put sound persisted, ?_⟩
    intro identifier member
    have absent : item.identifier ∉ s.identifiers := Entries.get?_eq_none.mp found
    rw [keys, if_neg absent]
    rcases List.mem_append.mp member with before | here
    · exact List.mem_append_left _ (sound.held identifier before)
    · exact List.mem_append_right _ here

theorem get?_hold_of_get? (found : s.get? identifier = some item) (other : Instance) :
    (s.hold other).get? identifier = some item := by
  rw [get?_hold, found, if_neg (by simp)]

theorem mem_reserved_hold (member : identifier ∈ (s.hold item).reserved) :
    identifier ∈ s.reserved ∨ item.identifier = identifier ∧ s.get? identifier = none := by
  unfold hold at member
  cases there : s.get? item.identifier with
  | some current =>
    simp only [there] at member
    exact Or.inl member
  | none =>
    simp only [there] at member
    rcases List.mem_append.mp member with before | here
    · exact Or.inl before
    · have same := List.mem_singleton.mp here
      exact Or.inr ⟨same.symm, same ▸ there⟩

theorem mem_reserved_hold_of_mem (waiting : identifier ∈ s.reserved) (item : Instance) :
    identifier ∈ (s.hold item).reserved := by
  unfold hold
  split
  · exact waiting
  · exact List.mem_append_left _ waiting

theorem keep_of_absent (absent : s.get? item.identifier = none) :
    s.keep item = { s with entries := Entries.put s.entries item.identifier item } := by
  simp only [keep, absent]

theorem keep_of_waiting {placeholder : Instance} (found : s.get? item.identifier = some placeholder)
    (waiting : item.identifier ∈ s.reserved) (different : placeholder.serial ≠ item.serial) :
    s.keep item = ⟨Entries.put s.entries item.identifier item,
      s.reserved.filter (· ≠ item.identifier)⟩ := by
  have replaced : item.identifier ∈ s.reserved ∧ placeholder.serial ≠ item.serial :=
    ⟨waiting, different⟩
  simp only [keep, found, if_pos replaced]

theorem keep_of_itself {current : Instance} (found : s.get? item.identifier = some current)
    (itself : current.serial = item.serial) : s.keep item = s := by
  simp [keep, found, itself]

theorem reserved_keep (s : Store) (item : Instance) :
    (s.keep item).reserved = s.reserved ∨
      (s.keep item).reserved = s.reserved.filter (· ≠ item.identifier) := by
  unfold keep
  split
  · exact Or.inl rfl
  · split
    · exact Or.inr rfl
    · exact Or.inl rfl

theorem mem_of_mem_reserved_keep (member : identifier ∈ (s.keep item).reserved) :
    identifier ∈ s.reserved := by
  rcases reserved_keep s item with same | fewer
  · exact same ▸ member
  · rw [fewer] at member
    exact List.mem_of_mem_filter member

theorem mem_reserved_keep_of_ne (waiting : identifier ∈ s.reserved)
    (different : identifier ≠ item.identifier) : identifier ∈ (s.keep item).reserved := by
  rcases reserved_keep s item with same | fewer
  · exact same ▸ waiting
  · rw [fewer]
    exact List.mem_filter.mpr ⟨waiting, by simpa using different⟩

theorem sound_keep (sound : s.Sound) (persisted : item.identifier.isPersisted = true) :
    (s.keep item).Sound := by
  constructor
  · unfold keep
    split
    · exact keyed_put sound persisted
    · split
      · exact keyed_put sound persisted
      · exact sound.keyed
  · intro identifier member
    have before := sound.held identifier (mem_of_mem_reserved_keep member)
    rw [identifiers_keep]
    split
    · exact before
    · exact List.mem_append_left _ before

/-- An identifier is looked for among the keys, and the first key that means the same decides. -/
theorem find?_eq (s : Store) (identifier : Identifier) :
    s.find? identifier = (s.identifiers.find? (·.isSame identifier)).bind s.get? := by
  unfold find? identifiers get? Entries.keys
  induction s.entries with
  | nil => rfl
  | cons entry rest ih =>
    cases same : entry.1.isSame identifier with
    | true => simp [same, Entries.get?]
    | false =>
      simp only [List.find?_cons, same, List.map_cons]
      rw [ih]
      cases first : (rest.map (·.1)).find? (·.isSame identifier) with
      | none => rfl
      | some key =>
        have different : entry.1 ≠ key := by
          rintro rfl
          rw [List.find?_some first] at same
          cases same
        simp [Entries.get?, different]

/-- Where types are texts, an identifier that means the same is the same, and both look-ups agree. -/
theorem find?_of_texts (texts : ∀ key ∈ s.identifiers, key.HasText) (text : identifier.HasText) :
    s.find? identifier = s.get? identifier := by
  rw [find?_eq]
  cases first : s.identifiers.find? (·.isSame identifier) with
  | none =>
    have absent : identifier ∉ s.identifiers := fun present =>
      List.find?_eq_none.mp first identifier present identifier.isSame_refl
    exact (Entries.get?_eq_none.mpr absent).symm
  | some key =>
    have present := texts key (List.mem_of_find?_eq_some first)
    have same := List.find?_some first
    rw [Option.bind_some, Identifier.eq_of_isSame present text same]

theorem identifier_of_get? (sound : s.Sound) (found : s.get? identifier = some item) :
    item.identifier = identifier :=
  (sound.keyed _ (Entries.mem_of_get? found)).2

/-- What is found stays found as long as no key goes and its own entry stays. -/
theorem find?_of_grows {later : Store} (sound : s.Sound)
    (grows : s.identifiers <+: later.identifiers) (found : s.find? identifier = some item)
    (stays : later.get? item.identifier = some item) : later.find? identifier = some item := by
  rw [find?_eq, Option.bind_eq_some_iff] at found ⊢
  obtain ⟨key, first, entry⟩ := found
  rw [identifier_of_get? sound entry] at stays
  exact ⟨key, grows.find?_eq_some first, stays⟩

theorem get?_of_find? (sound : s.Sound) (found : s.find? identifier = some item) :
    s.get? item.identifier = some item := by
  rw [find?_eq, Option.bind_eq_some_iff] at found
  obtain ⟨key, _, entry⟩ := found
  rwa [identifier_of_get? sound entry]

theorem identifiers_values (sound : s.Sound) :
    s.values.map Instance.identifier = s.identifiers := by
  unfold values identifiers Entries.keys
  rw [List.map_map]
  exact List.map_congr_left fun entry member => (sound.keyed entry member).2

end JsonApi.Store
