import JsonApi.Document.Composition

/-!
The content of a document: its items, the places of the models among them, and what the content stands
for. Main statement: only values can make content stand for errors, and content that does not is one
model or a list of items.
-/

namespace JsonApi

namespace Item

def place? : Item → Option Nat
  | .model place => some place
  | .value _ => none

end Item

namespace Content

def items : Content → List Item
  | .single item => [item]
  | .sequence items => items
  | .stream items => items

def places (content : Content) : List Nat := content.items.filterMap Item.place?

/-- Primary data as the content has them: one resource for one model, a list for anything else. -/
def arrange : Content → List Resource → PrimaryData
  | .single (.model _), [resource] => .one resource
  | _, resources => .many resources

theorem resources_arrange (content : Content) (resources : List Resource) :
    (content.arrange resources).resources = resources := by
  unfold arrange
  split <;> rfl

end Content

namespace Subject

theorem ofSequence_ok {items : List Item} {subject : Subject}
    (stands : ofSequence items = .ok subject) :
    (∃ errors v, subject = .errors errors ∧ .value v ∈ items) ∨ subject = .many items := by
  unfold ofSequence at stands
  simp only at stands
  split at stands
  next =>
    cases stands
    exact Or.inr rfl
  next filled =>
    split at stands
    · cases stands
      rw [List.isEmpty_iff] at filled
      obtain ⟨v, member⟩ := List.exists_mem_of_ne_nil _ filled
      obtain ⟨item, inside, error⟩ := List.mem_filterMap.mp member
      cases item with
      | model place => cases error
      | value v => exact Or.inl ⟨_, v, rfl, inside⟩
    · cases stands

theorem ofValue_ok {v : Value} {subject : Subject} (stands : ofValue v = .ok subject) :
    (∃ errors, subject = .errors errors) ∨ ∃ values : List Value, subject = .many (values.map .value) := by
  unfold ofValue at stands
  split at stands
  next values =>
    rcases ofSequence_ok stands with ⟨errors, _, rfl, _⟩ | rfl
    · exact Or.inl ⟨errors, rfl⟩
    · exact Or.inr ⟨values, rfl⟩
  next values =>
    rcases ofSequence_ok stands with ⟨errors, _, rfl, _⟩ | rfl
    · exact Or.inl ⟨errors, rfl⟩
    · exact Or.inr ⟨values, rfl⟩
  next =>
    split at stands
    · cases stands
      exact Or.inl ⟨_, rfl⟩
    · split at stands
      next values _ =>
        cases stands
        exact Or.inr ⟨values, rfl⟩
      next => cases stands

/-- Content stands for errors, for one model, or for its items. Only values stand for errors. -/
theorem ofContent_ok {family : List Model} {content : Content} {subject : Subject}
    (stands : ofContent family content = .ok subject) :
    (∃ errors v, subject = .errors errors ∧ .value v ∈ content.items) ∨
      (∃ place, subject = .one place ∧ content = .single (.model place)) ∨
      ∃ items, subject = .many items ∧ content.places = items.filterMap Item.place? ∧
        ∀ resources, content.arrange resources = .many resources := by
  cases content with
  | single item =>
    cases item with
    | model place =>
      simp only [ofContent] at stands
      split at stands
      · cases stands
        exact Or.inr (Or.inl ⟨place, rfl, rfl⟩)
      · cases stands
    | value v =>
      rcases ofValue_ok stands with ⟨errors, rfl⟩ | ⟨values, rfl⟩
      · exact Or.inl ⟨errors, v, rfl, List.mem_singleton_self _⟩
      · refine Or.inr (Or.inr ⟨_, rfl, ?_, fun _ => rfl⟩)
        have placeless : (values.map Item.value).filterMap Item.place? = [] := by
          rw [List.filterMap_map]
          exact List.filterMap_eq_nil_iff.mpr fun _ _ => rfl
        exact placeless.symm
  | sequence items =>
    rcases ofSequence_ok stands with ⟨errors, v, rfl, member⟩ | rfl
    · exact Or.inl ⟨errors, v, rfl, member⟩
    · exact Or.inr (Or.inr ⟨items, rfl, rfl, fun _ => rfl⟩)
  | stream items =>
    cases stands
    exact Or.inr (Or.inr ⟨items, rfl, rfl, fun _ => rfl⟩)

end Subject

end JsonApi
