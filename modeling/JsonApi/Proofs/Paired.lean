import Mathlib.Data.List.Forall2

/-!
Lists whose members belong together in pairs: what is said of the pairs holds of members, of first
members that satisfy a test, of parts, and of the results of a function.
-/

namespace JsonApi.Paired

variable {α β : Type} {R S : α → β → Prop} {as : List α} {bs : List β}

theorem exists_of_mem_left (related : List.Forall₂ R as bs) {a : α} (member : a ∈ as) :
    ∃ b ∈ bs, R a b := by
  induction related with
  | nil => cases member
  | cons here _ ih =>
    rcases List.mem_cons.mp member with rfl | further
    · exact ⟨_, List.mem_cons_self, here⟩
    · obtain ⟨b, inside, belongs⟩ := ih further
      exact ⟨b, List.mem_cons_of_mem _ inside, belongs⟩

theorem exists_of_mem_right (related : List.Forall₂ R as bs) {b : β} (member : b ∈ bs) :
    ∃ a ∈ as, R a b :=
  exists_of_mem_left (List.Forall₂.flip related) member

/-- Of lists that belong together, the first members that satisfy tests which agree belong together. -/
theorem rel_find? {p : α → Bool} {q : β → Bool}
    (related : List.Forall₂ R as bs) (agree : ∀ a b, R a b → p a = q b) :
    Option.Rel R (as.find? p) (bs.find? q) := by
  induction related with
  | nil => exact .none
  | @cons a b as bs here _ ih =>
    have same := agree a b here
    cases test : q b with
    | true =>
      rw [List.find?_cons_of_pos (same.trans test), List.find?_cons_of_pos test]
      exact .some here
    | false =>
      rw [List.find?_cons_of_neg (by simp [same, test]), List.find?_cons_of_neg (by simp [test])]
      exact ih

theorem forall₂_append_iff {cs : List α} {ds : List β} (lengths : as.length = bs.length) :
    List.Forall₂ R (as ++ cs) (bs ++ ds) ↔ List.Forall₂ R as bs ∧ List.Forall₂ R cs ds := by
  constructor
  · intro related
    have first := List.forall₂_take as.length related
    have second := List.forall₂_drop as.length related
    rw [List.take_left, lengths, List.take_left] at first
    rw [List.drop_left, lengths, List.drop_left] at second
    exact ⟨first, second⟩
  · rintro ⟨first, second⟩
    exact List.rel_append first second

theorem forall₂_imp_of_mem (related : List.Forall₂ R as bs) (step : ∀ a, ∀ b ∈ bs, R a b → S a b) :
    List.Forall₂ S as bs := by
  induction related with
  | nil => exact .nil
  | cons here _ ih =>
    refine .cons (step _ _ List.mem_cons_self here) (ih ?_)
    exact fun a b member => step a b (List.mem_cons_of_mem _ member)

theorem pairwise {P : α → α → Prop} {Q : β → β → Prop} (related : List.Forall₂ R as bs)
    (apart : as.Pairwise P) (passes : ∀ a b a' b', R a b → R a' b' → P a a' → Q b b') :
    bs.Pairwise Q := by
  induction related with
  | nil => exact .nil
  | @cons a b as bs here further ih =>
    obtain ⟨first, rest⟩ := List.pairwise_cons.mp apart
    refine List.pairwise_cons.mpr ⟨fun b' member => ?_, ih rest⟩
    obtain ⟨a', inside, belongs⟩ := exists_of_mem_right further member
    exact passes a b a' b' here belongs (first a' inside)

theorem mapM_eq_some_iff {f : α → Option β} {inputs : List α} {outputs : List β} :
    inputs.mapM f = some outputs ↔
      List.Forall₂ (fun input output => f input = some output) inputs outputs := by
  induction inputs generalizing outputs with
  | nil =>
    rw [List.mapM_nil, List.forall₂_nil_left_iff]
    exact Option.some_inj.trans eq_comm
  | cons input rest ih =>
    rw [List.mapM_cons, List.forall₂_cons_left_iff]
    simp only [Option.bind_eq_bind, Option.bind_eq_some_iff, ih, Option.pure_def, Option.some_inj]
    constructor
    · rintro ⟨output, here, more, further, rfl⟩
      exact ⟨output, more, here, further, rfl⟩
    · rintro ⟨output, more, here, further, rfl⟩
      exact ⟨output, here, more, further, rfl⟩

end JsonApi.Paired
