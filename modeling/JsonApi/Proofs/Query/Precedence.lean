import JsonApi.Proofs.Sorting.Stability
import JsonApi.Query.Precedence

/-!
Orders by several criteria. Main statement: to arrange by one criterion, in a stable way and after the ones that
count less, is to arrange by all of them in turn.
-/

namespace JsonApi

theorem Sorting.Ranking.comap {α β : Type} {le : α → α → Bool} (ranking : Ranking le) (f : β → α) :
    Ranking fun a b => le (f a) (f b) where
  total := fun a b => ranking.total (f a) (f b)
  trans := fun first second => ranking.trans first second

namespace Query

open Sorting

section Turns

variable {α : Type} {le : α → α → Bool} {les : List (α → α → Bool)} {items middle result : List α}

/-- Items share a place in several orders if they do so in each. -/
theorem tied_inTurn (le : α → α → Bool) (les : List (α → α → Bool)) (a b : α) :
    tied (inTurn (le :: les)) a b = (tied le a b && tied (inTurn les) a b) := by
  simp only [tied, inTurn]
  cases le a b <;> cases le b a <;> simp

theorem inTurn_cons_iff {a b : α} :
    inTurn (le :: les) a b = true ↔ le a b = true ∧ (le b a = true → inTurn les a b = true) := by
  rw [inTurn, Bool.and_eq_true, Bool.or_eq_true, Bool.not_eq_true', ← Bool.not_eq_true, imp_iff_not_or]

theorem ranking_inTurn (each : ∀ le ∈ les, Ranking le) : Ranking (inTurn les) := by
  induction les with
  | nil => exact ⟨fun _ _ => Or.inl rfl, fun _ _ => rfl⟩
  | cons le les ih =>
    obtain ⟨first, further⟩ := List.forall_mem_cons.mp each
    have rest := ih further
    constructor
    · intro a b
      rw [inTurn_cons_iff, inTurn_cons_iff]
      by_cases left : le a b = true
      · by_cases right : le b a = true
        · exact (rest.total a b).imp (fun order => ⟨left, fun _ => order⟩) fun order =>
            ⟨right, fun _ => order⟩
        · exact Or.inl ⟨left, fun back => absurd back right⟩
      · exact Or.inr ⟨(first.total a b).resolve_left left, fun back => absurd back left⟩
    · intro a b c before before'
      rw [inTurn_cons_iff] at before before' ⊢
      obtain ⟨order, decides⟩ := before
      obtain ⟨order', decides'⟩ := before'
      refine ⟨first.trans order order', fun back => ?_⟩
      exact rest.trans (decides (first.trans order' back)) (decides' (first.trans back order))

/-- A stable arrangement by an order, after one by others, is one by all of them in turn. -/
theorem arranges_inTurn (first : Arranges (inTurn les) items middle) (second : Arranges le middle result)
    (ranking : Ranking le) : Arranges (inTurn (le :: les)) items result where
  ordered := by
    refine List.pairwise_iff_forall_sublist.mpr fun {a b} sublist => ?_
    have order := List.pairwise_iff_forall_sublist.mp second.ordered sublist
    refine inTurn_cons_iff.mpr ⟨order, fun back => ?_⟩
    -- Items that share a place stand as they did before this arrangement.
    have together : [a, b].filter (tied le a) = [a, b] :=
      List.filter_eq_self.mpr (by simp [tied_iff, ranking.refl, order, back])
    have before := sublist.filter (tied le a)
    rw [together, second.ties] at before
    exact List.pairwise_iff_forall_sublist.mp first.ordered (before.trans List.filter_sublist)
  ties := fun item => by
    have both (list : List α) : list.filter (tied (inTurn (le :: les)) item) =
        (list.filter (tied le item)).filter (tied (inTurn les) item) := by
      rw [List.filter_filter]
      exact List.filter_congr fun other _ => (tied_inTurn le les item other).trans (Bool.and_comm _ _)
    rw [both, second.ties, both, List.filter_comm, first.ties, List.filter_comm]

end Turns

section Values

variable {valueLe : Value → Value → Bool} {v w : Value} {descending : Bool}

theorem precedes_iff : precedes valueLe descending v w = true ↔ w.isNull = true ∨ v.isNull = false ∧
    (if descending then valueLe w v else valueLe v w) = true := by
  rw [precedes, Bool.or_eq_true, Bool.and_eq_true, Bool.not_eq_true']

theorem ranking_precedes (ranking : Ranking valueLe) (descending : Bool) :
    Ranking (precedes valueLe descending) := by
  have directed : Ranking fun v w => if descending then valueLe w v else valueLe v w := by
    cases descending with
    | true => exact ranking.flip
    | false => exact ranking
  constructor
  · intro v w
    rw [precedes_iff, precedes_iff]
    cases v.isNull with
    | true => exact Or.inr (Or.inl rfl)
    | false =>
      cases w.isNull with
      | true => exact Or.inl (Or.inl rfl)
      | false =>
        exact (directed.total v w).imp (fun order => Or.inr ⟨rfl, order⟩) fun order => Or.inr ⟨rfl, order⟩
  · intro u v w before before'
    rw [precedes_iff] at before before' ⊢
    refine before'.imp_right fun order' => ?_
    have order := before.resolve_left (by rw [order'.1]; exact Bool.false_ne_true)
    exact ⟨order.1, directed.trans order.2 order'.2⟩

theorem ranking_fieldOrder {α : Type} (member : α → String → Option Value)
    {order : String → Value → Value → Bool} {field : SortField} (ranking : Ranking (order field.field)) :
    Ranking (fieldOrder member order field) :=
  (ranking_precedes ranking field.descending).comap (valueOf member field.field)

end Values

end Query

end JsonApi
