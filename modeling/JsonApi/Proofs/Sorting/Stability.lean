import JsonApi.Proofs.Sorting.Merge
import JsonApi.Proofs.Sorting.Run

/-!
The whole sort. Main statement: a sort whose comparison answers by an order is the merge sort by that order,
wherever the runs are cut and in whichever order they are merged.
-/

namespace JsonApi.Sorting

variable {α ε : Type} {less : α → α → Except ε Bool} {le : α → α → Bool} {within : α → Prop}
  {items segment : List α} {waiting : List (Waiting α)} {last : List α}

/-- Runs that wait, each of which is the arrangement of its own piece of a list. -/
inductive Stacked (le : α → α → Bool) : List (Waiting α) → List α → Prop where
  | nil : Stacked le [] []
  | push {waiting : List (Waiting α)} {before segment : List α} {w : Waiting α}
    (below : Stacked le waiting before) (arranges : Arranges le segment w.run) :
    Stacked le (w :: waiting) (before ++ segment)

def Holds (le : α → α → Bool) (waiting : List (Waiting α)) (last items : List α) : Prop :=
  ∃ before segment, items = before ++ segment ∧ Stacked le waiting before ∧ Arranges le segment last

theorem Holds.single (arranges : Arranges le items last) : Holds le [] last items :=
  ⟨[], items, rfl, .nil, arranges⟩

/-- The last two runs are merged into one, which is the arrangement of both their pieces. -/
theorem merge_of_arranges (follows : Follows less le within) (wins : Nat) {left right : List α}
    {run run' : List α} (leftArranges : Arranges le left run) (rightArranges : Arranges le right run')
    (allWithin : ∀ item ∈ left ++ right, within item) :
    ∃ merged wins', merge less wins run run' = .ok (merged, wins') ∧
      Arranges le (left ++ right) merged := by
  have ranking := follows.ranking
  obtain ⟨merged, wins', found, arranges⟩ := merge_spec follows wins leftArranges.ordered
    rightArranges.ordered
    (fun item member => allWithin item (List.mem_append_left _ ((leftArranges.mem_iff ranking).mp member)))
    (fun item member => allWithin item (List.mem_append_right _ ((rightArranges.mem_iff ranking).mp member)))
  refine ⟨merged, wins', found, arranges.ordered, fun item => ?_⟩
  rw [arranges.ties, List.filter_append, List.filter_append, leftArranges.ties, rightArranges.ties]

namespace Pending

theorem mergeDeeper_spec (follows : Follows less le within) (halvings wins : Nat)
    (holds : Holds le waiting last items) (allWithin : ∀ item ∈ items, within item) :
    ∃ p, mergeDeeper less halvings waiting last wins = .ok p ∧ Holds le p.waiting p.last items := by
  obtain ⟨before, segment, rfl, stacked, arranges⟩ := holds
  induction stacked generalizing segment last wins with
  | nil => exact ⟨_, rfl, .single arranges⟩
  | @push waiting before middle w below arranges' ih =>
    rw [mergeDeeper]
    split
    · rw [List.append_assoc] at allWithin ⊢
      obtain ⟨merged, wins', found, joined⟩ := merge_of_arranges follows wins arranges' arranges
        fun item member => allWithin item (List.mem_append_right _ member)
      rw [found, ok_bind]
      exact ih wins' _ allWithin joined
    · exact ⟨_, rfl, before ++ middle, segment, rfl, .push below arranges', arranges⟩

theorem push_spec (follows : Follows less le within) (total : Nat) {p : Pending α} {run : List α}
    (holds : Holds le p.waiting p.last items) (arranges : Arranges le segment run)
    (allWithin : ∀ item ∈ items, within item) :
    ∃ p', p.push less total run = .ok p' ∧ Holds le p'.waiting p'.last (items ++ segment) := by
  unfold push
  obtain ⟨p', found, before, middle, rfl, stacked, arranges'⟩ := mergeDeeper_spec follows
    (sharedHalvings total (2 * p.start + p.last.length)
      (2 * p.start + p.last.length + p.last.length + run.length)) p.wins holds allWithin
  dsimp only
  rw [found, ok_bind]
  exact ⟨_, rfl, before ++ middle, segment, rfl, .push stacked arranges', arranges⟩

theorem mergeAll_spec (follows : Follows less le within) (wins : Nat)
    (holds : Holds le waiting last items) (allWithin : ∀ item ∈ items, within item) :
    ∃ result, mergeAll less waiting last wins = .ok result ∧ Arranges le items result := by
  generalize size : waiting.length = count
  induction count generalizing waiting last wins with
  | zero =>
    cases List.eq_nil_of_length_eq_zero size
    obtain ⟨before, segment, rfl, stacked, arranges⟩ := holds
    cases stacked
    exact ⟨last, by rw [mergeAll], arranges⟩
  | succ count ih =>
    obtain ⟨before, segment, rfl, stacked, arranges⟩ := holds
    cases stacked with
    | nil => cases size
    | @push waiting before middle w below arranges' =>
      have fewer : waiting.length = count := Nat.succ.inj size
      obtain ⟨front, back⟩ := List.forall_mem_append.mp allWithin
      have frontOnly := (List.forall_mem_append.mp front).2
      obtain ⟨merged, wins', found, joined⟩ := merge_of_arranges follows wins arranges' arranges
        (List.forall_mem_append.mpr ⟨frontOnly, back⟩)
      have rest : Holds le waiting merged (before ++ middle ++ segment) :=
        ⟨before, middle ++ segment, List.append_assoc _ _ _, below, joined⟩
      cases below with
      | nil =>
        rw [mergeAll, found]
        exact ⟨merged, rfl, joined⟩
      | @push waiting before earlier v below arrangesV =>
        rw [mergeAll]
        split
        · obtain ⟨run, wins', found, joined⟩ := merge_of_arranges follows wins arrangesV arranges'
            (List.forall_mem_append.mpr
              ⟨(List.forall_mem_append.mp (List.forall_mem_append.mp front).1).2, frontOnly⟩)
          rw [found, ok_bind]
          refine ih wins' ⟨before ++ (earlier ++ middle), segment, ?_, .push below joined, arranges⟩ fewer
          rw [List.append_assoc before]
        · rw [found, ok_bind]
          exact ih wins' rest fewer

end Pending

theorem sortRest_spec (follows : Follows less le within) (total : Nat) {p : Pending α} {rest : List α}
    (holds : Holds le p.waiting p.last items) (allWithin : ∀ item ∈ items ++ rest, within item) :
    ∃ result, sortRest less total p rest = .ok result ∧ Arranges le (items ++ rest) result := by
  obtain ⟨before, after⟩ := List.forall_mem_append.mp allWithin
  generalize size : rest.length = count
  induction count using Nat.strongRecOn generalizing p items rest with
  | ind count ih =>
    cases rest with
    | nil =>
      rw [List.append_nil, sortRest]
      exact Pending.mergeAll_spec follows p.wins holds before
    | cons first rest =>
      obtain ⟨firstWithin, restWithin⟩ := List.forall_mem_cons.mp after
      obtain ⟨run, taken, found, shape, arranges⟩ :=
        nextRun_spec follows (leastRun total false) firstWithin restWithin
      obtain ⟨p', pushed, holds'⟩ := Pending.push_spec follows total holds arranges before
      rw [sortRest, found, ok_bind, pushed, ok_bind]
      rw [shape, ← List.append_assoc] at allWithin ⊢
      obtain ⟨before', after'⟩ := List.forall_mem_append.mp allWithin
      refine ih _ ?_ holds' allWithin before' after' rfl
      rw [List.length_drop, ← size, List.length_cons]
      omega

/-- A sort by a comparison that answers by an order is the merge sort by that order. -/
theorem sort_eq_mergeSort (follows : Follows less le within) (allWithin : ∀ item ∈ items, within item) :
    sort less items = .ok (items.mergeSort le) := by
  suffices done : ∃ result, sort less items = .ok result ∧ Arranges le items result by
    obtain ⟨result, found, arranges⟩ := done
    rw [found, arranges.eq_mergeSort follows.ranking]
  cases items with
  | nil => exact ⟨[], rfl, .of_pairwise .nil⟩
  | cons first rest =>
    obtain ⟨firstWithin, restWithin⟩ := List.forall_mem_cons.mp allWithin
    obtain ⟨run, taken, found, shape, arranges⟩ :=
      nextRun_spec follows (leastRun (first :: rest).length false) firstWithin restWithin
    unfold sort
    dsimp only
    rw [found, ok_bind]
    rw [shape] at allWithin ⊢
    exact sortRest_spec follows _ (.single arranges) allWithin

end JsonApi.Sorting
