import Mathlib.Data.List.Basic
import JsonApi.Sorting.Basic

/-!
What a stable sort returns. Main statement: a list that is in order, and that has the items without an order
between them in the same places among each other as before, is the result of the merge sort.
-/

namespace JsonApi.Sorting

variable {α : Type} {le : α → α → Bool} {items result : List α}

/-- An order in which items may share a place. -/
structure Ranking (le : α → α → Bool) : Prop where
  total : ∀ a b, le a b = true ∨ le b a = true
  trans : ∀ {a b c}, le a b = true → le b c = true → le a c = true

def tied (le : α → α → Bool) (item other : α) : Bool := le item other && le other item

/-- A list in order whose ties are as they were. -/
structure Arranges (le : α → α → Bool) (items result : List α) : Prop where
  ordered : result.Pairwise fun a b => le a b = true
  ties : ∀ item, result.filter (tied le item) = items.filter (tied le item)

/-- A comparison that answers by an order whenever it is asked about items of a kind. -/
structure Follows {ε : Type} (less : α → α → Except ε Bool) (le : α → α → Bool) (within : α → Prop) :
    Prop where
  ranking : Ranking le
  answers : ∀ {a b}, within a → within b → less a b = .ok (!le b a)

theorem tied_iff {item other : α} : tied le item other = true ↔ le item other = true ∧ le other item = true :=
  Bool.and_eq_true_iff

theorem Ranking.flip (ranking : Ranking le) : Ranking fun a b => le b a where
  total := fun a b => ranking.total b a
  trans := fun first second => ranking.trans second first

theorem Ranking.refl (ranking : Ranking le) (item : α) : le item item = true :=
  (ranking.total item item).elim id id

theorem Ranking.tied_self (ranking : Ranking le) (item : α) : tied le item item = true :=
  tied_iff.mpr ⟨ranking.refl item, ranking.refl item⟩

theorem Ranking.of_not (ranking : Ranking le) {a b : α} (other : le a b = false) : le b a = true :=
  (ranking.total a b).resolve_left (Bool.eq_false_iff.mp other)

theorem Ranking.passed_of_le (ranking : Ranking le) {a b o : α} (order : le a b = true)
    (passed : le a o = false) : le b o = false := by
  by_contra earlier
  rw [Bool.not_eq_false] at earlier
  rw [ranking.trans order earlier] at passed
  cases passed

theorem Ranking.passes_of_le (ranking : Ranking le) {a b h : α} (order : le a b = true)
    (passed : le h b = false) : le h a = false := by
  by_contra earlier
  rw [Bool.not_eq_false] at earlier
  rw [ranking.trans earlier order] at passed
  cases passed

theorem Ranking.le_all (ranking : Ranking le) {h o : α} {os : List α}
    (ordered : (o :: os).Pairwise fun a b => le a b = true) (first : le h o = true) :
    ∀ item ∈ o :: os, le h item = true :=
  List.forall_mem_cons.mpr
    ⟨first, fun _ further => ranking.trans first (List.rel_of_pairwise_cons ordered further)⟩

theorem Ranking.passed_all (ranking : Ranking le) {h o : α} {hs : List α}
    (ordered : (h :: hs).Pairwise fun a b => le a b = true) (first : le h o = false) :
    ∀ item ∈ h :: hs, le item o = false :=
  List.forall_mem_cons.mpr ⟨first, fun _ further =>
    ranking.passed_of_le (List.rel_of_pairwise_cons ordered further) first⟩

theorem tied_flip (item : α) : tied (fun a b => le b a) item = tied le item :=
  funext fun _ => Bool.and_comm _ _

namespace Arranges

/-- Each item is found among those that share its place. -/
theorem mem_iff (ranking : Ranking le) (arranges : Arranges le items result) {item : α} :
    item ∈ result ↔ item ∈ items := by
  have same (list : List α) : item ∈ list.filter (tied le item) ↔ item ∈ list := by
    rw [List.mem_filter, and_iff_left (ranking.tied_self item)]
  rw [← same result, arranges.ties, same items]

theorem of_pairwise (ordered : items.Pairwise fun a b => le a b = true) : Arranges le items items :=
  ⟨ordered, fun _ => rfl⟩

theorem append {others result' : List α} (left : Arranges le items result)
    (right : Arranges le others result') (between : ∀ a ∈ result, ∀ b ∈ result', le a b = true) :
    Arranges le (items ++ others) (result ++ result') where
  ordered := List.pairwise_append.mpr ⟨left.ordered, right.ordered, between⟩
  ties := fun item => by rw [List.filter_append, List.filter_append, left.ties, right.ties]

/-- What is put in order backwards is in order when it is turned round. -/
theorem reverse (arranges : Arranges (fun a b => le b a) items.reverse result) :
    Arranges le items result.reverse where
  ordered := List.pairwise_reverse.mpr arranges.ordered
  ties := fun item => by
    rw [List.filter_reverse, ← tied_flip, arranges.ties, tied_flip, List.filter_reverse,
      List.reverse_reverse]

/-- The first items share a place, so they are the first one of that place in both lists. -/
theorem eq (ranking : Ranking le) {result' : List α} (one : Arranges le items result)
    (other : Arranges le items result') : result = result' := by
  induction result generalizing items result' with
  | nil =>
    refine (List.eq_nil_iff_forall_not_mem.mpr fun item member => ?_).symm
    exact List.not_mem_nil ((one.mem_iff ranking).mpr ((other.mem_iff ranking).mp member))
  | cons first rest ih =>
    have known : first ∈ result' :=
      (other.mem_iff ranking).mpr ((one.mem_iff ranking).mp List.mem_cons_self)
    cases result' with
    | nil => cases known
    | cons first' rest' =>
      have known' : first' ∈ first :: rest :=
        (one.mem_iff ranking).mpr ((other.mem_iff ranking).mp List.mem_cons_self)
      have before : le first first' = true := by
        rcases List.mem_cons.mp known' with rfl | further
        · exact ranking.refl first'
        · exact List.rel_of_pairwise_cons one.ordered further
      have behind : le first' first = true := by
        rcases List.mem_cons.mp known with rfl | further
        · exact ranking.refl first
        · exact List.rel_of_pairwise_cons other.ordered further
      have ties (item : α) := (one.ties item).trans (other.ties item).symm
      have heads := ties first
      rw [List.filter_cons_of_pos (ranking.tied_self first),
        List.filter_cons_of_pos (tied_iff.mpr ⟨before, behind⟩)] at heads
      cases (List.cons.inj heads).1
      refine congrArg (first :: ·) (ih (of_pairwise one.ordered.of_cons)
        ⟨other.ordered.of_cons, fun item => ?_⟩)
      have further := ties item
      simp only [List.filter_cons] at further
      split at further
      · exact (List.cons.inj further).2.symm
      · exact further.symm

end Arranges

theorem arranges_mergeSort (ranking : Ranking le) (items : List α) :
    Arranges le items (items.mergeSort le) := by
  have trans : ∀ a b c, le a b = true → le b c = true → le a c = true := fun _ _ _ => ranking.trans
  have total : ∀ a b, (le a b || le b a) = true := fun a b =>
    (Bool.or_eq_true _ _).mpr (ranking.total a b)
  refine ⟨List.pairwise_mergeSort trans total items, fun item => ?_⟩
  -- Items that share a place are in order, so they occur in the sorted list one after the other.
  have alike : (items.filter (tied le item)).Pairwise fun a b => le a b = true := by
    refine List.pairwise_of_forall_mem_list fun a member b member' => ?_
    have left := (tied_iff.mp (List.of_mem_filter member)).2
    exact ranking.trans left (tied_iff.mp (List.of_mem_filter member')).1
  have inside := (List.sublist_mergeSort trans total alike List.filter_sublist).filter (tied le item)
  simp only [List.filter_filter, Bool.and_self] at inside
  exact (inside.eq_of_length ((List.mergeSort_perm items le).filter _).length_eq.symm).symm

/-- There is one stable sort. -/
theorem Arranges.eq_mergeSort (ranking : Ranking le) (arranges : Arranges le items result) :
    result = items.mergeSort le :=
  arranges.eq ranking (arranges_mergeSort ranking items)

theorem Arranges.perm (ranking : Ranking le) (arranges : Arranges le items result) :
    result.Perm items := by
  rw [arranges.eq_mergeSort ranking]
  exact List.mergeSort_perm items le

/-- Items in front may be put in order before all are. -/
theorem mergeSort_append (ranking : Ranking le) (items others : List α) :
    (items.mergeSort le ++ others).mergeSort le = (items ++ others).mergeSort le := by
  refine Arranges.eq_mergeSort ranking ⟨(arranges_mergeSort ranking _).ordered, fun item => ?_⟩
  rw [(arranges_mergeSort ranking _).ties, List.filter_append, (arranges_mergeSort ranking items).ties,
    List.filter_append]

end JsonApi.Sorting
