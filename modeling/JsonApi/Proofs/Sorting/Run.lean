import JsonApi.Proofs.Sorting.Arrangement
import JsonApi.Proofs.Sorting.Search

/-!
Runs in order. Main statement: the run that a list starts with is the stable arrangement of so many items
in front, whether it was found in order, turned round or made longer item by item.
-/

namespace JsonApi.Sorting

variable {α ε : Type} {less : α → α → Except ε Bool} {le : α → α → Bool} {within : α → Prop}
  {items rest front back : List α} {first item last : α}

theorem pairwise_cons_cons {R : α → α → Prop} (trans : ∀ {a b c}, R a b → R b c → R a c)
    (here : R first item) (further : (item :: rest).Pairwise R) : (first :: item :: rest).Pairwise R := by
  refine List.pairwise_cons.mpr ⟨fun other member => ?_, further⟩
  rcases List.mem_cons.mp member with rfl | later
  · exact here
  · exact trans here (List.rel_of_pairwise_cons further later)

theorem ascending_spec (follows : Follows less le within) (inside : within last)
    (allInside : ∀ item ∈ items, within item) :
    ∃ run rest, ascending less last items = .ok (run, rest) ∧ items = run ++ rest ∧
      (last :: run).Pairwise fun a b => le a b = true := by
  induction items generalizing last with
  | nil => exact ⟨[], [], rfl, rfl, List.pairwise_singleton _ _⟩
  | cons next items ih =>
    obtain ⟨here, further⟩ := List.forall_mem_cons.mp allInside
    rw [ascending, follows.answers here inside, ok_bind]
    cases order : le last next with
    | false => exact ⟨[], next :: items, rfl, rfl, List.pairwise_singleton _ _⟩
    | true =>
      obtain ⟨run, rest, found, rfl, ordered⟩ := ih here further
      refine ⟨next :: run, rest, ?_, rfl, pairwise_cons_cons follows.ranking.trans order ordered⟩
      rw [if_neg (by decide), found, ok_bind]
      rfl

theorem Ranking.before_trans (ranking : Ranking le) {a b c : α} (first : le a b = false)
    (second : le b c = false) : le a c = false :=
  ranking.passes_of_le (ranking.of_not second) first

theorem descending_spec (follows : Follows less le within) (inside : within last)
    (allInside : ∀ item ∈ items, within item) :
    ∃ run rest, descending less last items = .ok (run, rest) ∧ items = run ++ rest ∧
      (last :: run).Pairwise fun a b => le a b = false := by
  induction items generalizing last with
  | nil => exact ⟨[], [], rfl, rfl, List.pairwise_singleton _ _⟩
  | cons next items ih =>
    obtain ⟨here, further⟩ := List.forall_mem_cons.mp allInside
    rw [descending, follows.answers here inside, ok_bind]
    cases order : le last next with
    | false =>
      obtain ⟨run, rest, found, rfl, ordered⟩ := ih here further
      refine ⟨next :: run, rest, ?_, rfl, pairwise_cons_cons follows.ranking.before_trans order ordered⟩
      rw [if_pos Bool.not_false, found, ok_bind]
      rfl
    | true => exact ⟨[], next :: items, rfl, rfl, List.pairwise_singleton _ _⟩

/-- No two items of a strictly descending list share a place, so nothing is lost in turning it round. -/
theorem arranges_reverse (ranking : Ranking le) (strict : items.Pairwise fun a b => le a b = false) :
    Arranges le items items.reverse where
  ordered := List.pairwise_reverse.mpr (strict.imp ranking.of_not)
  ties := fun item => by
    rw [List.filter_reverse]
    have apart := strict.filter (tied le item)
    cases shape : items.filter (tied le item) with
    | nil => rfl
    | cons one more =>
      cases more with
      | nil => rfl
      | cons other more =>
        have place : ∀ a ∈ one :: other :: more, tied le item a = true := by
          rw [← shape]
          exact fun _ => List.of_mem_filter
        rw [shape] at apart
        have together : le one other = true := ranking.trans
          (tied_iff.mp (place one List.mem_cons_self)).2
          (tied_iff.mp (place other (List.mem_cons_of_mem _ List.mem_cons_self))).1
        rw [List.rel_of_pairwise_cons apart List.mem_cons_self] at together
        cases together

theorem leadingRun_spec (follows : Follows less le within) (inside : within first)
    (allInside : ∀ item ∈ items, within item) :
    ∃ run taken rest, leadingRun less first items = .ok (run, rest) ∧ first :: items = taken ++ rest ∧
      taken ≠ [] ∧ Arranges le taken run := by
  cases items with
  | nil =>
    exact ⟨[first], [first], [], rfl, rfl, List.cons_ne_nil _ _, .of_pairwise (List.pairwise_singleton _ _)⟩
  | cons second items =>
    obtain ⟨here, further⟩ := List.forall_mem_cons.mp allInside
    rw [leadingRun, follows.answers here inside, ok_bind]
    cases order : le first second with
    | false =>
      obtain ⟨run, rest, found, rfl, ordered⟩ := descending_spec follows here further
      refine ⟨(first :: second :: run).reverse, first :: second :: run, rest, ?_, rfl,
        List.cons_ne_nil _ _, arranges_reverse follows.ranking
          (pairwise_cons_cons follows.ranking.before_trans order ordered)⟩
      rw [if_pos Bool.not_false, found, ok_bind]
      rfl
    | true =>
      obtain ⟨run, rest, found, rfl, ordered⟩ := ascending_spec follows here further
      refine ⟨first :: second :: run, first :: second :: run, rest, ?_, rfl, List.cons_ne_nil _ _,
        .of_pairwise (pairwise_cons_cons follows.ranking.trans order ordered)⟩
      rw [if_neg (by decide), found, ok_bind]
      rfl

/-- An item is put behind all that share its place. -/
theorem Arranges.insert (ranking : Ranking le) (arranges : Arranges le items (front ++ back))
    (before : ∀ other ∈ front, le other item = true) (behind : ∀ other ∈ back, le other item = false) :
    Arranges le (items ++ [item]) (front ++ item :: back) where
  ordered := by
    obtain ⟨fronts, backs, between⟩ := List.pairwise_append.mp arranges.ordered
    refine List.pairwise_append.mpr ⟨fronts, List.pairwise_cons.mpr ⟨fun other member => ?_, backs⟩,
      fun other member => List.forall_mem_cons.mpr ⟨before other member, between other member⟩⟩
    exact ranking.of_not (behind other member)
  ties := fun place => by
    rw [List.filter_append, List.filter_append, ← arranges.ties, List.filter_append]
    cases shared : tied le place item with
    | false =>
      have other : ¬tied le place item = true := Bool.eq_false_iff.mp shared
      rw [List.filter_cons_of_neg other, List.filter_cons_of_neg other, List.filter_nil,
        List.append_nil]
    | true =>
      have nothing : back.filter (tied le place) = [] := by
        refine List.filter_eq_nil_iff.mpr fun other member together => ?_
        have earlier := ranking.trans (tied_iff.mp together).2 (tied_iff.mp shared).1
        rw [behind other member] at earlier
        cases earlier
      rw [List.filter_cons_of_pos shared, List.filter_cons_of_pos shared, nothing, List.filter_nil,
        List.append_nil]

theorem insert_spec (follows : Follows less le within) (inside : within item)
    (allInside : ∀ item ∈ items, within item) {run : List α} (arranges : Arranges le items run) :
    ∃ run', Sorting.insert less item run = .ok run' ∧ Arranges le (items ++ [item]) run' := by
  have answers : ∀ other ∈ run, (!·) <$> less item other = .ok (le other item) := by
    intro other member
    rw [follows.answers inside (allInside other ((arranges.mem_iff follows.ranking).mp member))]
    exact congrArg Except.ok (Bool.not_not _)
  obtain ⟨front, back, rfl, divides, before, behind⟩ := divides_of_pairwise answers
    (arranges.ordered.imp follows.ranking.trans)
  refine ⟨front ++ item :: back, ?_, arranges.insert follows.ranking before behind⟩
  rw [Sorting.insert, bisect_append .front divides]
  show Except.ok ((front ++ back).take front.length ++ item :: (front ++ back).drop front.length) = _
  rw [List.take_left, List.drop_left]

theorem insertAll_spec (follows : Follows less le within) {more : List α}
    (allInside : ∀ item ∈ items ++ more, within item) {run : List α} (arranges : Arranges le items run) :
    ∃ run', insertAll less run more = .ok run' ∧ Arranges le (items ++ more) run' := by
  induction more generalizing items run with
  | nil => exact ⟨run, rfl, by rwa [List.append_nil]⟩
  | cons item more ih =>
    obtain ⟨here, further⟩ := List.forall_mem_append.mp allInside
    obtain ⟨run', inserted, arranges'⟩ :=
      insert_spec follows (further item List.mem_cons_self) here arranges
    rw [List.append_cons] at allInside ⊢
    obtain ⟨run'', done, arranges''⟩ := ih allInside arranges'
    refine ⟨run'', ?_, arranges''⟩
    rw [insertAll, inserted]
    exact done

theorem nextRun_spec (follows : Follows less le within) (least : Nat) (inside : within first)
    (allInside : ∀ item ∈ items, within item) :
    ∃ run taken, nextRun less least first items = .ok run ∧
      first :: items = taken ++ items.drop (run.length - 1) ∧ Arranges le taken run := by
  obtain ⟨run, taken, rest, found, shape, nonempty, arranges⟩ := leadingRun_spec follows inside allInside
  have all : ∀ item ∈ taken ++ rest, within item := by
    rw [← shape]
    exact List.forall_mem_cons.mpr ⟨inside, allInside⟩
  have parts : taken ++ rest =
      (taken ++ rest.take (least - run.length)) ++ rest.drop (least - run.length) := by
    rw [List.append_assoc, List.take_append_drop]
  rw [parts] at all shape
  obtain ⟨run', done, arranges'⟩ := insertAll_spec follows
    (fun item member => all item (List.mem_append_left _ member)) arranges
  refine ⟨run', taken ++ rest.take (least - run.length), ?_, ?_, arranges'⟩
  · rw [nextRun, found]
    exact done
  · have size := (arranges'.perm follows.ranking).length_eq
    have positive : 0 < run'.length := by
      rw [size, List.length_append]
      exact Nat.add_pos_left (List.length_pos_of_ne_nil nonempty) _
    have left : items.drop (run'.length - 1) = (first :: items).drop run'.length := by
      rw [← List.drop_succ_cons, Nat.sub_add_cancel positive]
    rw [left, shape, size, List.drop_left]

end JsonApi.Sorting
