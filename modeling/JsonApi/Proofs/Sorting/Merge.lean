import JsonApi.Proofs.Sorting.Arrangement
import JsonApi.Proofs.Sorting.Search
import JsonApi.Sorting.Merge

/-!
Two runs merged. Main statement: whichever run is walked through, from whichever end, and however many items
are taken at once, the merge of two runs in order is their stable arrangement.
-/

namespace JsonApi.Sorting

variable {α ε : Type} {less : α → α → Except ε Bool} {le : α → α → Bool} {within : α → Prop}
  {held other held' other' front back items result taken merged : List α} {item : α}

/-- Items taken from the heads of two runs, one by one. Where two share a place the one that is held goes
first. -/
inductive Takes (le : α → α → Bool) : List α → List α → List α → List α → List α → Prop where
  | done {held other : List α} : Takes le held other [] held other
  | held {item : α} {held other taken held' other' : List α}
    (before : ∀ o ∈ other, le item o = true) (further : Takes le held other taken held' other') :
    Takes le (item :: held) other (item :: taken) held' other'
  | other {item : α} {held other taken held' other' : List α}
    (before : ∀ h ∈ held, le h item = false) (further : Takes le held other taken held' other') :
    Takes le held (item :: other) (item :: taken) held' other'

namespace Takes

theorem trans {taken' held'' other'' : List α} (first : Takes le held other taken held' other')
    (second : Takes le held' other' taken' held'' other'') :
    Takes le held other (taken ++ taken') held'' other'' := by
  induction first with
  | done => exact second
  | held before _ ih => exact .held before (ih second)
  | other before _ ih => exact .other before (ih second)

theorem suffixes (takes : Takes le held other taken held' other') : held' <:+ held ∧ other' <:+ other := by
  induction takes with
  | done => exact ⟨List.suffix_rfl, List.suffix_rfl⟩
  | held _ _ ih => exact ⟨ih.1.trans (List.suffix_cons _ _), ih.2⟩
  | other _ _ ih => exact ⟨ih.1, ih.2.trans (List.suffix_cons _ _)⟩

theorem length_eq (takes : Takes le held other taken held' other') :
    held.length + other.length = taken.length + (held'.length + other'.length) := by
  induction takes with
  | done => exact (Nat.zero_add _).symm
  | held _ _ ih =>
    simp only [List.length_cons]
    omega
  | other _ _ ih =>
    simp only [List.length_cons]
    omega

theorem heldFront (before : ∀ h ∈ front, ∀ o ∈ other, le h o = true) :
    Takes le (front ++ back) other front back other := by
  induction front with
  | nil => exact .done
  | cons first rest ih =>
    obtain ⟨here, further⟩ := List.forall_mem_cons.mp before
    exact .held here (ih further)

theorem otherFront (before : ∀ o ∈ front, ∀ h ∈ held, le h o = false) :
    Takes le held (front ++ back) front held back := by
  induction front with
  | nil => exact .done
  | cons first rest ih =>
    obtain ⟨here, further⟩ := List.forall_mem_cons.mp before
    exact .other here (ih further)

theorem allHeld (held : List α) : Takes le held [] held [] [] := by
  have all : Takes le (held ++ []) [] held [] [] := heldFront fun _ _ _ member => nomatch member
  rwa [List.append_nil] at all

theorem allOther (other : List α) : Takes le [] other other [] [] := by
  have all : Takes le [] (other ++ []) other [] [] := otherFront fun _ _ _ member => nomatch member
  rwa [List.append_nil] at all

end Takes

theorem Arranges.cons (ranking : Ranking le) (before : ∀ other ∈ items, le item other = true)
    (arranges : Arranges le items result) : Arranges le (item :: items) (item :: result) where
  ordered := List.pairwise_cons.mpr
    ⟨fun other member => before other ((arranges.mem_iff ranking).mp member), arranges.ordered⟩
  ties := fun place => by rw [List.filter_cons, List.filter_cons, arranges.ties]

/-- An item comes before others that it stood behind, as it shares no place with them. -/
theorem Arranges.overtake (ranking : Ranking le) (passed : ∀ h ∈ held, le h item = false)
    (before : ∀ o ∈ other, le item o = true) (arranges : Arranges le (held ++ other) result) :
    Arranges le (held ++ item :: other) (item :: result) where
  ordered := by
    refine List.pairwise_cons.mpr ⟨fun next member => ?_, arranges.ordered⟩
    rcases List.mem_append.mp ((arranges.mem_iff ranking).mp member) with here | there
    · exact ranking.of_not (passed next here)
    · exact before next there
  ties := fun place => by
    rw [List.filter_append, List.filter_cons, List.filter_cons, arranges.ties, List.filter_append]
    split
    · next shared =>
      have nothing : held.filter (tied le place) = [] := by
        refine List.filter_eq_nil_iff.mpr fun h member together => ?_
        have earlier := ranking.trans (tied_iff.mp together).2 (tied_iff.mp shared).1
        rw [passed h member] at earlier
        cases earlier
      rw [nothing, List.nil_append, List.nil_append]
    · rfl

theorem Takes.arranges (ranking : Ranking le) (ordered : held.Pairwise fun a b => le a b = true)
    (ordered' : other.Pairwise fun a b => le a b = true) (takes : Takes le held other taken held' other')
    (arranges : Arranges le (held' ++ other') merged) : Arranges le (held ++ other) (taken ++ merged) := by
  induction takes with
  | done => exact arranges
  | held before _ ih =>
    obtain ⟨first, ordered⟩ := List.pairwise_cons.mp ordered
    refine (ih ordered ordered' arranges).cons ranking ?_
    exact List.forall_mem_append.mpr ⟨first, before⟩
  | other before _ ih =>
    obtain ⟨first, ordered'⟩ := List.pairwise_cons.mp ordered'
    exact (ih ordered ordered' arranges).overtake ranking before first

theorem Takes.arrangesAll (ranking : Ranking le) (ordered : held.Pairwise fun a b => le a b = true)
    (ordered' : other.Pairwise fun a b => le a b = true) (takes : Takes le held other merged [] []) :
    Arranges le (held ++ other) merged := by
  rw [← List.append_nil merged]
  exact takes.arranges ranking ordered ordered' (.of_pairwise .nil)

/-- Two runs in order, where the last item of the one that is held stays behind all others. -/
structure Opposed (le : α → α → Bool) (within : α → Prop) (held other : List α) : Prop where
  heldOrdered : held.Pairwise fun a b => le a b = true
  otherOrdered : other.Pairwise fun a b => le a b = true
  last : ∀ last ∈ held.getLast?, ∀ o ∈ other, le last o = false
  heldWithin : ∀ item ∈ held, within item
  otherWithin : ∀ item ∈ other, within item

namespace Opposed

theorem after (opposed : Opposed le within held other) (takes : Takes le held other taken held' other') :
    Opposed le within held' other' := by
  obtain ⟨⟨before, rfl⟩, ⟨before', rfl⟩⟩ := takes.suffixes
  refine ⟨(List.pairwise_append.mp opposed.heldOrdered).2.1, (List.pairwise_append.mp opposed.otherOrdered).2.1,
    fun last member o inside => ?_, fun item member => opposed.heldWithin item ?_,
    fun item member => opposed.otherWithin item ?_⟩
  · refine opposed.last last ?_ o (List.mem_append_right _ inside)
    rw [List.getLast?_append, Option.mem_def.mp member]
    rfl
  · exact List.mem_append_right _ member
  · exact List.mem_append_right _ member

end Opposed

theorem settled?_spec (opposed : Opposed le within held other)
    (settled : settled? held other = some merged) : Takes le held other merged [] [] := by
  unfold settled? at settled
  split at settled
  · cases settled
    exact .allHeld _
  · cases settled
    exact .allOther _
  · next last _ =>
    cases settled
    have passed : Takes le [last] (other ++ []) other [last] [] := by
      refine .otherFront fun o member h here => ?_
      rw [List.mem_singleton.mp here]
      exact opposed.last last rfl o member
    rw [List.append_nil] at passed
    exact passed.trans (.allHeld [last])
  · cases settled

theorem exists_cons_of_unsettled (unsettled : settled? held other = none) :
    ∃ h hs o os, held = h :: hs ∧ other = o :: os := by
  cases other with
  | nil => cases unsettled
  | cons o os =>
    cases held with
    | nil => cases unsettled
    | cons h hs => exact ⟨h, hs, o, os, rfl, rfl⟩

namespace Contest

variable {c : Contest α ε}

structure Advances (le : α → α → Bool) (held other : List α) (s : Stretch α) : Prop where
  takes : Takes le held other s.taken s.held s.other
  moves : (settled? s.held s.other).isSome = true ∨ s.taken ≠ []

theorem stretchHeld_spec (follows : Follows (fun o h => c.yields h o) le within)
    (opposed : Opposed le within held other) :
    ∃ s, c.stretchHeld held other = .ok s ∧ Advances le held other s := by
  cases other with
  | nil => exact ⟨_, rfl, .done, .inl rfl⟩
  | cons next rest =>
    obtain ⟨nextWithin, -⟩ := List.forall_mem_cons.mp opposed.otherWithin
    have answers : ∀ item ∈ held, (!·) <$> c.yields item next = .ok (le item next) := by
      intro item member
      have answer : c.yields item next = .ok (!le item next) :=
        follows.answers nextWithin (opposed.heldWithin item member)
      rw [answer]
      exact congrArg Except.ok (Bool.not_not _)
    obtain ⟨front, back, rfl, divides, before, behind⟩ :=
      divides_of_pairwise answers (opposed.heldOrdered.imp follows.ranking.trans)
    have takes : Takes le (front ++ back) (next :: rest) front back (next :: rest) := by
      exact .heldFront fun h member => follows.ranking.le_all opposed.otherOrdered (before h member)
    rw [stretchHeld, leading_append c.side divides]
    simp only [ok_bind, List.drop_left, List.take_left]
    split
    · next settled => exact ⟨_, rfl, takes, .inl settled⟩
    · exact ⟨_, rfl, takes.trans (.other behind .done), .inr (by simp)⟩

theorem stretchOther_spec (follows : Follows (fun o h => c.yields h o) le within)
    (opposed : Opposed le within held other) :
    ∃ s, c.stretchOther held other = .ok s ∧ Advances le held other s := by
  cases held with
  | nil => exact ⟨_, rfl, .done, .inl (by cases other <;> rfl)⟩
  | cons next rest =>
    obtain ⟨nextWithin, -⟩ := List.forall_mem_cons.mp opposed.heldWithin
    have answers : ∀ item ∈ other, c.yields next item = .ok (!le next item) := fun item member =>
      follows.answers (opposed.otherWithin item member) nextWithin
    have closed : other.Pairwise fun a b => (!le next b) = true → (!le next a) = true := by
      simp only [Bool.not_eq_true']
      exact opposed.otherOrdered.imp follows.ranking.passes_of_le
    obtain ⟨front, back, rfl, divides, before, behind⟩ := divides_of_pairwise answers closed
    simp only [Bool.not_eq_true', Bool.not_eq_false'] at before behind
    have takes : Takes le (next :: rest) (front ++ back) front (next :: rest) back := by
      exact .otherFront fun o member => follows.ranking.passed_all opposed.heldOrdered (before o member)
    rw [stretchOther, leading_append c.side divides]
    simp only [ok_bind, List.drop_left, List.take_left]
    split
    · next settled => exact ⟨_, rfl, takes, .inl settled⟩
    · exact ⟨_, rfl, takes.trans (.held behind .done), .inr (by simp)⟩

theorem ending_spec {more : List α → List α → Except ε (Stretch α)}
    (advances : ∀ {held other}, Opposed le within held other →
      ∃ s, more held other = .ok s ∧ Advances le held other s)
    {first : Stretch α} (opposed : Opposed le within first.held first.other) :
    ∃ s, stretches.ending more first = .ok s ∧ Advances le first.held first.other s := by
  unfold stretches.ending
  split
  · next settled => exact ⟨_, rfl, .done, .inl settled⟩
  · exact advances opposed

theorem stretches_spec (follows : Follows (fun o h => c.yields h o) le within)
    (opposed : Opposed le within held other) :
    ∃ first second, c.stretches held other = .ok (first, second) ∧
      Takes le held other (first.taken ++ second.taken) second.held second.other ∧
      ((settled? second.held second.other).isSome = true ∨ first.taken ++ second.taken ≠ []) := by
  have both {first second : Stretch α} (one : Advances le held other first)
      (two : Advances le first.held first.other second) :
      Takes le held other (first.taken ++ second.taken) second.held second.other ∧
        ((settled? second.held second.other).isSome = true ∨ first.taken ++ second.taken ≠ []) :=
    ⟨one.takes.trans two.takes, two.moves.imp_right (List.append_ne_nil_of_right_ne_nil _)⟩
  unfold stretches
  split
  · obtain ⟨first, found, one⟩ := stretchHeld_spec follows opposed
    obtain ⟨second, found', two⟩ :=
      ending_spec (stretchOther_spec follows) (opposed.after one.takes)
    refine ⟨first, second, ?_, both one two⟩
    rw [found, ok_bind, found']
    rfl
  · obtain ⟨first, found, one⟩ := stretchOther_spec follows opposed
    obtain ⟨second, found', two⟩ :=
      ending_spec (stretchHeld_spec follows) (opposed.after one.takes)
    refine ⟨first, second, ?_, both one two⟩
    rw [found, ok_bind, found']
    rfl

/-- Whatever is left once some items are taken is merged in so many steps. -/
def GoesOn (c : Contest α ε) (le : α → α → Bool) (steps : Nat) (held other : List α) : Prop :=
  ∀ {taken held' other' : List α}, Takes le held other taken held' other' → taken ≠ [] →
    ∀ mode wins, ∃ merged wins', c.mergeWithin steps mode wins held' other' = .ok (merged, wins') ∧
      Takes le held other (taken ++ merged) [] []

theorem mergeWithin_single (follows : Follows (fun o h => c.yields h o) le within) {steps : Nat}
    (heldWins otherWins wins : Nat) {h o : α} {hs os : List α}
    (opposed : Opposed le within (h :: hs) (o :: os))
    (unsettled : settled? (h :: hs) (o :: os) = none) (goesOn : GoesOn c le steps (h :: hs) (o :: os)) :
    ∃ merged wins',
      c.mergeWithin (steps + 1) (.single heldWins otherWins) wins (h :: hs) (o :: os) =
        .ok (merged, wins') ∧
      Takes le (h :: hs) (o :: os) merged [] [] := by
  obtain ⟨heldWithin, -⟩ := List.forall_mem_cons.mp opposed.heldWithin
  obtain ⟨otherWithin, -⟩ := List.forall_mem_cons.mp opposed.otherWithin
  have answer : c.yields h o = .ok (!le h o) := follows.answers otherWithin heldWithin
  unfold mergeWithin
  rw [unsettled]
  dsimp only
  rw [answer, ok_bind]
  cases order : le h o with
  | false =>
    have passed := follows.ranking.passed_all opposed.heldOrdered order
    obtain ⟨merged, wins', found, takes⟩ := goesOn (.other passed .done) (List.cons_ne_nil _ _)
      (if wins ≤ otherWins + 1 then .stretches else .single 0 (otherWins + 1)) wins
    refine ⟨o :: merged, wins', ?_, takes⟩
    rw [if_pos Bool.not_false, found]
    rfl
  | true =>
    have first := follows.ranking.le_all opposed.otherOrdered order
    obtain ⟨merged, wins', found, takes⟩ := goesOn (.held first .done) (List.cons_ne_nil _ _)
      (if wins ≤ heldWins + 1 then .stretches else .single (heldWins + 1) 0) wins
    refine ⟨h :: merged, wins', ?_, takes⟩
    rw [if_neg (by decide), found]
    rfl

theorem mergeWithin_stretches (follows : Follows (fun o h => c.yields h o) le within) {steps : Nat}
    (wins : Nat) (opposed : Opposed le within held other) (unsettled : settled? held other = none)
    (goesOn : GoesOn c le steps held other) :
    ∃ merged wins', c.mergeWithin (steps + 1) .stretches wins held other = .ok (merged, wins') ∧
      Takes le held other merged [] [] := by
  obtain ⟨first, second, found, takes, moves⟩ := stretches_spec follows opposed
  unfold mergeWithin
  rw [unsettled]
  dsimp only
  rw [found, ok_bind]
  dsimp only
  cases settled : settled? second.held second.other with
  | some rest => exact ⟨_, wins, rfl, takes.trans (settled?_spec (opposed.after takes) settled)⟩
  | none =>
    have nonempty : first.taken ++ second.taken ≠ [] :=
      moves.resolve_left (by rw [settled]; exact Bool.false_ne_true)
    dsimp only
    split
    · obtain ⟨merged, wins', found, takes⟩ := goesOn takes nonempty .stretches (max (wins - 1) 1)
      refine ⟨_, wins', ?_, takes⟩
      rw [found]
      rfl
    · obtain ⟨merged, wins', found, takes⟩ := goesOn takes nonempty (.single 0 0) (wins + 1)
      refine ⟨_, wins', ?_, takes⟩
      rw [found]
      rfl

/-- So many steps are enough as there are items, for each step takes one at least. -/
theorem mergeWithin_spec (follows : Follows (fun o h => c.yields h o) le within) {steps : Nat}
    (mode : Mode) (wins : Nat) (opposed : Opposed le within held other)
    (enough : held.length + other.length ≤ steps) :
    ∃ merged wins', c.mergeWithin steps mode wins held other = .ok (merged, wins') ∧
      Takes le held other merged [] [] := by
  induction steps generalizing mode wins held other with
  | zero =>
    obtain ⟨rfl, rfl⟩ : held = [] ∧ other = [] := by
      simpa only [Nat.le_zero, Nat.add_eq_zero_iff, List.length_eq_zero_iff] using enough
    exact ⟨_, _, rfl, .done⟩
  | succ steps ih =>
    have goesOn : GoesOn c le steps held other := by
      intro taken held' other' takes some mode wins
      have lengths := takes.length_eq
      have positive := List.length_pos_of_ne_nil some
      obtain ⟨merged, wins', found, further⟩ := ih mode wins (opposed.after takes) (by omega)
      exact ⟨merged, wins', found, takes.trans further⟩
    cases settled : settled? held other with
    | some rest =>
      refine ⟨rest, wins, ?_, settled?_spec opposed settled⟩
      unfold mergeWithin
      rw [settled]
    | none =>
      cases mode with
      | single heldWins otherWins =>
        obtain ⟨h, hs, o, os, rfl, rfl⟩ := exists_cons_of_unsettled settled
        exact mergeWithin_single follows heldWins otherWins wins opposed settled goesOn
      | stretches => exact mergeWithin_stretches follows wins opposed settled goesOn

theorem merge_spec (follows : Follows (fun o h => c.yields h o) le within) (wins : Nat)
    (opposed : Opposed le within held other)
    (first : ∀ first ∈ other.head?, ∀ h ∈ held, le h first = false) :
    ∃ merged wins', c.merge wins held other = .ok (merged, wins') ∧ Takes le held other merged [] [] := by
  cases other with
  | nil => exact ⟨held, wins, rfl, .allHeld held⟩
  | cons next rest =>
    have passed : Takes le held (next :: rest) [next] held rest := .other (first next rfl) .done
    obtain ⟨merged, wins', found, takes⟩ :=
      mergeWithin_spec follows (.single 0 0) wins (opposed.after passed) (Nat.le_refl _)
    refine ⟨next :: merged, wins', ?_, passed.trans takes⟩
    rw [Contest.merge, found]
    rfl

end Contest

theorem Follows.flip (follows : Follows less le within) :
    Follows (fun a b => less b a) (fun a b => le b a) within where
  ranking := follows.ranking.flip
  answers := fun inside inside' => follows.answers inside' inside

/-- Two runs of which no item stays in place: the first one of the right run comes before all of the left
run, and the last one of the left run behind all of the right run. -/
structure Overlap (le : α → α → Bool) (within : α → Prop) (left right : List α) : Prop where
  leftOrdered : left.Pairwise fun a b => le a b = true
  rightOrdered : right.Pairwise fun a b => le a b = true
  first : ∀ first ∈ right.head?, ∀ item ∈ left, le item first = false
  last : ∀ last ∈ left.getLast?, ∀ item ∈ right, le last item = false
  leftWithin : ∀ item ∈ left, within item
  rightWithin : ∀ item ∈ right, within item

/-- Walking from the back is walking from the front with both runs turned round and the right one held. -/
theorem mergeOverlap_spec (follows : Follows less le within) (wins : Nat) {left right : List α}
    (overlap : Overlap le within left right) :
    ∃ merged wins', mergeOverlap less wins left right = .ok (merged, wins') ∧
      Arranges le (left ++ right) merged := by
  unfold mergeOverlap
  split
  · have opposed : Opposed le within left right := ⟨overlap.leftOrdered, overlap.rightOrdered,
      overlap.last, overlap.leftWithin, overlap.rightWithin⟩
    obtain ⟨merged, wins', found, takes⟩ :=
      Contest.merge_spec (c := ⟨.front, fun held other => less other held⟩) follows wins opposed
        overlap.first
    exact ⟨merged, wins', found,
      takes.arrangesAll follows.ranking overlap.leftOrdered overlap.rightOrdered⟩
  · have leftReversed := List.pairwise_reverse.mpr overlap.leftOrdered
    have rightReversed := List.pairwise_reverse.mpr overlap.rightOrdered
    have opposed : Opposed (fun a b => le b a) within right.reverse left.reverse := by
      refine ⟨rightReversed, leftReversed, ?_, ?_, ?_⟩
      · rw [List.getLast?_reverse]
        exact fun first member item inside => overlap.first first member item (List.mem_reverse.mp inside)
      · exact fun item member => overlap.rightWithin item (List.mem_reverse.mp member)
      · exact fun item member => overlap.leftWithin item (List.mem_reverse.mp member)
    obtain ⟨merged, wins', found, takes⟩ :=
      Contest.merge_spec (c := ⟨.back, fun held other => less held other⟩) follows.flip wins opposed (by
        rw [List.head?_reverse]
        exact fun last member item inside => overlap.last last member item (List.mem_reverse.mp inside))
    have arranges := takes.arrangesAll follows.ranking.flip rightReversed leftReversed
    rw [← List.reverse_append] at arranges
    refine ⟨merged.reverse, wins', ?_, arranges.reverse⟩
    rw [found]
    rfl

theorem le_last (ranking : Ranking le) (ordered : items.Pairwise fun a b => le a b = true) {last : α}
    (shape : items.getLast? = some last) : ∀ item ∈ items, le item last = true := by
  obtain ⟨init, rfl⟩ := List.getLast?_eq_some_iff.mp shape
  refine List.forall_mem_append.mpr ⟨fun item member => ?_, fun item member => ?_⟩
  · exact (List.pairwise_append.mp ordered).2.2 item member last (List.mem_singleton_self last)
  · rw [List.mem_singleton.mp member]
    exact ranking.refl last

/-- The items of a run that stay in front of an item, found from the front. -/
theorem leading_front (follows : Follows less le within) (inside : within item)
    (allWithin : ∀ item ∈ items, within item) (ordered : items.Pairwise fun a b => le a b = true) :
    ∃ before inner, items = before ++ inner ∧
      leading .front (fun other => (!·) <$> less item other) items = .ok before.length ∧
      (∀ other ∈ before, le other item = true) ∧ ∀ other ∈ inner, le other item = false := by
  have answers : ∀ other ∈ items, (!·) <$> less item other = .ok (le other item) := by
    intro other member
    rw [follows.answers inside (allWithin other member)]
    exact congrArg Except.ok (Bool.not_not _)
  obtain ⟨before, inner, rfl, divides, early, late⟩ :=
    divides_of_pairwise answers (ordered.imp follows.ranking.trans)
  exact ⟨before, inner, rfl, leading_append .front divides, early, late⟩

theorem leading_back (follows : Follows less le within) (inside : within item)
    (allWithin : ∀ item ∈ items, within item) (ordered : items.Pairwise fun a b => le a b = true) :
    ∃ inner behind, items = inner ++ behind ∧
      leading .back (fun other => (!·) <$> less other item) items.reverse = .ok behind.length ∧
      (∀ other ∈ inner, le item other = false) ∧ ∀ other ∈ behind, le item other = true := by
  have answers : ∀ other ∈ items.reverse, (!·) <$> less other item = .ok (le item other) := by
    intro other member
    rw [follows.answers (allWithin other (List.mem_reverse.mp member)) inside]
    exact congrArg Except.ok (Bool.not_not _)
  obtain ⟨behind, inner, shape, divides, late, early⟩ := divides_of_pairwise answers
    ((List.pairwise_reverse.mpr ordered).imp fun order passed => follows.ranking.trans passed order)
  refine ⟨inner.reverse, behind.reverse, ?_, ?_, fun other member => early other ?_,
    fun other member => late other ?_⟩
  · rw [← List.reverse_append, ← shape, List.reverse_reverse]
  · rw [shape, leading_append .back divides, List.length_reverse]
  · exact List.mem_reverse.mp member
  · exact List.mem_reverse.mp member

/-- Only what lies between the items that stay has to be merged. -/
theorem Arranges.between (ranking : Ranking le) {before inner middle behind : List α}
    (leftOrdered : (before ++ inner).Pairwise fun a b => le a b = true)
    (rightOrdered : (middle ++ behind).Pairwise fun a b => le a b = true)
    (early : ∀ a ∈ before, ∀ b ∈ middle ++ behind, le a b = true)
    (late : ∀ a ∈ before ++ inner, ∀ b ∈ behind, le a b = true)
    (arranges : Arranges le (inner ++ middle) merged) :
    Arranges le ((before ++ inner) ++ (middle ++ behind)) (before ++ merged ++ behind) := by
  obtain ⟨beforeOrdered, -, between⟩ := List.pairwise_append.mp leftOrdered
  obtain ⟨-, behindOrdered, between'⟩ := List.pairwise_append.mp rightOrdered
  have inside {item : α} (member : item ∈ merged) : item ∈ inner ∨ item ∈ middle :=
    List.mem_append.mp ((arranges.mem_iff ranking).mp member)
  have front : Arranges le (before ++ (inner ++ middle)) (before ++ merged) := by
    refine .append (.of_pairwise beforeOrdered) arranges fun a member b further => ?_
    rcases inside further with here | there
    · exact between a member b here
    · exact early a member b (List.mem_append_left _ there)
  have whole : Arranges le (before ++ (inner ++ middle) ++ behind) (before ++ merged ++ behind) := by
    refine .append front (.of_pairwise behindOrdered) fun a member b further => ?_
    rcases List.mem_append.mp member with first | second
    · exact late a (List.mem_append_left _ first) b further
    rcases inside second with here | there
    · exact late a (List.mem_append_right _ here) b further
    · exact between' a there b further
  simpa only [List.append_assoc] using whole

theorem Overlap.of_cut {before inner middle behind rest : List α} {first last : α}
    (leftOrdered : (before ++ inner).Pairwise fun a b => le a b = true)
    (rightOrdered : (middle ++ behind).Pairwise fun a b => le a b = true)
    (leftWithin : ∀ item ∈ before ++ inner, within item)
    (rightWithin : ∀ item ∈ middle ++ behind, within item) (parts : first :: rest = middle ++ behind)
    (shape : inner.getLast? = some last) (late : ∀ other ∈ inner, le other first = false)
    (pass : ∀ other ∈ middle, le last other = false) : Overlap le within inner middle where
  leftOrdered := (List.pairwise_append.mp leftOrdered).2.1
  rightOrdered := (List.pairwise_append.mp rightOrdered).1
  first := by
    intro head member
    have heads := congrArg List.head? parts
    rw [List.head?_append, Option.mem_def.mp member] at heads
    cases heads
    exact late
  last := by
    intro tail member
    cases shape.symm.trans member
    exact pass
  leftWithin := fun item member => leftWithin item (List.mem_append_right _ member)
  rightWithin := fun item member => rightWithin item (List.mem_append_left _ member)

theorem merge_spec (follows : Follows less le within) (wins : Nat) {left right : List α}
    (leftOrdered : left.Pairwise fun a b => le a b = true)
    (rightOrdered : right.Pairwise fun a b => le a b = true) (leftWithin : ∀ item ∈ left, within item)
    (rightWithin : ∀ item ∈ right, within item) :
    ∃ merged wins', merge less wins left right = .ok (merged, wins') ∧
      Arranges le (left ++ right) merged := by
  have ranking := follows.ranking
  -- If every item on the left comes before every one on the right the runs stay as they are.
  have apart (before : ∀ a ∈ left, ∀ b ∈ right, le a b = true) : Arranges le (left ++ right) (left ++ right) :=
    .append (.of_pairwise leftOrdered) (.of_pairwise rightOrdered) before
  cases right with
  | nil =>
    refine ⟨left, wins, rfl, ?_⟩
    rw [List.append_nil]
    exact .of_pairwise leftOrdered
  | cons first rest =>
    obtain ⟨before, inner, rfl, found, early, late⟩ :=
      leading_front follows (rightWithin first List.mem_cons_self) leftWithin leftOrdered
    have early : ∀ a ∈ before, ∀ b ∈ first :: rest, le a b = true := fun a member =>
      ranking.le_all rightOrdered (early a member)
    rw [merge]
    dsimp only
    rw [found, ok_bind, List.drop_left, List.take_left]
    cases shape : inner.getLast? with
    | none =>
      cases List.getLast?_eq_none_iff.mp shape
      refine ⟨_, wins, rfl, apart fun a member => early a ?_⟩
      rwa [List.append_nil] at member
    | some last =>
      have lastMember := List.mem_append_right before (List.mem_of_getLast? shape)
      have toLast : ∀ a ∈ before ++ inner, le a last = true := by
        refine le_last ranking leftOrdered ?_
        rw [List.getLast?_append, shape]
        rfl
      obtain ⟨middle, behind, parts, found, pass, stay⟩ :=
        leading_back follows (leftWithin last lastMember) rightWithin rightOrdered
      have late' : ∀ a ∈ before ++ inner, ∀ b ∈ behind, le a b = true := fun a member b further =>
        ranking.trans (toLast a member) (stay b further)
      dsimp only
      rw [found, ok_bind, parts, List.length_append, Nat.add_sub_cancel]
      rw [parts] at rightOrdered rightWithin early apart
      split
      · next nothing =>
        cases List.eq_nil_of_length_eq_zero nothing
        exact ⟨_, wins, rfl, apart late'⟩
      · have overlap : Overlap le within inner middle :=
          .of_cut leftOrdered rightOrdered leftWithin rightWithin parts shape late pass
        obtain ⟨merged, wins', found, arranges⟩ := mergeOverlap_spec follows wins overlap
        rw [List.take_left, List.drop_left, found]
        exact ⟨_, wins', rfl, arranges.between ranking leftOrdered rightOrdered early late'⟩

end JsonApi.Sorting
