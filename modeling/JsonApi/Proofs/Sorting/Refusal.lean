import JsonApi.Proofs.Sorting.Merge
import JsonApi.Sorting.Basic

/-!
Sorting by any comparison whatever. Main statement: a sort returns the items that it is given, or the refusal
of a comparison of two of them; and it returns nothing if the items fall into two parts between which every
comparison is refused.
-/

namespace JsonApi.Sorting

variable {α β ε : Type} {refused : ε → Prop} {within part known : α → Prop}

/-- A result with a property, or a refusal of a kind. -/
def Yields (refused : ε → Prop) (holds : α → Prop) : Except ε α → Prop
  | .ok a => holds a
  | .error refusal => refused refusal

namespace Yields

theorem bind {first : Except ε α} {next : α → Except ε β} {holds : α → Prop} {holds' : β → Prop}
    (yields : Yields refused holds first) (further : ∀ a, holds a → Yields refused holds' (next a)) :
    Yields refused holds' (first >>= next) := by
  cases first with
  | ok a => exact further a yields
  | error refusal => exact yields

theorem map {first : Except ε α} {f : α → β} {holds : α → Prop} {holds' : β → Prop}
    (yields : Yields refused holds first) (further : ∀ a, holds a → holds' (f a)) :
    Yields refused holds' (f <$> first) := by
  cases first with
  | ok a => exact further a yields
  | error refusal => exact yields

theorem imp {result : Except ε α} {holds holds' : α → Prop} (yields : Yields refused holds result)
    (further : ∀ a, holds a → holds' a) : Yields refused holds' result := by
  cases result with
  | ok a => exact further a yields
  | error refusal => exact yields

end Yields

section Searching

variable {holds : α → Except ε Bool} {items : List α}

/-- A search asks one item at least, if there is any. -/
theorem bisect_yields (side : Side)
    (asks : ∀ item ∈ items, Yields refused (fun _ => known item) (holds item)) :
    Yields refused (fun _ => items ≠ [] → ∃ item ∈ items, known item) (bisect side holds items) := by
  generalize size : items.length = total
  induction total using Nat.strongRecOn generalizing items with
  | ind total ih =>
    rw [bisect]
    split
    · next nothing =>
      intro nonempty
      have few := List.drop_eq_nil_iff.mp nothing
      have inside := middle_lt side (List.length_pos_of_ne_nil nonempty)
      omega
    · next item after shape =>
      have suffix : item :: after <:+ items := shape ▸ List.drop_suffix _ _
      have member : item ∈ items := suffix.subset List.mem_cons_self
      have fewer := suffix.length_le
      rw [List.length_cons] at fewer
      refine (asks item member).bind fun answer asked => ?_
      split
      · have more := ih after.length (by omega)
          (fun other inside => asks other (suffix.subset (List.mem_cons_of_mem _ inside))) rfl
        exact more.bind fun _ _ _ => ⟨item, member, asked⟩
      · have front := ih (items.take (side.middle items.length)).length (by
            have inside := middle_lt side (List.length_pos_of_ne_nil (List.ne_nil_of_mem member))
            rw [List.length_take]
            omega)
          (fun other inside => asks other (List.mem_of_mem_take inside)) rfl
        exact front.imp fun _ _ _ => ⟨item, member, asked⟩

theorem stride_yields (asks : ∀ item ∈ items, Yields refused (fun _ => known item) (holds item))
    (last next : Nat) : Yields refused (fun _ => True) (stride holds items last next) := by
  generalize distance : items.length - next = left
  induction left using Nat.strongRecOn generalizing last next with
  | ind left ih =>
    rw [stride]
    split
    · next inside =>
      refine (asks _ (List.getElem_mem inside)).bind fun answer _ => ?_
      split
      · exact ih _ (by omega) next (2 * next + 1) rfl
      · exact trivial
    · exact trivial

theorem leading_yields (side : Side)
    (asks : ∀ item ∈ items, Yields refused (fun _ => known item) (holds item)) :
    Yields refused (fun _ => items ≠ [] → ∃ item ∈ items, known item) (leading side holds items) := by
  cases items with
  | nil => exact fun nothing => absurd rfl nothing
  | cons first rest =>
    refine (asks first List.mem_cons_self).bind fun answer asked => ?_
    have found : first :: rest ≠ [] → ∃ item ∈ first :: rest, known item :=
      fun _ => ⟨first, List.mem_cons_self, asked⟩
    split
    · refine (stride_yields asks 0 1).bind fun bounds _ => ?_
      have inside : ∀ item ∈ ((first :: rest).take bounds.2).drop (bounds.1 + 1), item ∈ first :: rest :=
        fun item member => List.mem_of_mem_take (List.mem_of_mem_drop member)
      exact (bisect_yields side fun item member => asks item (inside item member)).bind fun _ _ => found
    · exact found

end Searching

structure Bunch (within part : α → Prop) (items : List α) : Prop where
  inside : ∀ item ∈ items, within item
  alike : ∀ item ∈ items, ∀ other ∈ items, part item → part other

namespace Bunch

variable {items others : List α} {item : α}

theorem of_subset (bunch : Bunch within part items) (subset : others ⊆ items) : Bunch within part others where
  inside := fun item member => bunch.inside item (subset member)
  alike := fun item member other member' => bunch.alike item (subset member) other (subset member')

theorem single (inside : within item) : Bunch within part [item] where
  inside := List.forall_mem_singleton.mpr inside
  alike := fun one member other member' => by
    rw [List.mem_singleton.mp member, List.mem_singleton.mp member']
    exact id

theorem append (bunch : Bunch within part items) (bunch' : Bunch within part others) {one other : α}
    (member : one ∈ items) (member' : other ∈ others) (same : part one ↔ part other) :
    Bunch within part (items ++ others) where
  inside := List.forall_mem_append.mpr ⟨bunch.inside, bunch'.inside⟩
  alike := by
    intro a first b second here
    rcases List.mem_append.mp first with left | right
    · have joined := same.mp (bunch.alike a left one member here)
      rcases List.mem_append.mp second with left' | right'
      · exact bunch.alike a left b left' here
      · exact bunch'.alike other member' b right' joined
    · have joined := same.mpr (bunch'.alike a right other member' here)
      rcases List.mem_append.mp second with left' | right'
      · exact bunch.alike one member b left' joined
      · exact bunch'.alike a right b right' here

end Bunch

/-- A comparison that refuses as it may, and that answers only within a part and outside of it. -/
structure Separates (less : α → α → Except ε Bool) (refused : ε → Prop) (part within : α → Prop) :
    Prop where
  asks : ∀ {a b}, within a → within b → Yields refused (fun _ => part a ↔ part b) (less a b)

section Runs

variable {less : α → α → Except ε Bool} {items rest run : List α} {first last item : α}

theorem ascending_yields (separates : Separates less refused part within) (inside : within last)
    (allInside : ∀ item ∈ items, within item) :
    Yields refused (fun parts => items = parts.1 ++ parts.2 ∧ Bunch within part (last :: parts.1))
      (ascending less last items) := by
  induction items generalizing last with
  | nil => exact ⟨rfl, .single inside⟩
  | cons next items ih =>
    obtain ⟨here, further⟩ := List.forall_mem_cons.mp allInside
    refine (separates.asks here inside).bind fun answer same => ?_
    split
    · exact ⟨rfl, .single inside⟩
    · refine (ih here further).bind fun parts found => ⟨congrArg (next :: ·) found.1, ?_⟩
      exact (Bunch.single inside).append found.2 List.mem_cons_self List.mem_cons_self same.symm

theorem descending_yields (separates : Separates less refused part within) (inside : within last)
    (allInside : ∀ item ∈ items, within item) :
    Yields refused (fun parts => items = parts.1 ++ parts.2 ∧ Bunch within part (last :: parts.1))
      (descending less last items) := by
  induction items generalizing last with
  | nil => exact ⟨rfl, .single inside⟩
  | cons next items ih =>
    obtain ⟨here, further⟩ := List.forall_mem_cons.mp allInside
    refine (separates.asks here inside).bind fun answer same => ?_
    split
    · refine (ih here further).bind fun parts found => ⟨congrArg (next :: ·) found.1, ?_⟩
      exact (Bunch.single inside).append found.2 List.mem_cons_self List.mem_cons_self same.symm
    · exact ⟨rfl, .single inside⟩

theorem leadingRun_yields (separates : Separates less refused part within) (inside : within first)
    (allInside : ∀ item ∈ items, within item) :
    Yields refused (fun parts => ∃ taken, first :: items = taken ++ parts.2 ∧ taken ≠ [] ∧
      parts.1.Perm taken ∧ Bunch within part taken) (leadingRun less first items) := by
  cases items with
  | nil => exact ⟨[first], rfl, List.cons_ne_nil _ _, .refl _, .single inside⟩
  | cons second items =>
    obtain ⟨here, further⟩ := List.forall_mem_cons.mp allInside
    refine (separates.asks here inside).bind fun answer same => ?_
    have joined {more : List α} (bunch : Bunch within part (second :: more)) :
        Bunch within part (first :: second :: more) :=
      (Bunch.single inside).append bunch List.mem_cons_self List.mem_cons_self same.symm
    split
    · refine (descending_yields separates here further).bind fun parts found => ?_
      exact ⟨first :: second :: parts.1, congrArg (first :: second :: ·) found.1, List.cons_ne_nil _ _,
        List.reverse_perm _, joined found.2⟩
    · refine (ascending_yields separates here further).bind fun parts found => ?_
      exact ⟨first :: second :: parts.1, congrArg (first :: second :: ·) found.1, List.cons_ne_nil _ _,
        .refl _, joined found.2⟩

theorem insert_yields (separates : Separates less refused part within) (inside : within item)
    (nonempty : run ≠ []) (bunch : Bunch within part run) :
    Yields refused (fun run' => run'.Perm (run ++ [item]) ∧ Bunch within part (run ++ [item]))
      (Sorting.insert less item run) := by
  have asks : ∀ other ∈ run, Yields refused (fun _ => part item ↔ part other) ((!·) <$> less item other) :=
    fun other member => (separates.asks inside (bunch.inside other member)).map fun _ => id
  refine (bisect_yields .front asks).bind fun place found => ?_
  obtain ⟨other, member, same⟩ := found nonempty
  refine ⟨?_, bunch.append (.single inside) member List.mem_cons_self same.symm⟩
  calc run.take place ++ item :: run.drop place
      _ |>.Perm (item :: (run.take place ++ run.drop place)) := List.perm_middle
      _ |>.Perm (run ++ [item]) := by
        rw [List.take_append_drop]
        exact (List.perm_append_singleton item run).symm

theorem insertAll_yields (separates : Separates less refused part within) {more : List α}
    (allInside : ∀ item ∈ more, within item) (nonempty : run ≠ []) (bunch : Bunch within part run) :
    Yields refused (fun run' => run'.Perm (run ++ more) ∧ Bunch within part run')
      (insertAll less run more) := by
  induction more generalizing run with
  | nil =>
    refine ⟨?_, bunch⟩
    rw [List.append_nil]
  | cons item more ih =>
    obtain ⟨here, further⟩ := List.forall_mem_cons.mp allInside
    refine (insert_yields separates here nonempty bunch).bind fun run' found => ?_
    have nonempty' : run' ≠ [] := by
      intro nothing
      rw [nothing] at found
      exact List.cons_ne_nil _ _ (List.append_eq_nil_iff.mp found.1.nil_eq.symm).2
    refine (ih further nonempty' (found.2.of_subset found.1.subset)).imp fun run'' done => ⟨?_, done.2⟩
    rw [List.append_cons]
    exact done.1.trans (found.1.append_right more)

theorem nextRun_yields (separates : Separates less refused part within) (least : Nat)
    (inside : within first) (allInside : ∀ item ∈ items, within item) :
    Yields refused (fun run => ∃ taken, first :: items = taken ++ items.drop (run.length - 1) ∧
      run.Perm taken ∧ Bunch within part run) (nextRun less least first items) := by
  refine (leadingRun_yields separates inside allInside).bind fun parts found => ?_
  obtain ⟨taken, shape, nonempty, perm, bunch⟩ := found
  let more := parts.2.take (least - parts.1.length)
  have whole : first :: items = (taken ++ more) ++ parts.2.drop (least - parts.1.length) := by
    rw [List.append_assoc, List.take_append_drop, shape]
  have moreInside : ∀ item ∈ more, within item := by
    intro item member
    refine List.forall_mem_cons.mpr ⟨inside, allInside⟩ item ?_
    rw [whole]
    exact List.mem_append_left _ (List.mem_append_right _ member)
  have nonempty' : parts.1 ≠ [] := fun nothing => nonempty (nothing ▸ perm).nil_eq.symm
  refine (insertAll_yields separates moreInside nonempty' (bunch.of_subset perm.subset)).imp
    fun run done => ⟨taken ++ more, ?_, done.1.trans (perm.append_right _), done.2⟩
  have size := (done.1.trans (perm.append_right _)).length_eq
  have positive : 0 < run.length := by
    rw [size, List.length_append]
    exact Nat.add_pos_left (List.length_pos_of_ne_nil nonempty) _
  have left : items.drop (run.length - 1) = (first :: items).drop run.length := by
    rw [← List.drop_succ_cons, Nat.sub_add_cancel positive]
  rw [left, whole, size, List.drop_left]

end Runs

section Merging

variable {items others held other : List α} {item : α}

theorem perm_taken (count : Nat) (item : α) (items others : List α) :
    (items.take count ++ [item] ++ (items.drop count ++ others)).Perm (items ++ item :: others) := by
  rw [List.append_assoc, List.singleton_append]
  refine List.perm_middle.trans ?_
  rw [← List.append_assoc, List.take_append_drop]
  exact List.perm_middle.symm

theorem settled?_perm {merged : List α} (settled : settled? held other = some merged) :
    merged.Perm (held ++ other) := by
  unfold settled? at settled
  split at settled
  · cases settled
    rw [List.append_nil]
  · cases settled
    exact .refl _
  · cases settled
    exact List.perm_append_comm
  · cases settled

def Stretch.Shares (held other : List α) (s : Stretch α) : Prop :=
  (s.taken ++ (s.held ++ s.other)).Perm (held ++ other)

theorem Stretch.Shares.subset {s : Stretch α} (shares : s.Shares held other) :
    s.held ++ s.other ⊆ held ++ other :=
  fun _ member => List.Perm.subset shares (List.mem_append_right _ member)

namespace Contest

variable {c : Contest α ε}

def Refuses (c : Contest α ε) (refused : ε → Prop) (within : α → Prop) : Prop :=
  ∀ h, within h → ∀ o, within o → Yields refused (fun _ => True) (c.yields h o)

theorem stretchHeld_yields (refuses : c.Refuses refused within)
    (inside : ∀ item ∈ held ++ other, within item) :
    Yields refused (Stretch.Shares held other) (c.stretchHeld held other) := by
  obtain ⟨heldInside, otherInside⟩ := List.forall_mem_append.mp inside
  cases other with
  | nil => exact .refl _
  | cons next rest =>
    have nextInside := otherInside next List.mem_cons_self
    have asks : ∀ item ∈ held, Yields refused (fun _ => True) ((!·) <$> c.yields item next) :=
      fun item member => (refuses item (heldInside item member) next nextInside).map fun _ => id
    refine (leading_yields c.side asks).bind fun count _ => ?_
    split
    · show (held.take count ++ (held.drop count ++ next :: rest)).Perm _
      rw [← List.append_assoc, List.take_append_drop]
    · exact perm_taken count next held rest

theorem stretchOther_yields (refuses : c.Refuses refused within)
    (inside : ∀ item ∈ held ++ other, within item) :
    Yields refused (Stretch.Shares held other) (c.stretchOther held other) := by
  obtain ⟨heldInside, otherInside⟩ := List.forall_mem_append.mp inside
  cases held with
  | nil => exact .refl _
  | cons next rest =>
    have nextInside := heldInside next List.mem_cons_self
    have asks : ∀ item ∈ other, Yields refused (fun _ => True) (c.yields next item) :=
      fun item member => refuses next nextInside item (otherInside item member)
    refine (leading_yields c.side asks).bind fun count _ => ?_
    split
    · show (other.take count ++ (next :: rest ++ other.drop count)).Perm _
      refine (List.perm_append_comm.append_left _).trans ?_
      rw [← List.append_assoc, List.take_append_drop]
      exact List.perm_append_comm
    · show (other.take count ++ [next] ++ (rest ++ other.drop count)).Perm _
      refine (List.perm_append_comm.append_left _).trans ?_
      exact (perm_taken count next other rest).trans List.perm_append_comm

theorem stretches_yields (refuses : c.Refuses refused within)
    (inside : ∀ item ∈ held ++ other, within item) :
    Yields refused (fun both => (both.1.taken ++ both.2.taken ++ (both.2.held ++ both.2.other)).Perm
      (held ++ other)) (c.stretches held other) := by
  have ending {more : List α → List α → Except ε (Stretch α)} {first : Stretch α}
      (shares : first.Shares held other)
      (yields : Yields refused (Stretch.Shares first.held first.other) (more first.held first.other)) :
      Yields refused (fun both => (both.1.taken ++ both.2.taken ++ (both.2.held ++ both.2.other)).Perm
        (held ++ other)) (Prod.mk first <$> stretches.ending more first) := by
    have ended : Yields refused (Stretch.Shares first.held first.other) (stretches.ending more first) := by
      unfold stretches.ending
      split
      · exact .refl _
      · exact yields
    refine ended.map fun second further => ?_
    rw [List.append_assoc]
    exact (further.append_left _).trans shares
  have left {s : Stretch α} (shares : s.Shares held other) : ∀ item ∈ s.held ++ s.other, within item :=
    fun item member => inside item (shares.subset member)
  unfold stretches
  split
  · refine (stretchHeld_yields refuses inside).bind fun first shares => ?_
    exact ending shares (stretchOther_yields refuses (left shares))
  · refine (stretchOther_yields refuses inside).bind fun first shares => ?_
    exact ending shares (stretchHeld_yields refuses (left shares))

theorem mergeWithin_yields (refuses : c.Refuses refused within) (steps : Nat) (mode : Mode) (wins : Nat)
    (inside : ∀ item ∈ held ++ other, within item) :
    Yields refused (fun merged => merged.1.Perm (held ++ other))
      (c.mergeWithin steps mode wins held other) := by
  induction steps generalizing mode wins held other with
  | zero => exact .refl _
  | succ steps ih =>
    cases settled : settled? held other with
    | some rest =>
      unfold mergeWithin
      rw [settled]
      exact settled?_perm settled
    | none =>
      cases mode with
      | single heldWins otherWins =>
        obtain ⟨h, hs, o, os, rfl, rfl⟩ := exists_cons_of_unsettled settled
        obtain ⟨heldInside, otherInside⟩ := List.forall_mem_append.mp inside
        obtain ⟨hInside, hsInside⟩ := List.forall_mem_cons.mp heldInside
        obtain ⟨oInside, osInside⟩ := List.forall_mem_cons.mp otherInside
        unfold mergeWithin
        rw [settled]
        refine (refuses h hInside o oInside).bind fun answer _ => ?_
        split
        · refine (ih _ _ (List.forall_mem_append.mpr ⟨heldInside, osInside⟩)).bind fun merged perm => ?_
          exact (perm.cons o).trans List.perm_middle.symm
        · refine (ih _ _ (List.forall_mem_append.mpr ⟨hsInside, otherInside⟩)).bind fun merged perm => ?_
          exact perm.cons h
      | stretches =>
        unfold mergeWithin
        rw [settled]
        refine (stretches_yields refuses inside).bind fun both shares => ?_
        have left : ∀ item ∈ both.2.held ++ both.2.other, within item := fun item member =>
          inside item (shares.subset (List.mem_append_right _ member))
        dsimp only
        split
        · next rest settled' => exact ((settled?_perm settled').append_left _).trans shares
        · have goesOn (mode : Mode) (wins : Nat) := (ih mode wins left).imp
            fun merged perm => (perm.append_left (both.1.taken ++ both.2.taken)).trans shares
          split
          · exact (goesOn _ _).bind fun merged whole => whole
          · exact (goesOn _ _).bind fun merged whole => whole

theorem merge_yields (refuses : c.Refuses refused within) (wins : Nat)
    (inside : ∀ item ∈ held ++ other, within item) :
    Yields refused (fun merged => merged.1.Perm (held ++ other)) (c.merge wins held other) := by
  cases other with
  | nil =>
    show held.Perm (held ++ [])
    rw [List.append_nil]
  | cons first rest =>
    obtain ⟨heldInside, otherInside⟩ := List.forall_mem_append.mp inside
    have restInside := (List.forall_mem_cons.mp otherInside).2
    refine (mergeWithin_yields refuses _ _ wins
      (List.forall_mem_append.mpr ⟨heldInside, restInside⟩)).bind fun merged perm => ?_
    exact (perm.cons first).trans List.perm_middle.symm

end Contest

variable {less : α → α → Except ε Bool} {left right : List α}

theorem mergeOverlap_yields (separates : Separates less refused part within) (wins : Nat)
    (inside : ∀ item ∈ left ++ right, within item) :
    Yields refused (fun merged => merged.1.Perm (left ++ right)) (mergeOverlap less wins left right) := by
  unfold mergeOverlap
  split
  · refine Contest.merge_yields (fun h heldInside o otherInside => ?_) wins inside
    exact (separates.asks otherInside heldInside).imp fun _ _ => trivial
  · have turned : ∀ item ∈ right.reverse ++ left.reverse, within item := by
      intro item member
      rw [← List.reverse_append] at member
      exact inside item (List.mem_reverse.mp member)
    refine (Contest.merge_yields (fun h heldInside o otherInside => ?_) wins turned).bind
      fun merged perm => ?_
    · exact (separates.asks heldInside otherInside).imp fun _ _ => trivial
    · rw [← List.reverse_append] at perm
      exact (List.reverse_perm _).trans (perm.trans (List.reverse_perm _))

/-- The first item of the right run is compared with an item of the left one. -/
theorem merge_yields (separates : Separates less refused part within) (wins : Nat)
    (bunch : Bunch within part left) (bunch' : Bunch within part right) :
    Yields refused (fun merged => merged.1.Perm (left ++ right) ∧ Bunch within part (left ++ right))
      (merge less wins left right) := by
  cases right with
  | nil =>
    rw [List.append_nil]
    exact ⟨.refl _, bunch⟩
  | cons first rest =>
    have firstInside := bunch'.inside first List.mem_cons_self
    have asks : ∀ item ∈ left, Yields refused (fun _ => part first ↔ part item) ((!·) <$> less first item) :=
      fun item member => (separates.asks firstInside (bunch.inside item member)).map fun _ => id
    rw [merge]
    refine (leading_yields .front asks).bind fun before found => ?_
    have joined : Bunch within part (left ++ first :: rest) := by
      cases left with
      | nil => exact bunch'
      | cons head tail =>
        obtain ⟨item, member, same⟩ := found (List.cons_ne_nil _ _)
        exact bunch.append bunch' member List.mem_cons_self same.symm
    split
    · exact ⟨.refl _, joined⟩
    · next last shape =>
      have lastMember : last ∈ left := List.mem_of_mem_drop (List.mem_of_getLast? shape)
      have asks' : ∀ item ∈ (first :: rest).reverse,
          Yields refused (fun _ => True) ((!·) <$> less item last) := by
        intro item member
        have itemInside := bunch'.inside item (List.mem_reverse.mp member)
        exact (separates.asks itemInside (bunch.inside last lastMember)).map fun _ _ => trivial
      refine (leading_yields .back asks').bind fun behind _ => ?_
      dsimp only
      split
      · exact ⟨.refl _, joined⟩
      · have inner : ∀ item ∈ left.drop before ++ (first :: rest).take ((first :: rest).length - behind),
            within item := List.forall_mem_append.mpr
          ⟨fun item member => bunch.inside item (List.mem_of_mem_drop member),
            fun item member => bunch'.inside item (List.mem_of_mem_take member)⟩
        refine (mergeOverlap_yields separates wins inner).bind fun merged perm => ⟨?_, joined⟩
        have whole := (perm.append_left (left.take before)).append_right
          ((first :: rest).drop ((first :: rest).length - behind))
        rwa [← List.append_assoc, List.take_append_drop, List.append_assoc left,
          List.take_append_drop] at whole

end Merging

section Pending

variable {less : α → α → Except ε Bool} {waiting : List (Waiting α)} {last items : List α}

/-- Runs that wait and the one behind them: each is a bunch, and together they are made of the items of a
list. -/
structure Gathers (within part : α → Prop) (items : List α) (waiting : List (Waiting α)) (last : List α) :
    Prop where
  perm : (waiting.flatMap Waiting.run ++ last).Perm items
  bunches : ∀ w ∈ waiting, Bunch within part w.run
  last : Bunch within part last

namespace Gathers

variable {w v : Waiting α} {merged run : List α}

theorem mergeLast (gathers : Gathers within part items (w :: waiting) last)
    (perm : merged.Perm (w.run ++ last)) (bunch : Bunch within part (w.run ++ last)) :
    Gathers within part items waiting merged where
  perm := by
    refine (perm.append_left _).trans (List.Perm.trans ?_ gathers.perm)
    rw [List.flatMap_cons, ← List.append_assoc]
    exact List.perm_append_comm.append_right _
  bunches := (List.forall_mem_cons.mp gathers.bunches).2
  last := bunch.of_subset perm.subset

theorem mergeWaiting (gathers : Gathers within part items (w :: v :: waiting) last)
    (perm : merged.Perm (v.run ++ w.run)) (bunch : Bunch within part (v.run ++ w.run)) :
    Gathers within part items (⟨v.halvings, merged⟩ :: waiting) last where
  perm := by
    refine List.Perm.trans ?_ gathers.perm
    simp only [List.flatMap_cons, ← List.append_assoc]
    exact ((perm.trans List.perm_append_comm).append_right _).append_right _
  bunches := by
    obtain ⟨-, further⟩ := List.forall_mem_cons.mp gathers.bunches
    exact List.forall_mem_cons.mpr
      ⟨bunch.of_subset perm.subset, (List.forall_mem_cons.mp further).2⟩
  last := gathers.last

theorem push {segment : List α} (gathers : Gathers within part items waiting last) (halvings : Nat)
    (perm : run.Perm segment) (bunch : Bunch within part run) :
    Gathers within part (items ++ segment) (⟨halvings, last⟩ :: waiting) run where
  perm := by
    refine List.Perm.trans ?_ (gathers.perm.append perm)
    rw [List.flatMap_cons]
    exact List.perm_append_comm.append_right _
  bunches := List.forall_mem_cons.mpr ⟨gathers.last, gathers.bunches⟩
  last := bunch

end Gathers

namespace Pending

theorem mergeDeeper_yields (separates : Separates less refused part within) (halvings wins : Nat)
    (gathers : Gathers within part items waiting last) :
    Yields refused (fun p => Gathers within part items p.waiting p.last)
      (mergeDeeper less halvings waiting last wins) := by
  induction waiting generalizing last wins with
  | nil => exact gathers
  | cons w waiting ih =>
    rw [mergeDeeper]
    split
    · have bunch := gathers.bunches w List.mem_cons_self
      refine (merge_yields separates wins bunch gathers.last).bind fun merged found => ?_
      exact ih _ (gathers.mergeLast found.1 found.2)
    · exact gathers

theorem push_yields (separates : Separates less refused part within) (total : Nat) {p : Pending α}
    {run segment : List α} (gathers : Gathers within part items p.waiting p.last)
    (perm : run.Perm segment) (bunch : Bunch within part run) :
    Yields refused (fun p' => Gathers within part (items ++ segment) p'.waiting p'.last)
      (p.push less total run) :=
  (mergeDeeper_yields separates _ p.wins gathers).bind fun _ found => found.push _ perm bunch

theorem mergeAll_yields (separates : Separates less refused part within) (wins : Nat)
    (gathers : Gathers within part items waiting last) :
    Yields refused (fun result => result.Perm items ∧ Bunch within part items)
      (mergeAll less waiting last wins) := by
  have done {last : List α} (gathers : Gathers within part items [] last) :
      last.Perm items ∧ Bunch within part items :=
    ⟨gathers.perm, gathers.last.of_subset gathers.perm.symm.subset⟩
  generalize size : waiting.length = count
  induction count generalizing waiting last wins with
  | zero =>
    cases List.eq_nil_of_length_eq_zero size
    rw [mergeAll]
    exact done gathers
  | succ count ih =>
    rcases waiting with _ | ⟨w, _ | ⟨v, waiting⟩⟩
    · cases size
    · rw [mergeAll]
      have bunch := gathers.bunches w List.mem_cons_self
      refine (merge_yields separates wins bunch gathers.last).map fun merged found => ?_
      exact done (gathers.mergeLast found.1 found.2)
    · have bunch := gathers.bunches w List.mem_cons_self
      have bunch' := gathers.bunches v (List.mem_cons_of_mem _ List.mem_cons_self)
      have fewer : waiting.length + 1 = count := Nat.succ.inj size
      rw [mergeAll]
      split
      · refine (merge_yields separates wins bunch' bunch).bind fun merged found => ?_
        exact ih _ (gathers.mergeWaiting found.1 found.2) fewer
      · refine (merge_yields separates wins bunch gathers.last).bind fun merged found => ?_
        exact ih _ (gathers.mergeLast found.1 found.2) fewer

end Pending

theorem sortRest_yields (separates : Separates less refused part within) (total : Nat) {p : Pending α}
    {rest : List α} (gathers : Gathers within part items p.waiting p.last)
    (inside : ∀ item ∈ rest, within item) :
    Yields refused (fun result => result.Perm (items ++ rest) ∧ Bunch within part (items ++ rest))
      (sortRest less total p rest) := by
  generalize size : rest.length = count
  induction count using Nat.strongRecOn generalizing p items rest with
  | ind count ih =>
    cases rest with
    | nil =>
      rw [sortRest, List.append_nil]
      exact Pending.mergeAll_yields separates p.wins gathers
    | cons first rest =>
      obtain ⟨here, further⟩ := List.forall_mem_cons.mp inside
      rw [sortRest]
      refine (nextRun_yields separates (leastRun total false) here further).bind fun run found => ?_
      obtain ⟨taken, shape, perm, bunch⟩ := found
      refine (Pending.push_yields separates total gathers perm bunch).bind fun p' gathers' => ?_
      rw [shape, ← List.append_assoc]
      refine ih _ ?_ gathers' (fun item member => further item (List.mem_of_mem_drop member)) rfl
      rw [List.length_drop, ← size, List.length_cons]
      omega

end Pending

/-- A sort returns what it is given, all of it in one part, or a refusal of a comparison. -/
theorem sort_yields {less : α → α → Except ε Bool} {items : List α}
    (separates : Separates less refused part within) (inside : ∀ item ∈ items, within item) :
    Yields refused (fun result => result.Perm items ∧ Bunch within part items) (sort less items) := by
  cases items with
  | nil => exact ⟨.refl _, List.forall_mem_nil _, fun _ member => nomatch member⟩
  | cons first rest =>
    obtain ⟨here, further⟩ := List.forall_mem_cons.mp inside
    refine (nextRun_yields separates _ here further).bind fun run found => ?_
    obtain ⟨taken, shape, perm, bunch⟩ := found
    rw [shape]
    exact sortRest_yields separates _ ⟨perm, List.forall_mem_nil _, bunch⟩
      fun item member => further item (List.mem_of_mem_drop member)

section Results

variable {less : α → α → Except ε Bool} {items : List α}

theorem separates_items
    (answers : ∀ a ∈ items, ∀ b ∈ items, ∀ answer, less a b = .ok answer → (part a ↔ part b)) :
    Separates less (fun refusal => ∃ a ∈ items, ∃ b ∈ items, less a b = .error refusal) part
      (· ∈ items) where
  asks := by
    intro a b member member'
    cases compared : less a b with
    | ok answer => exact answers a member b member' answer compared
    | error refusal => exact ⟨a, member, b, member', compared⟩

/-- Whatever a comparison answers, nothing is lost and nothing is added, and if it refuses, it does so for two
of the items. -/
theorem sort_returns (less : α → α → Except ε Bool) (items : List α) :
    Yields (fun refusal => ∃ a ∈ items, ∃ b ∈ items, less a b = .error refusal) (·.Perm items)
      (sort less items) := by
  have separates : Separates less (fun refusal => ∃ a ∈ items, ∃ b ∈ items, less a b = .error refusal)
      (fun _ => True) (· ∈ items) := separates_items fun _ _ _ _ _ _ => Iff.rfl
  exact (sort_yields separates fun _ => id).imp fun _ => And.left

theorem perm_of_sort {result : List α} (sorted : sort less items = .ok result) : result.Perm items := by
  have returns := sort_returns less items
  rwa [sorted] at returns

theorem exists_refused {refusal : ε} (refuses : sort less items = .error refusal) :
    ∃ a ∈ items, ∃ b ∈ items, less a b = .error refusal := by
  have returns := sort_returns less items
  rwa [refuses] at returns

/-- No sort gets along without a comparison between two parts of the items. -/
theorem exists_error_of_apart {a b : α}
    (answers : ∀ a ∈ items, ∀ b ∈ items, ∀ answer, less a b = .ok answer → (part a ↔ part b))
    (member : a ∈ items) (here : part a) (member' : b ∈ items) (there : ¬part b) :
    ∃ refusal, sort less items = .error refusal := by
  have yields := sort_yields (separates_items answers) fun _ => id
  cases sorted : sort less items with
  | ok result =>
    rw [sorted] at yields
    exact absurd (yields.2.alike a member b member' here) there
  | error refusal => exact ⟨refusal, rfl⟩

end Results

end JsonApi.Sorting
