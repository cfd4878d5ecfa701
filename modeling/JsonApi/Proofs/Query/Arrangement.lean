import JsonApi.Proofs.Query.Precedence
import JsonApi.Proofs.Sorting.Refusal
import JsonApi.Proofs.Value.Comparison
import JsonApi.Proofs.Value.Results
import JsonApi.Query.Arrangement

/-!
Collections in the order that a request asks for. Main statement: a collection keeps its items whatever their
values are, a field without a common order of its values changes nothing, and where every field has one the
collection is the stable arrangement by all fields, the first one counting most.
-/

namespace JsonApi

namespace Query

open Sorting

variable {α : Type} {items : List α}

section Keys

variable {le : Value → Value → Bool} {within : Value → Prop} {v w : Value} {descending : Bool}

theorem same_null : Value.null.same .null = .ok true := by
  simp only [Value.same, Value.samePlain]

theorem eq_null_of_isNull (null : v.isNull = true) : v = .null := by
  cases v with
  | null => rfl
  | _ => cases null

/-- Null and other values are told apart by their marks. -/
theorem OrderKey.less_ofValue (descending : Bool) (v w : Value) :
    OrderKey.less (.ofValue descending v) (.ofValue descending w) =
      if v.isNull = w.isNull then v.same w >>= fun same => if same then .ok false else v.less w
      else .ok (w.isNull != descending) := by
  unfold OrderKey.less OrderKey.ofValue
  cases v.isNull <;> cases w.isNull <;> cases descending <;> rfl

/-- Keys compare by the order of their values, with null behind all others when a list that is sorted
downwards has been turned round. -/
theorem OrderKey.less_of_comparable (comparable : Value.Comparable le within) (descending : Bool)
    (inside : v.isNull = false → within v) (inside' : w.isNull = false → within w) :
    OrderKey.less (.ofValue descending v) (.ofValue descending w) =
      .ok (!if descending then precedes le true v w else precedes le false w v) := by
  rw [OrderKey.less_ofValue]
  cases null : v.isNull with
  | true =>
    cases null' : w.isNull with
    | true =>
      rw [eq_null_of_isNull null, eq_null_of_isNull null', if_pos rfl, same_null]
      cases descending <;> rfl
    | false => cases descending <;> simp [precedes, null, null']
  | false =>
    cases null' : w.isNull with
    | true => cases descending <;> simp [precedes, null, null']
    | false =>
      rw [if_pos rfl, comparable.same (inside null) (inside' null'), ok_bind]
      cases shared : tied le v w with
      | true =>
        have back := (tied_iff.mp shared).2
        cases descending <;> simp [precedes, null, null', back]
      | false =>
        rw [if_neg Bool.false_ne_true, comparable.less (inside null) (inside' null') shared]
        cases descending <;> simp [precedes, null, null']

/-- A comparison of keys is refused only if one of two values that are not null is. -/
theorem OrderKey.less_refused {refusal : OrderFault}
    (refuses : OrderKey.less (.ofValue descending v) (.ofValue descending w) = .error refusal) :
    v.isNull = false ∧ w.isNull = false ∧ (v.same w = .error refusal ∨ v.less w = .error refusal) := by
  rw [OrderKey.less_ofValue] at refuses
  split at refuses
  · next alike =>
    have asked : v.same w = .error refusal ∨ v.less w = .error refusal := by
      cases same : v.same w with
      | error fault =>
        rw [same] at refuses
        exact Or.inl refuses
      | ok same =>
        rw [same, ok_bind] at refuses
        split at refuses
        · cases refuses
        · exact Or.inr refuses
    cases null : v.isNull with
    | false => exact ⟨rfl, alike.symm.trans null, asked⟩
    | true =>
      rw [eq_null_of_isNull null, eq_null_of_isNull (alike.symm.trans null), same_null] at refuses
      cases refuses
  · cases refuses

end Keys

section Passes

variable {value : α → Value} {valueLe : Value → Value → Bool} {within : Value → Prop} {descending : Bool}

def keyLess (value : α → Value) (descending : Bool) (a b : α) : Except OrderFault Bool :=
  OrderKey.less (.ofValue descending (value a)) (.ofValue descending (value b))

def turned (descending : Bool) (items : List α) : List α := if descending then items.reverse else items

theorem perm_turned (descending : Bool) (items : List α) : (turned descending items).Perm items := by
  cases descending with
  | true => exact List.reverse_perm items
  | false => exact .refl items

theorem orderBy_eq (value : α → Value) (descending : Bool) (items : List α) :
    orderBy value descending items =
      (Sorting.sort (keyLess value descending) (turned descending items)).map (turned descending) := by
  cases descending with
  | true => rfl
  | false =>
    show Sorting.sort (keyLess value false) items = (Sorting.sort (keyLess value false) items).map id
    cases Sorting.sort (keyLess value false) items <;> rfl

/-- Where the values of a field have a common order, the items are arranged by it, upwards or downwards. -/
theorem orderBy_arranges (comparable : Value.Comparable valueLe within) (descending : Bool)
    (inside : ∀ item ∈ items, (value item).isNull = false → within (value item)) :
    ∃ sorted, orderBy value descending items = .ok sorted ∧
      Arranges (fun a b => precedes valueLe descending (value a) (value b)) items sorted := by
  have ranking := (ranking_precedes comparable.ranking descending).comap value
  have answers {a b : α} (member : a ∈ items) (member' : b ∈ items) :=
    OrderKey.less_of_comparable comparable descending (inside a member) (inside b member')
  rw [orderBy_eq]
  cases descending with
  | false =>
    have follows : Follows (keyLess value false)
        (fun a b => precedes valueLe false (value a) (value b)) (· ∈ items) := ⟨ranking, answers⟩
    refine ⟨_, ?_, arranges_mergeSort ranking items⟩
    rw [turned, if_neg Bool.false_ne_true, sort_eq_mergeSort follows fun _ => id]
    rfl
  | true =>
    have follows : Follows (keyLess value true)
        (fun a b => precedes valueLe true (value b) (value a)) (· ∈ items) := ⟨ranking.flip, answers⟩
    refine ⟨_, ?_, (arranges_mergeSort ranking.flip items.reverse).reverse⟩
    rw [turned, if_pos rfl, sort_eq_mergeSort follows fun _ => List.mem_reverse.mp]
    rfl

theorem perm_of_orderBy {sorted : List α} (ordered : orderBy value descending items = .ok sorted) :
    sorted.Perm items := by
  rw [orderBy_eq] at ordered
  cases found : Sorting.sort (keyLess value descending) (turned descending items) with
  | error refusal =>
    rw [found] at ordered
    cases ordered
  | ok result =>
    rw [found] at ordered
    cases ordered
    exact (perm_turned _ _).trans ((perm_of_sort found).trans (perm_turned _ _))

/-- A pass is refused only where one of the values of two items is. -/
theorem exists_refused_of_orderBy {refusal : OrderFault}
    (refuses : orderBy value descending items = .error refusal) :
    ∃ a ∈ items, ∃ b ∈ items, (value a).isNull = false ∧ (value b).isNull = false ∧
      ((value a).same (value b) = .error refusal ∨ (value a).less (value b) = .error refusal) := by
  have fails : Sorting.sort (keyLess value descending) (turned descending items) = .error refusal := by
    rw [orderBy_eq] at refuses
    cases found : Sorting.sort (keyLess value descending) (turned descending items) with
    | error fault =>
      rw [found] at refuses
      cases refuses
      rfl
    | ok result =>
      rw [found] at refuses
      cases refuses
  obtain ⟨a, member, b, member', compared⟩ := exists_refused fails
  exact ⟨a, (perm_turned _ _).mem_iff.mp member, b, (perm_turned _ _).mem_iff.mp member',
    OrderKey.less_refused compared⟩

/-- A pass is refused where the items fall into two parts between which every comparison of keys is. -/
theorem exists_error_of_parts {part : α → Prop} {a b : α}
    (answers : ∀ a ∈ items, ∀ b ∈ items, ∀ answer,
      keyLess value descending a b = .ok answer → (part a ↔ part b))
    (member : a ∈ items) (here : part a) (member' : b ∈ items) (there : ¬part b) :
    ∃ refusal, orderBy value descending items = .error refusal := by
  have same {item : α} : item ∈ turned descending items ↔ item ∈ items := (perm_turned _ _).mem_iff
  obtain ⟨refusal, fails⟩ := exists_error_of_apart
    (fun a member b member' => answers a (same.mp member) b (same.mp member'))
    (same.mpr member) here (same.mpr member') there
  exact ⟨refusal, by rw [orderBy_eq, fails]; rfl⟩

end Passes

section Fields

variable {member : α → String → Option Value} {field : SortField} {fields fewer : List SortField}

def Decided (member : α → String → Option Value) (items : List α) (field : String) : Prop :=
  ∀ a ∈ items, ∀ b ∈ items, ∀ v ∈ member a field, ∀ w ∈ member b field,
    v.same w ≠ .error .undefined ∧ v.less w ≠ .error .undefined

theorem Decided.of_perm {sorted : List α} (decided : Decided member items field.field)
    (perm : sorted.Perm items) : Decided member sorted field.field :=
  fun a here b there => decided a (perm.mem_iff.mp here) b (perm.mem_iff.mp there)

theorem mem_of_valueOf {name : String} {item : α} (present : (valueOf member name item).isNull = false) :
    valueOf member name item ∈ member item name := by
  unfold valueOf at present ⊢
  cases given : member item name with
  | none =>
    rw [given] at present
    cases present
  | some v => rfl

theorem arrangeBy_of_absent (nowhere : ∀ item ∈ items, member item field.field = none) :
    (arrangeBy member items field).result = .ok items := by
  have all : (items.all fun item => (member item field.field).isNone) = true :=
    List.all_eq_true.mpr fun item inside => Option.isNone_iff_eq_none.mpr (nowhere item inside)
  rw [arrangeBy, if_pos all]
  rfl

/-- What a pass does: nothing if no item has the field or a comparison is refused, else it sorts. -/
theorem arrangeBy_cases (decided : Decided member items field.field) :
    ((∀ item ∈ items, member item field.field = none) ∧ (arrangeBy member items field).result = .ok items) ∨
      (∃ sorted, orderBy (valueOf member field.field) field.descending items = .ok sorted ∧
        (arrangeBy member items field).result = .ok sorted) ∨
      ∃ refusal, orderBy (valueOf member field.field) field.descending items = .error refusal ∧
        (arrangeBy member items field).result = .ok items := by
  by_cases all : (items.all fun item => (member item field.field).isNone) = true
  · have nowhere : ∀ item ∈ items, member item field.field = none := fun item inside =>
      Option.isNone_iff_eq_none.mp (List.all_eq_true.mp all item inside)
    exact Or.inl ⟨nowhere, arrangeBy_of_absent nowhere⟩
  · refine Or.inr ?_
    have keys : orderBy (fun item => (member item field.field).getD .null) field.descending items =
        orderBy (valueOf member field.field) field.descending items := rfl
    cases ordered : orderBy (valueOf member field.field) field.descending items with
    | ok sorted =>
      refine Or.inl ⟨sorted, rfl, ?_⟩
      rw [arrangeBy, if_neg all, keys, ordered]
      rfl
    | error refusal =>
      refine Or.inr ⟨refusal, rfl, ?_⟩
      have other : refusal ≠ .undefined := by
        rintro rfl
        obtain ⟨a, here, b, there, present, present', refuses⟩ := exists_refused_of_orderBy ordered
        obtain ⟨same, less⟩ := decided a here b there _ (mem_of_valueOf present) _ (mem_of_valueOf present')
        exact refuses.elim same less
      rw [arrangeBy, if_neg all, keys, ordered]
      cases refusal with
      | undefined => exact absurd rfl other
      | _ => rfl

theorem exists_arranged (decided : Decided member items field.field) :
    ∃ sorted, (arrangeBy member items field).result = .ok sorted ∧ sorted.Perm items := by
  rcases arrangeBy_cases decided with ⟨-, same⟩ | ⟨sorted, ordered, same⟩ | ⟨refusal, -, same⟩
  · exact ⟨items, same, .refl _⟩
  · exact ⟨sorted, same, perm_of_orderBy ordered⟩
  · exact ⟨items, same, .refl _⟩

theorem arrangeAll_append {sorted : List α} (more : List SortField)
    (before : (arrangeAll member items fewer).result = .ok sorted) :
    (arrangeAll member items (more ++ fewer)).result = (arrangeAll member sorted more).result := by
  induction more with
  | nil => exact before
  | cons field more ih =>
    rw [List.cons_append, arrangeAll, arrangeAll, Outcome.result_bind, Outcome.result_bind, ih]

theorem exists_arrangedAll (decided : ∀ field ∈ fields, Decided member items field.field) :
    ∃ sorted, (arrangeAll member items fields).result = .ok sorted ∧ sorted.Perm items := by
  induction fields with
  | nil => exact ⟨items, rfl, .refl _⟩
  | cons field fields ih =>
    obtain ⟨here, further⟩ := List.forall_mem_cons.mp decided
    obtain ⟨middle, before, perm⟩ := ih further
    obtain ⟨sorted, arranged, perm'⟩ := exists_arranged (here.of_perm perm)
    refine ⟨sorted, ?_, perm'.trans perm⟩
    rw [arrangeAll, Outcome.result_bind, before]
    exact arranged

/-- A field that the order of a collection does not depend on, after those behind it in the sort order: no
item has it, the comparisons of the pass are refused, or it divides the items into two parts between which all
comparisons are. -/
inductive Idle (member : α → String → Option Value) (items : List α) (field : SortField)
    (fewer : List SortField) : Prop where
  | absent (nowhere : ∀ item ∈ items, member item field.field = none)
  | refused {sorted : List α} {refusal : OrderFault}
    (before : (arrangeAll member items fewer).result = .ok sorted)
    (refuses : orderBy (valueOf member field.field) field.descending sorted = .error refusal)
  | parted {part : α → Prop} {a b : α} (here : a ∈ items) (inside : part a) (there : b ∈ items)
    (outside : ¬part b)
    (refuses : ∀ a ∈ items, ∀ b ∈ items, part a → ¬part b → ∀ answer,
      keyLess (valueOf member field.field) field.descending a b ≠ .ok answer ∧
        keyLess (valueOf member field.field) field.descending b a ≠ .ok answer)

/-- An idle field leaves the order that the fields behind it have made. -/
theorem Idle.arrangeBy {sorted : List α} (idle : Idle member items field fewer)
    (decided : Decided member sorted field.field) (perm : sorted.Perm items)
    (before : (arrangeAll member items fewer).result = .ok sorted) :
    (arrangeBy member sorted field).result = .ok sorted := by
  have unchanged {refusal : OrderFault}
      (refuses : orderBy (valueOf member field.field) field.descending sorted = .error refusal) :
      (Query.arrangeBy member sorted field).result = .ok sorted := by
    rcases arrangeBy_cases decided with ⟨-, same⟩ | ⟨_, ordered, -⟩ | ⟨_, -, same⟩
    · exact same
    · rw [refuses] at ordered
      cases ordered
    · exact same
  cases idle with
  | absent nowhere => exact arrangeBy_of_absent fun item inside => nowhere item (perm.mem_iff.mp inside)
  | refused before' refuses =>
    rw [before'] at before
    cases before
    exact unchanged refuses
  | @parted part a b here inside there outside refuses =>
    have answers : ∀ a ∈ sorted, ∀ b ∈ sorted, ∀ answer,
        keyLess (valueOf member field.field) field.descending a b = .ok answer → (part a ↔ part b) := by
      intro a first b second answer compared
      have first := perm.mem_iff.mp first
      have second := perm.mem_iff.mp second
      constructor
      · intro here
        by_contra there
        exact (refuses a first b second here there answer).1 compared
      · intro there
        by_contra here
        exact (refuses b second a first there here answer).2 compared
    obtain ⟨refusal, fails⟩ := exists_error_of_parts answers (perm.mem_iff.mpr here) inside
      (perm.mem_iff.mpr there) outside
    exact unchanged fails

def Occurs (member : α → String → Option Value) (items : List α) (field : String) (v : Value) : Prop :=
  v.isNull = false ∧ ∃ item ∈ items, v ∈ member item field

theorem arrangeBy_arranges {order : String → Value → Value → Bool}
    (decided : Decided member items field.field)
    (comparable : Value.Comparable (order field.field) (Occurs member items field.field)) :
    ∃ sorted, (arrangeBy member items field).result = .ok sorted ∧
      Arranges (fieldOrder member order field) items sorted := by
  have inside (item : α) (here : item ∈ items) (present : (valueOf member field.field item).isNull = false) :
      Occurs member items field.field (valueOf member field.field item) :=
    ⟨present, item, here, mem_of_valueOf present⟩
  obtain ⟨sorted, ordered, arranges⟩ := orderBy_arranges comparable field.descending inside
  rcases arrangeBy_cases decided with ⟨nowhere, same⟩ | ⟨sorted', ordered', same⟩ | ⟨refusal, refuses, -⟩
  · refine ⟨items, same, .of_pairwise (List.pairwise_of_forall_mem_list fun a _ b there => ?_)⟩
    rw [fieldOrder, precedes_iff, valueOf, valueOf, nowhere b there]
    exact Or.inl rfl
  · rw [ordered] at ordered'
    cases ordered'
    exact ⟨sorted, same, arranges⟩
  · rw [ordered] at refuses
    cases refuses

theorem arrangeAll_arranges {order : String → Value → Value → Bool}
    (decided : ∀ field ∈ fields, Decided member items field.field)
    (comparable : ∀ field ∈ fields,
      Value.Comparable (order field.field) (Occurs member items field.field)) :
    ∃ sorted, (arrangeAll member items fields).result = .ok sorted ∧
      Arranges (sortOrder member order fields) items sorted := by
  induction fields with
  | nil => exact ⟨items, rfl, .of_pairwise (List.pairwise_of_forall fun _ _ => rfl)⟩
  | cons field fields ih =>
    obtain ⟨decidedHere, decidedFurther⟩ := List.forall_mem_cons.mp decided
    obtain ⟨here, further⟩ := List.forall_mem_cons.mp comparable
    obtain ⟨middle, before, arranges⟩ := ih decidedFurther further
    have ranking : Ranking (sortOrder member order fields) :=
      ranking_inTurn (List.forall_mem_map.mpr fun other inside =>
        ranking_fieldOrder member (further other inside).ranking)
    have perm := arranges.perm ranking
    have here' : Value.Comparable (order field.field) (Occurs member middle field.field) :=
      here.mono fun v occurs => ⟨occurs.1, occurs.2.imp fun _ => And.imp_left perm.mem_iff.mp⟩
    obtain ⟨sorted, arranged, arranges'⟩ := arrangeBy_arranges (decidedHere.of_perm perm) here'
    refine ⟨sorted, ?_, arranges_inTurn arranges arranges' (ranking_fieldOrder member here.ranking)⟩
    rw [arrangeAll, Outcome.result_bind, before]
    exact arranged

/-- A collection is put in order without fail and without loss. A field that is idle makes no difference; where
the values of every field have a common order, the items stand in the order of all fields, and those that share
a place stand as they did before. -/
theorem arrange_arranges (q : Query) (member : α → String → Option Value) (items : List α)
    (decided : ∀ field ∈ q.sort.getD [], Decided member items field.field) :
    ∃ result, (arrange q member items).result = .ok result ∧ result.Perm items ∧
      (∀ more field fewer, q.sort.getD [] = more ++ field :: fewer → Idle member items field fewer →
        (arrangeAll member items (field :: fewer)).result = (arrangeAll member items fewer).result ∧
          (arrange { q with sort := some (more ++ fewer) } member items).result = .ok result) ∧
      ∀ order : String → Value → Value → Bool,
        (∀ field ∈ q.sort.getD [],
          Value.Comparable (order field.field) (Occurs member items field.field)) →
        Arranges (sortOrder member order (q.sort.getD [])) items result := by
  obtain ⟨result, arranged, perm⟩ := exists_arrangedAll decided
  refine ⟨result, arranged, perm, fun more field fewer shape idle => ?_, fun order comparable => ?_⟩
  · rw [shape] at decided arranged
    obtain ⟨decidedHere, decidedFewer⟩ := List.forall_mem_cons.mp (List.forall_mem_append.mp decided).2
    obtain ⟨sorted, before, perm'⟩ := exists_arrangedAll decidedFewer
    have same := idle.arrangeBy (decidedHere.of_perm perm') perm' before
    have pass : (arrangeAll member items (field :: fewer)).result = .ok sorted := by
      rw [arrangeAll, Outcome.result_bind, before]
      exact same
    refine ⟨pass.trans before.symm, ?_⟩
    rw [arrangeAll_append more pass] at arranged
    exact (arrangeAll_append more before).trans arranged
  · obtain ⟨sorted, arranged', arranges⟩ := arrangeAll_arranges decided comparable
    cases arranged.symm.trans arranged'
    exact arranges

end Fields

def shelf : List Members :=
  [[("title", .text "Emma"), ("copies", .int 2), ("place", .int 1)],
    [("title", .text "Dune"), ("copies", .null), ("place", .text "attic")],
    [("title", .text "Beloved"), ("copies", .bool true), ("place", .int 1)],
    [("title", .text "Atlas"), ("place", .text "attic")],
    [("title", .text "Adam Bede"), ("copies", .int 2), ("place", .int 2)]]

def copies : SortField := ⟨"copies", true⟩

def place : SortField := ⟨"place", false⟩

def title : SortField := ⟨"title", false⟩

def sortedBy (fields : List SortField) : Query := { empty with sort := some fields }

def bookOrder (name : String) : Value → Value → Bool :=
  if name = "copies" then Value.rankLe Value.numberRank else Value.rankLe Value.keyText

theorem decided_shelf : ∀ name ∈ ["copies", "place", "title"], Decided Entries.get? shelf name := by
  unfold Decided
  decide +kernel

theorem comparable_bookOrder : ∀ field ∈ [copies, title],
    Value.Comparable (bookOrder field.field) (Occurs Entries.get? shelf field.field) := by
  intro field inside
  rcases List.mem_pair.mp inside with rfl | rfl
  · refine Value.comparable_numbers.mono ?_
    rintro v ⟨present, book, here, given⟩
    simp only [shelf, List.mem_cons, List.not_mem_nil, or_false] at here
    rcases here with rfl | rfl | rfl | rfl | rfl <;> cases given
    · exact ⟨false, 2, 0, rfl⟩
    · cases present
    · exact ⟨false, 1, 0, rfl⟩
    · exact ⟨false, 2, 0, rfl⟩
  · refine Value.comparable_texts.mono ?_
    rintro v ⟨-, book, here, given⟩
    simp only [shelf, List.mem_cons, List.not_mem_nil, or_false] at here
    rcases here with rfl | rfl | rfl | rfl | rfl <;> cases given <;> exact ⟨_, rfl⟩

theorem idle_place : Idle Entries.get? shelf place [title] := by
  let Numbered (book : Members) : Prop := Value.typeName <$> Entries.get? book "place" = some "int"
  have here : shelf[0] ∈ shelf ∧ Numbered shelf[0] := by decide +kernel
  have there : shelf[1] ∈ shelf ∧ ¬Numbered shelf[1] := by decide +kernel
  refine .parted here.1 here.2 there.1 there.2 ?_
  decide +kernel

/-- Books by their copies, by their places, which are of two kinds and so do not count, and by their titles. -/
theorem shelf_arranges :
    ∃ result, (arrange (sortedBy [copies, place, title]) Entries.get? shelf).result = .ok result ∧
      result.Perm shelf ∧ (arrange (sortedBy [copies, title]) Entries.get? shelf).result = .ok result ∧
      Arranges (sortOrder Entries.get? bookOrder [copies, title]) shelf result := by
  have decided : ∀ field ∈ [copies, place, title], Decided Entries.get? shelf field.field :=
    fun field inside => decided_shelf field.field (List.mem_map_of_mem inside)
  obtain ⟨result, arranged, perm, idle, -⟩ :=
    arrange_arranges (sortedBy [copies, place, title]) Entries.get? shelf decided
  obtain ⟨_, arranged', -, -, ordered⟩ := arrange_arranges (sortedBy [copies, title]) Entries.get? shelf
    fun field inside => decided field (List.cons_subset_cons copies (List.subset_cons_self place [title]) inside)
  have without := (idle [copies] place [title] rfl idle_place).2
  cases arranged'.symm.trans without
  exact ⟨result, arranged, perm, without, ordered bookOrder comparable_bookOrder⟩

example : ((arrange (sortedBy [copies, place, title]) Entries.get? shelf).result.toOption.map
    (List.map (valueOf Entries.get? "title") ·)) =
    some [.text "Adam Bede", .text "Emma", .text "Beloved", .text "Atlas", .text "Dune"] := by
  decide +kernel

end Query

end JsonApi
