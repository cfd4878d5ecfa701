import JsonApi.Proofs.Building.Lockstep
import JsonApi.Proofs.Store.Soundness
import JsonApi.Proofs.Traversal.Walk
import Mathlib.Data.List.Dedup
import Mathlib.Data.List.Perm.Subperm
import Mathlib.Logic.Function.Iterate

/-!
How deep calls for resources are nested. A call reserves an identifier that is not stored before it
makes further calls, so each of those finds one identifier less to be built. Main statements: what
calls would do that are nested deeper than the identifiers allow makes no difference, and building a
resource is the only solution of the equation in which related models are built in the same way.
-/

namespace JsonApi.Build

open Walk

variable {γ : Type}

/-- Identifiers that models give and that are not stored, no two of which mean the same. -/
structure Fresh (family : List Model) (s : Store) (identifiers : List Identifier) : Prop where
  given : ∀ identifier ∈ identifiers, ∃ place, identifierAt family place = some identifier
  absent : ∀ identifier ∈ identifiers, s.find? identifier = none
  apart : identifiers.Pairwise fun one other => one.isSame other = false

def FreshAtMost (family : List Model) (s : Store) (n : Nat) : Prop :=
  ∀ identifiers, Fresh family s identifiers → identifiers.length ≤ n

variable {family : List Model} {s later : Store} {n : Nat} {place : Nat} {identifier : Identifier}

theorem find?_eq_none_iff :
    s.find? identifier = none ↔ ∀ key ∈ s.identifiers, key.isSame identifier = false := by
  simp [Store.find?, Store.identifiers, Entries.keys]

theorem find?_eq_none_of_grows (grows : s.identifiers <+: later.identifiers)
    (absent : later.find? identifier = none) : s.find? identifier = none := by
  rw [find?_eq_none_iff] at absent ⊢
  exact fun key member => absent key (grows.subset member)

theorem Fresh.of_grows {identifiers : List Identifier} (fresh : Fresh family later identifiers)
    (grows : s.identifiers <+: later.identifiers) : Fresh family s identifiers where
  given := fresh.given
  absent identifier member := find?_eq_none_of_grows grows (fresh.absent identifier member)
  apart := fresh.apart

theorem FreshAtMost.mono (few : FreshAtMost family s n)
    (grows : s.identifiers <+: later.identifiers) : FreshAtMost family later n :=
  fun identifiers fresh => few identifiers (fresh.of_grows grows)

theorem FreshAtMost.weaken {more : Nat} (few : FreshAtMost family s n) (le : n ≤ more) :
    FreshAtMost family s more :=
  fun identifiers fresh => Nat.le_trans (few identifiers fresh) le

theorem grows_hold (s : Store) (item : Instance) : s.identifiers <+: (s.hold item).identifiers := by
  rw [Store.identifiers_hold]
  split
  · exact List.prefix_rfl
  · exact List.prefix_append _ _

theorem mem_identifiers_hold (s : Store) (item : Instance) :
    item.identifier ∈ (s.hold item).identifiers := by
  rw [Store.identifiers_hold]
  split
  next present => exact present
  next => exact List.mem_append_right _ (List.mem_singleton_self _)

theorem FreshAtMost.hold (few : FreshAtMost family s (n + 1)) (item : Instance)
    (given : identifierAt family place = some item.identifier)
    (absent : s.find? item.identifier = none) : FreshAtMost family (s.hold item) n := by
  intro identifiers fresh
  have before := fresh.of_grows (grows_hold s item)
  have longer : Fresh family s (item.identifier :: identifiers) := by
    refine ⟨?_, ?_, List.pairwise_cons.mpr ⟨?_, before.apart⟩⟩
    · exact List.forall_mem_cons.mpr ⟨⟨place, given⟩, before.given⟩
    · exact List.forall_mem_cons.mpr ⟨absent, before.absent⟩
    · intro other member
      exact find?_eq_none_iff.mp (fresh.absent other member) _ (mem_identifiers_hold s item)
  have bound := few _ longer
  rw [List.length_cons] at bound
  omega

theorem FreshAtMost.pos (few : FreshAtMost family s n)
    (given : identifierAt family place = some identifier) (absent : s.find? identifier = none) :
    0 < n := by
  have single : Fresh family s [identifier] := by
    refine ⟨?_, ?_, List.pairwise_singleton _ _⟩
    · exact List.forall_mem_singleton.mpr ⟨place, given⟩
    · exact List.forall_mem_singleton.mpr absent
  exact few _ single

def unstored (family : List Model) (s : Store) : List Identifier :=
  (((List.range family.length).filterMap (identifierAt family)).filter
    fun identifier => (s.find? identifier).isNone).dedup

theorem freshAtMost_unstored (family : List Model) (s : Store) :
    FreshAtMost family s (unstored family s).length := by
  intro identifiers fresh
  have distinct : identifiers.Nodup := by
    refine fresh.apart.imp ?_
    rintro one other different rfl
    rw [Identifier.isSame_refl] at different
    cases different
  have inside : identifiers ⊆ unstored family s := by
    intro identifier member
    obtain ⟨place, given⟩ := fresh.given identifier member
    have listed : identifier ∈ (List.range family.length).filterMap (identifierAt family) :=
      List.mem_filterMap.mpr ⟨place, List.mem_range.mpr (identifierAt_lt given), given⟩
    have absent := fresh.absent identifier member
    simpa [unstored, absent] using listed
  exact (List.subperm_of_subset distinct inside).length_le

/-- There are never more fresh identifiers than models. -/
theorem freshAtMost_length (family : List Model) (s : Store) :
    FreshAtMost family s family.length := by
  intro identifiers fresh
  have listed := freshAtMost_unstored family s identifiers fresh
  have fewer : (unstored family s).length ≤
      ((List.range family.length).filterMap (identifierAt family)).length :=
    Nat.le_trans (List.dedup_sublist _).length_le (List.length_filter_le _ _)
  have places : ((List.range family.length).filterMap (identifierAt family)).length ≤
      (List.range family.length).length := List.length_filterMap_le _ _
  rw [List.length_range] at places
  omega

def Same (family : List Model) (n : Nat) (w v : Workspace) : Prop :=
  v = w ∧ FreshAtMost family w.store n

theorem steady_same (family : List Model) (n : Nat) :
    Steady (fun w v => v = w) (Same family n) where
  fails together := together.1
  store together := by rw [together.1]
  serial together := by rw [together.1]
  notes records together := ⟨by rw [together.1], together.2⟩
  moves store serial together grows := ⟨by rw [together.1], together.2.mono grows⟩

theorem Matched.eq {α : Type} {one other : EStateM.Result Fault Workspace α}
    (matched : Matched (fun w v => v = w) (Same family n) one other) : other = one := by
  cases matched with
  | ok together => rw [together.1]
  | error together => rw [together]

variable [Uri.Layout γ]

/-- The resource of a model, its related models being made by other means. -/
def expand (plan : Plan γ) (make : Nat → Build Instance) (place : Nat) : Build Instance :=
  storedOr (modelAt plan.family place) (construct plan make (modelAt plan.family place))

/-- With no more than `n` fresh identifiers, nothing that is nested deeper than `n + 1` calls is
reached: whatever stands there, the build does the same. The induction is on `n`; the calls that a
resource under construction makes find its identifier reserved. -/
theorem lockstep_iterate (plan : Plan γ) (bottom : Nat → Build Instance) (n place : Nat) :
    Lockstep (fun w v => v = w) (Same plan.family n) (Same plan.family n)
      (makeWithin plan n place) ((expand plan)^[n + 1] bottom place) := by
  induction n generalizing place with
  | zero =>
    refine lockstep_storedOr (steady_same plan.family 0) (.refl plan) place id ?_
    rintro identifier given w v ⟨⟨_, few⟩, absent⟩
    have positive := few.pos (identifierAt_of_result given) absent
    omega
  | succ n ih =>
    rw [Function.iterate_succ_apply']
    refine lockstep_storedOr (steady_same plan.family (n + 1)) (.refl plan) place id ?_
    intro identifier given
    have steady := steady_same plan.family n
    have relates := lockstep_relate steady (.refl plan) ih
      (lockstep_ask steady (modelAt plan.family place).relations) identifier
    have constructs := lockstep_construct (steady_same plan.family (n + 1)) steady (.refl plan) ?_
      (lockstep_ask steady _) relates (lockstep_ask steady _)
    · refine constructs.mono id ?_
      rintro w v ⟨same, few⟩
      exact ⟨same, few.weaken (Nat.le_succ n)⟩
    · rintro w v item rfl ⟨rfl, few⟩ absent
      exact ⟨rfl, few.hold item (identifierAt_of_result given) absent⟩

variable {plan : Plan γ} {w : Workspace}

theorem iterate_eq_makeWithin (few : FreshAtMost plan.family w.store n) (bottom : Nat → Build Instance)
    (place : Nat) : (expand plan)^[n + 1] bottom place w = makeWithin plan n place w :=
  (lockstep_iterate plan bottom n place w w ⟨rfl, few⟩).eq

/-- More depth than fresh identifiers is of no use. -/
theorem makeWithin_of_le (few : FreshAtMost plan.family w.store n) {depth : Nat} (le : n ≤ depth)
    (place : Nat) : makeWithin plan depth place w = makeWithin plan n place w := by
  obtain ⟨more, rfl⟩ := Nat.exists_eq_add_of_le le
  have bottom : Nat → Build Instance := makeWithin plan 0
  calc makeWithin plan (n + more) place w
      = (expand plan)^[n + more + 1] bottom place w :=
        (iterate_eq_makeWithin (few.weaken le) bottom place).symm
    _ = (expand plan)^[n + 1] ((expand plan)^[more] bottom) place w := by
        rw [Nat.add_right_comm, Function.iterate_add_apply]
    _ = makeWithin plan n place w := iterate_eq_makeWithin few _ place

theorem iterate_eq_make (few : FreshAtMost plan.family w.store n) (bottom : Nat → Build Instance)
    (place : Nat) : (expand plan)^[n + 1] bottom place w = make plan place w := by
  have enough := freshAtMost_length plan.family w.store
  calc (expand plan)^[n + 1] bottom place w
      = makeWithin plan n place w := iterate_eq_makeWithin few bottom place
    _ = makeWithin plan (n + plan.family.length) place w :=
        (makeWithin_of_le few (Nat.le_add_right _ _) place).symm
    _ = makeWithin plan plan.family.length place w :=
        makeWithin_of_le enough (Nat.le_add_left _ _) place

theorem iterate_length (plan : Plan γ) (bottom : Nat → Build Instance) :
    (expand plan)^[plan.family.length + 1] bottom = make plan := by
  funext place w
  exact iterate_eq_make (freshAtMost_length plan.family w.store) bottom place

theorem make_eq_expand (plan : Plan γ) : make plan = expand plan (make plan) := by
  calc make plan
      = (expand plan)^[plan.family.length + 1] (expand plan (make plan)) :=
        (iterate_length plan _).symm
    _ = expand plan ((expand plan)^[plan.family.length + 1] (make plan)) := by
        rw [← Function.iterate_succ_apply, Function.iterate_succ_apply']
    _ = expand plan (make plan) := by rw [iterate_length]

/-- There is one way only to make related models in the same way as the model itself. -/
theorem eq_make_of_eq_expand {other : Nat → Build Instance} (solves : other = expand plan other) :
    other = make plan := by
  have fixed := Function.iterate_fixed solves.symm (plan.family.length + 1)
  rw [← fixed, iterate_length]

end JsonApi.Build
