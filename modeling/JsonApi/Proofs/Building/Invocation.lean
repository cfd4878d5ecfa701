import JsonApi.Proofs.Building.Nesting
import JsonApi.Query.Reference

/-!
How often models are asked. Every time that a model carries out an operation it leaves the same
records, so the log of a build shows what has been asked. Main statement: building ends, calls are
nested no deeper than there are identifiers to be built, and the operations that tell about
attributes, relationships and metadata are carried out once at most for each identifier.
-/

namespace JsonApi

inductive Operation where
  | attributes
  | relations
  | info

namespace Outcome

def heralded {α : Type} (record : Record) (o : Outcome α) : Outcome α :=
  ⟨record :: o.records, o.result⟩

theorem bind_heralded {α β : Type} (record : Record) (o : Outcome α) (next : α → Outcome β) :
    (o.heralded record >>= next) = (o >>= next).heralded record := by
  simp only [bind, heralded]
  cases o.result with
  | ok a => rfl
  | error fault => rfl

end Outcome

namespace Model

def heralding (record : Record) (m : Model) : Operation → Model
  | .attributes => { m with attributes := m.attributes.heralded record }
  | .relations => { m with relations := m.relations.heralded record }
  | .info => { m with info := m.info.heralded record }

theorem identifier_heralding (record : Record) (m : Model) (operation : Operation) :
    (m.heralding record operation).identifier = m.identifier := by
  cases operation <;> rfl

theorem attributesFor_heralding (record : Record) (m : Model) (query : Query) :
    (m.heralding record .attributes).attributesFor query =
      (m.attributesFor query).heralded record :=
  Outcome.bind_heralded record m.attributes _

end Model

namespace Plan

variable {γ : Type}

/-- A plan in which the models at some places leave a record each time that they carry out an
operation. -/
def heralding (plan : Plan γ) (record : Record) (operation : Operation) (places : List Nat) :
    Plan γ :=
  { plan with
    family := plan.family.mapIdx fun place model =>
      if place ∈ places then model.heralding record operation else model }

variable {plan : Plan γ} {record : Record} {operation : Operation} {places : List Nat} {place : Nat}

theorem modelAt_heralding_of_mem (member : place ∈ places) (inside : place < plan.family.length) :
    modelAt (plan.heralding record operation places).family place =
      (modelAt plan.family place).heralding record operation := by
  simp [modelAt, heralding, inside, member]

theorem modelAt_heralding_of_not_mem (absent : place ∉ places) :
    modelAt (plan.heralding record operation places).family place = modelAt plan.family place := by
  by_cases inside : place < plan.family.length
  · simp [modelAt, heralding, inside, absent]
  · simp [modelAt, heralding, inside]

theorem akin_heralding (plan : Plan γ) (record : Record) (operation : Operation)
    (places : List Nat) : Build.Akin plan (plan.heralding record operation places) where
  query := rfl
  generator := rfl
  identifier place := by
    by_cases chosen : place ∈ places ∧ place < plan.family.length
    · rw [modelAt_heralding_of_mem chosen.1 chosen.2, Model.identifier_heralding]
    · by_cases member : place ∈ places
      · have outside : ¬place < plan.family.length := fun inside => chosen ⟨member, inside⟩
        simp [modelAt, heralding, outside]
      · rw [modelAt_heralding_of_not_mem member]

end Plan

namespace Build

open Walk

variable {γ : Type} {plan : Plan γ} {record : Record} {operation : Operation} {places : List Nat}
  {place : Nat} {identifier : Identifier} {heard : Bool} {w v : Workspace}

def Shared (family : List Model) (places : List Nat) : Prop :=
  ∀ place ∈ places, ∀ other ∈ places, ∀ identifier like,
    identifierAt family place = some identifier → identifierAt family other = some like →
      identifier.isSame like = true

/-- States that differ in one record at most, which the second state has and the first has not. -/
structure Echoes (record : Record) (w v : Workspace) : Prop where
  store : v.store = w.store
  serial : v.serial = w.serial
  records : v.records = w.records ∨
    ∃ earlier later, w.records = earlier ++ later ∧ v.records = earlier ++ record :: later

/-- The second records are the first ones, with one more among them once it has been heard. -/
def Inserted (record : Record) : Bool → List Record → List Record → Prop
  | false, records, others => others = records
  | true, records, others =>
    ∃ earlier later, records = earlier ++ later ∧ others = earlier ++ record :: later

theorem Inserted.append {records others : List Record} (inserted : Inserted record heard records others)
    (more : List Record) : Inserted record heard (records ++ more) (others ++ more) := by
  cases heard with
  | false => exact congrArg (· ++ more) inserted
  | true =>
    obtain ⟨earlier, later, rfl, rfl⟩ := inserted
    exact ⟨earlier, later ++ more, by simp, by simp⟩

/-- States after the identifier of some places has been reserved, before or after one record more has
been heard. -/
structure Heard (family : List Model) (places : List Nat) (record : Record) (heard : Bool)
    (w v : Workspace) : Prop where
  store : v.store = w.store
  serial : v.serial = w.serial
  records : Inserted record heard w.records v.records
  known : ∀ place ∈ places, ∀ identifier, identifierAt family place = some identifier →
    w.store.find? identifier ≠ none

def HeardOnce (family : List Model) (places : List Nat) (record : Record) (w v : Workspace) : Prop :=
  v = w ∨ Heard family places record true w v

theorem Heard.eq {family : List Model} (quiet : Heard family places record false w v) : v = w := by
  obtain ⟨store, records, serial⟩ := w
  obtain ⟨store', records', serial'⟩ := v
  obtain ⟨rfl, rfl, same, _⟩ := quiet
  exact congrArg (Workspace.mk store' · serial') same

theorem Heard.once {family : List Model} (state : Heard family places record heard w v) :
    HeardOnce family places record w v := by
  cases heard with
  | false => exact Or.inl state.eq
  | true => exact Or.inr state

theorem steady_heard (family : List Model) (places : List Nat) (record : Record) (heard : Bool) :
    Steady (HeardOnce family places record) (Heard family places record heard) where
  fails state := state.once
  store state := state.store
  serial state := state.serial
  notes records state := ⟨state.store, state.serial, state.records.append records, state.known⟩
  moves store serial state grows := by
    refine ⟨rfl, rfl, state.records, fun place member identifier given absent => ?_⟩
    exact state.known place member identifier given (find?_eq_none_of_grows grows absent)

theorem steady_eq (family : List Model) (places : List Nat) (record : Record) :
    Steady (HeardOnce family places record) (fun w v => v = w) where
  fails same := Or.inl same
  store same := by rw [same]
  serial same := by rw [same]
  notes records same := by rw [same]
  moves store serial same grows := by rw [same]

theorem steady_heardOnce (family : List Model) (places : List Nat) (record : Record) :
    Steady (HeardOnce family places record) (HeardOnce family places record) :=
  (steady_eq family places record).or (steady_heard family places record true)

/-- From the reservation of the identifier that some places share, all of them are known. -/
theorem heard_hold {item : Instance} (shared : Shared plan.family places) (member : place ∈ places)
    (given : identifierAt plan.family place = some item.identifier) (w : Workspace) (serial : Nat) :
    Heard plan.family places record false (w.move (w.store.hold item) serial)
      (w.move (w.store.hold item) serial) where
  store := rfl
  serial := rfl
  records := rfl
  known other among like gives absent := by
    have same := shared place member other among item.identifier like given gives
    have different := find?_eq_none_iff.mp absent _ (mem_identifiers_hold w.store item)
    rw [same] at different
    cases different

theorem lockstep_heralded {α : Type} (family : List Model) (places : List Nat) (record : Record)
    (o : Outcome α) :
    Lockstep (HeardOnce family places record) (Heard family places record false)
      (Heard family places record true) (ofOutcome o) (ofOutcome (o.heralded record)) := by
  refine lockstep_ofOutcome (steady_heard family places record true) rfl fun {w v} quiet => ?_
  refine ⟨quiet.store, quiet.serial, ⟨w.records, o.records, rfl, ?_⟩, quiet.known⟩
  have same : v.records = w.records := quiet.records
  rw [← same]
  rfl

variable [Uri.Layout γ]

theorem lockstep_construct_alike {plan' : Plan γ} {make make' : Nat → Build Instance}
    {failed kept : Workspace → Workspace → Prop} (steady : Steady failed kept)
    (akin : Akin plan plan') (makes : ∀ place, Lockstep failed kept kept (make place) (make' place))
    (model : Model) (identifier : Identifier) :
    Lockstep failed (Lacking kept identifier) kept (construct plan make model identifier)
      (construct plan' make' model identifier) := by
  have attributes : Lockstep failed kept kept (ofOutcome (model.attributesFor plan.query))
      (ofOutcome (model.attributesFor plan'.query)) := by
    rw [akin.query]
    exact lockstep_ask steady _
  have relates := lockstep_relate steady akin makes (lockstep_ask steady model.relations) identifier
  have info := lockstep_ask steady model.info
  refine lockstep_construct steady steady akin ?_ attributes relates info
  intro w v item _ together _
  exact steady.moves _ _ together (grows_hold w.store item)

/-- Once the identifier of some places is stored, nothing more is heard from their models: they are not
built again. -/
theorem lockstep_heard (plan : Plan γ) (record : Record) (operation : Operation) (places : List Nat)
    (heard : Bool) (depth place : Nat) :
    Lockstep (HeardOnce plan.family places record) (Heard plan.family places record heard)
      (Heard plan.family places record heard) (makeWithin plan depth place)
      (makeWithin (plan.heralding record operation places) depth place) := by
  have steady := steady_heard plan.family places record heard
  have akin := plan.akin_heralding record operation places
  induction depth generalizing place with
  | zero => exact lockstep_storedOr steady akin place id fun identifier _ _ _ together =>
      lockstep_fail steady .tooDeep _ _ together.1
  | succ depth ih =>
    refine lockstep_storedOr steady akin place id fun identifier given => ?_
    rintro w v ⟨together, absent⟩
    have other : place ∉ places := by
      intro member
      exact together.known place member identifier (identifierAt_of_result given) absent
    rw [Plan.modelAt_heralding_of_not_mem other]
    exact lockstep_construct_alike steady akin ih _ identifier w v ⟨together, absent⟩

/-- Between asking three operations, one after the other, the record comes in once: with the operation
that leaves it. -/
theorem lockstep_operations (family : List Model) (places : List Nat) (record : Record)
    (operation : Operation) (query : Query) (model : Model) : ∃ shown linked : Bool,
    Lockstep (HeardOnce family places record) (Heard family places record false)
      (Heard family places record shown) (ofOutcome (model.attributesFor query))
      (ofOutcome ((model.heralding record operation).attributesFor query)) ∧
    Lockstep (HeardOnce family places record) (Heard family places record shown)
      (Heard family places record linked) (ofOutcome model.relations)
      (ofOutcome (model.heralding record operation).relations) ∧
    Lockstep (HeardOnce family places record) (Heard family places record linked)
      (Heard family places record true) (ofOutcome model.info)
      (ofOutcome (model.heralding record operation).info) := by
  have steady := steady_heard family places record
  cases operation with
  | attributes =>
    refine ⟨true, true, ?_, lockstep_ask (steady true) _, lockstep_ask (steady true) _⟩
    rw [Model.attributesFor_heralding]
    exact lockstep_heralded family places record _
  | relations =>
    refine ⟨false, true, lockstep_ask (steady false) _, ?_, lockstep_ask (steady true) _⟩
    exact lockstep_heralded family places record _
  | info =>
    refine ⟨false, false, lockstep_ask (steady false) _, lockstep_ask (steady false) _, ?_⟩
    exact lockstep_heralded family places record _

/-- A model with the shared identifier is asked once while its resource is built: not before the
identifier is reserved, and not again by the calls for related models. -/
theorem lockstep_construct_heralding {make make' : Nat → Build Instance} {model : Model}
    (reserves : ∀ (w : Workspace) (item : Instance), item.identifier = identifier →
      Heard plan.family places record false (w.move (w.store.hold item) w.serial)
        (w.move (w.store.hold item) w.serial))
    (makes : ∀ heard place, Lockstep (HeardOnce plan.family places record)
      (Heard plan.family places record heard) (Heard plan.family places record heard) (make place)
      (make' place)) :
    Lockstep (HeardOnce plan.family places record) (Lacking (fun w v => v = w) identifier)
      (HeardOnce plan.family places record) (construct plan make model identifier)
      (construct (plan.heralding record operation places) make' (model.heralding record operation)
        identifier) := by
  have akin := plan.akin_heralding record operation places
  have steady := steady_heard plan.family places record
  have holds {w v : Workspace} (item : Instance) (own : item.identifier = identifier) (same : v = w)
      (_ : w.store.find? identifier = none) :
      Heard plan.family places record false (w.move (w.store.hold item) w.serial)
        (v.move (w.store.hold item) w.serial) := by
    subst same
    exact reserves v item own
  obtain ⟨shown, linked, attributes, relations, info⟩ :=
    lockstep_operations plan.family places record operation plan.query model
  -- Relationships are followed with the record heard or not; the calls for related models do not
  -- change that.
  have relates := lockstep_relate (steady linked) akin (makes linked) relations identifier
  exact (lockstep_construct (steady_eq plan.family places record) (steady true) akin holds attributes
    relates info).mono id Heard.once

/-- The models at some places are asked when their identifier is reserved, and that is the only time. -/
theorem lockstep_heardOnce (plan : Plan γ) (record : Record) (operation : Operation)
    (places : List Nat) (shared : Shared plan.family places) (depth place : Nat) :
    Lockstep (HeardOnce plan.family places record) (HeardOnce plan.family places record)
      (HeardOnce plan.family places record) (makeWithin plan depth place)
      (makeWithin (plan.heralding record operation places) depth place) := by
  have steady := steady_heardOnce plan.family places record
  have akin := plan.akin_heralding record operation places
  induction depth generalizing place with
  | zero => exact lockstep_storedOr steady akin place id fun identifier _ _ _ together =>
      lockstep_fail steady .tooDeep _ _ together.1
  | succ depth ih =>
    refine lockstep_storedOr steady akin place id fun identifier given => ?_
    have given := identifierAt_of_result given
    by_cases member : place ∈ places
    · rw [Plan.modelAt_heralding_of_mem member (identifierAt_lt given)]
      rintro w v ⟨same | heard, absent⟩
      · have makes (heard : Bool) := lockstep_heard plan record operation places heard depth
        have reserves (w : Workspace) (item : Instance) (own : item.identifier = identifier) :
            Heard plan.family places record false (w.move (w.store.hold item) w.serial)
              (w.move (w.store.hold item) w.serial) := by
          subst own
          exact heard_hold shared member given w w.serial
        exact lockstep_construct_heralding reserves makes w v ⟨same, absent⟩
      · exact absurd absent (heard.known place member identifier given)
    · rw [Plan.modelAt_heralding_of_not_mem member]
      exact lockstep_construct_alike steady akin ih _ identifier

theorem HeardOnce.echoes {family : List Model} (once : HeardOnce family places record w v) :
    Echoes record w v := by
  rcases once with rfl | heard
  · exact ⟨rfl, rfl, Or.inl rfl⟩
  · exact ⟨heard.store, heard.serial, Or.inr heard.records⟩

/-- What calls leave, one after the other, differs in one record at most. -/
theorem heardOnce_attempts (plan : Plan γ) (record : Record) (operation : Operation)
    (shared : List Nat) (share : Shared plan.family shared) (places : List Nat)
    (together : HeardOnce plan.family shared record w v) :
    HeardOnce plan.family shared record (attempts plan places w)
      (attempts (plan.heralding record operation shared) places v) := by
  induction places generalizing w v with
  | nil => exact together
  | cons place rest ih =>
    have lengths : (plan.heralding record operation shared).family.length = plan.family.length :=
      List.length_mapIdx
    have lockstep := lockstep_heardOnce plan record operation shared share plan.family.length place
    have next : HeardOnce plan.family shared record ((make plan place).leave w)
        ((make (plan.heralding record operation shared) place).leave v) := by
      unfold make
      rw [lengths]
      exact lockstep.leave together
    exact ih next

/-- Building a resource ends. Calls are made for related models until nothing but stored identifiers is
met: it is the only way to build related models in the same way as the model itself. With no more
than `n` different identifiers that are not stored, calls are nested no deeper than `n + 1`, for what
deeper ones would do makes no difference. If the models of one identifier leave a record each time
that they tell about attributes, or relationships, or metadata, then any number of calls leaves it once
at most. -/
theorem make_ends (plan : Plan γ) (w : Workspace) (n : Nat)
    (few : FreshAtMost plan.family w.store n) :
    (∀ other : Nat → Build Instance, other = expand plan other ↔ other = make plan) ∧
      (∀ bottom place, (expand plan)^[n + 1] bottom place w = make plan place w) ∧
      ∀ record operation shared, Shared plan.family shared → ∀ places,
        Echoes record (attempts plan places w)
          (attempts (plan.heralding record operation shared) places w) := by
  refine ⟨fun other => ⟨eq_make_of_eq_expand, ?_⟩, fun bottom place => ?_, ?_⟩
  · rintro rfl
    exact make_eq_expand plan
  · exact iterate_eq_make few bottom place
  · intro record operation shared share places
    exact (heardOnce_attempts plan record operation shared share places (Or.inl rfl)).echoes

/-- Two comments that answer each other and themselves, the first of which comes as two models. -/
def thread : Plan where
  query := Query.ofReference "/comments?include=answers".toList
  generator := .ok ""
  family := [.leading "comments" "1" [("answers", .many [0, 1, 2])],
    .leading "comments" "2" [("answers", .many [1, 2])],
    .leading "comments" "1" [("answers", .many [2, 0, 1])]]

/-- Building the thread anew from each of its models, with two identifiers in three models. Calls are
nested three deep, and the comment that comes twice is asked for its attributes by the first call. -/
theorem thread_ends : FreshAtMost thread.family Store.empty 2 ∧ Shared thread.family [0, 2] ∧
    (∀ bottom place, (expand thread)^[3] bottom place .empty = make thread place .empty) ∧
    Echoes ⟨.debug, "asked"⟩ (attempts thread [2, 1, 0] .empty)
      (attempts (thread.heralding ⟨.debug, "asked"⟩ .attributes [0, 2]) [2, 1, 0] .empty) ∧
    (attempts (thread.heralding ⟨.debug, "asked"⟩ .attributes [0, 2]) [2, 1, 0] .empty).records.count
      ⟨.debug, "asked"⟩ = 1 := by
  have few : FreshAtMost thread.family Store.empty 2 :=
    (freshAtMost_unstored thread.family .empty).weaken (by decide)
  have shared : Shared thread.family [0, 2] := by
    have gives : ∀ place ∈ [0, 2], identifierAt thread.family place =
        some (.existing (.text "comments") "1") := by decide
    intro place member other among identifier like given tells
    rw [gives place member] at given
    rw [gives other among] at tells
    cases given
    cases tells
    exact Identifier.isSame_refl _
  obtain ⟨_, nested, once⟩ := make_ends thread .empty 2 few
  exact ⟨few, shared, nested, once _ .attributes _ shared _, by decide +kernel⟩

end Build

end JsonApi
