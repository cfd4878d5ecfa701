import JsonApi.Building.Resource
import JsonApi.Proofs.Building.Steps

/-!
Where the faults of a build come from. Main statement: what building the resource of a model fails with is a
fault of a model or of the generator, or one of the few that builds have of their own.
-/

namespace JsonApi

/-- One of the operations of a model fails, or what stands in the place of a related model does. -/
inductive Model.FailsWith (m : Model) (fault : Fault) : Prop where
  | kind (fails : m.kind.result = .error fault)
  | identifier (fails : m.identifier.result = .error fault)
  | attributes (fails : m.attributes.result = .error fault)
  | relations (fails : m.relations.result = .error fault)
  | stray {relations : List (String × Related)} {name : String}
    (told : m.relations.result = .ok (some relations)) (listed : (name, .stray fault) ∈ relations)
  | info (fails : m.info.result = .error fault)

inductive Uri.Layout.FailsWith {γ : Type} [Uri.Layout γ] (generator : γ) (fault : Fault) : Prop where
  | resource {identifier : Identifier} (fails : resource generator identifier = .error fault)
  | relationship {identifier : Identifier} {name : String}
    (fails : relationship generator identifier name = .error fault)
  | related {identifier : Identifier} {name : String} (fails : related generator identifier name = .error fault)

namespace Build

variable {α β γ : Type} [Uri.Layout γ] {plan : Plan γ} {fault : Fault} {place : Nat}
  {make : Nat → Build Instance} {identifier : Identifier}

inductive Cause (plan : Plan γ) : Fault → Prop where
  | type : Cause plan .wrongType
  | member : Cause plan .noSuchMember
  | depth : Cause plan .tooDeep
  | unstorable (identifier : Identifier) : Cause plan (.breach (.unstorable identifier))
  | foreign (form : String) : Cause plan (.invalidRelated form)
  | model {m : Model} {fault : Fault} (inside : m ∈ plan.family) (fails : m.FailsWith fault) : Cause plan fault
  | generator {fault : Fault} (fails : Uri.Layout.FailsWith plan.generator fault) : Cause plan fault

def Caused (plan : Plan γ) (build : Build α) : Prop :=
  ∀ w fault left, build w = .error fault left → Cause plan fault

theorem caused_pure (a : α) : Caused plan (pure a) := by
  intro w fault left failed
  cases failed

theorem caused_fail (cause : Cause plan fault) : Caused plan (fail fault : Build α) := by
  intro w fault' left failed
  cases failed
  exact cause

theorem caused_record (level : Level) (message : String) : Caused plan (record level message) := by
  intro w fault left failed
  cases failed

theorem caused_create (resource : Resource) : Caused plan (create resource) := by
  intro w fault left failed
  cases failed

theorem caused_ofExcept {result : Except Fault α} (cause : ∀ fault, result = .error fault → Cause plan fault) :
    Caused plan (ofExcept result) := by
  cases result with
  | ok a => exact caused_pure a
  | error fault => exact caused_fail (cause fault rfl)

/-- Steps have causes to fail if the first has them and the second does after whatever the first comes to. -/
theorem Caused.bind_of_ok {first : Build α} {next : α → Build β} (caused : Caused plan first)
    (further : ∀ a w v, first w = .ok a v → Caused plan (next a)) : Caused plan (first >>= next) := by
  intro w fault left failed
  rcases bind_error failed with failed | ⟨a, v, run, failed⟩
  · exact caused w fault left failed
  · exact further a w v run v fault left failed

theorem Caused.bind {first : Build α} {next : α → Build β} (caused : Caused plan first)
    (further : ∀ a, Caused plan (next a)) : Caused plan (first >>= next) :=
  caused.bind_of_ok fun a _ _ _ => further a

theorem Caused.map {build : Build α} (caused : Caused plan build) (f : α → β) :
    Caused plan (do return f (← build)) :=
  caused.bind fun a => caused_pure (f a)

theorem caused_ofOutcome {o : Outcome α} (cause : ∀ fault, o.result = .error fault → Cause plan fault) :
    Caused plan (ofOutcome o) := by
  intro w fault left failed
  rcases bind_error failed with written | ⟨_, v, -, failed⟩
  · cases written
  · cases result : o.result with
    | ok a =>
      simp only [result] at failed
      cases failed
    | error fault' =>
      simp only [result] at failed
      cases failed
      exact cause fault result

theorem caused_register (item : Instance) : Caused plan (register item) := by
  intro w fault left failed
  rw [register_eq] at failed
  split at failed
  · cases failed
  · cases failed
    exact .unstorable item.identifier

theorem caused_reserve (item : Instance) : Caused plan (reserve item) := by
  intro w fault left failed
  rw [reserve_eq] at failed
  split at failed
  · cases failed
  · cases failed
    exact .unstorable item.identifier

theorem caused_stored? (identifier : Identifier) : Caused plan (stored? identifier) := by
  unfold stored?
  split
  · intro w fault left failed
    cases failed
  · exact caused_fail .type

section Models

theorem cause_modelAt (fails : (modelAt plan.family place).FailsWith fault) : Cause plan fault := by
  unfold modelAt at fails
  cases found : plan.family[place]? with
  | some m =>
    rw [found] at fails
    exact .model (List.mem_of_getElem? found) fails
  | none =>
    rw [found] at fails
    cases fails with
    | kind fails | identifier fails | attributes fails | relations fails | info fails =>
      cases fails
      exact .member
    | stray told => cases told

theorem caused_attributesFor (plan : Plan γ) (place : Nat) :
    Caused plan (ofOutcome ((modelAt plan.family place).attributesFor plan.query)) := by
  refine caused_ofOutcome fun fault failed => ?_
  unfold Model.attributesFor at failed
  rcases Outcome.bind_error failed with fails | ⟨attributes, -, failed⟩
  · exact cause_modelAt (.attributes fails)
  split at failed
  · rcases Outcome.bind_error failed with fails | ⟨kind, -, failed⟩
    · exact cause_modelAt (.kind fails)
    rcases Outcome.bind_error failed with fails | ⟨members, -, failed⟩
    · have missing := Outcome.ofExcept_error fails
      unfold Model.selected at missing
      split at missing
      · cases missing
      · cases missing
        split
        · exact .member
        · exact .type
    · cases failed
  · cases failed

theorem caused_identifiersOf (places : List Nat) : Caused plan (identifiersOf plan.family places) := by
  induction places with
  | nil => exact caused_pure []
  | cons place rest ih =>
    refine (caused_ofOutcome fun fault fails => cause_modelAt (.identifier fails)).bind fun identifier => ?_
    exact ih.map (identifier :: ·)

end Models

section Relationships

variable (makes : ∀ place, Caused plan (make place))

include makes

theorem caused_makeAll (places : List Nat) : Caused plan (makeAll make places) := by
  induction places with
  | nil => exact caused_pure []
  | cons place rest ih => exact (makes place).bind fun item => ih.map (item :: ·)

theorem caused_follow {name : String} {related : Related}
    (stray : ∀ fault, related = .stray fault → Cause plan fault) :
    Caused plan (follow plan make name related) := by
  have recorded : Caused plan (recordInclusion name) := caused_record _ _
  cases related with
  | absent => exact caused_pure _
  | one place =>
    simp only [follow, followOne]
    split
    · exact recorded.bind fun _ => (makes place).map _
    · exact (caused_ofOutcome fun fault fails => cause_modelAt (.identifier fails)).map _
  | many places =>
    simp only [follow, followMany]
    split
    · exact recorded.bind fun _ => (caused_makeAll makes places).map _
    · exact (caused_identifiersOf places).map _
  | stray fault =>
    simp only [follow, followStray]
    split
    · exact recorded.bind fun _ => caused_fail (stray fault rfl)
    · exact caused_fail (stray fault rfl)
  | foreign form => exact caused_pure _

theorem caused_followAll {relations : List (String × Related)}
    (stray : ∀ name fault, (name, .stray fault) ∈ relations → Cause plan fault) :
    Caused plan (followAll plan make relations) := by
  induction relations with
  | nil => exact caused_pure []
  | cons relation rest ih =>
    obtain ⟨name, related⟩ := relation
    have first : Caused plan (follow plan make name related) :=
      caused_follow makes fun fault same => stray name fault (same ▸ List.mem_cons_self)
    exact first.bind fun data =>
      (ih fun name fault listed => stray name fault (List.mem_cons_of_mem _ listed)).map _

theorem caused_relatedData (place : Nat) : Caused plan (relatedData plan make (modelAt plan.family place)) := by
  refine (caused_ofOutcome fun fault fails => cause_modelAt (.relations fails)).bind_of_ok ?_
  intro told w v asked
  cases told with
  | none => exact caused_pure none
  | some relations =>
    refine Caused.map (caused_followAll makes fun name fault listed => ?_) _
    exact cause_modelAt (.stray (ofOutcome_ok asked).1 listed)

omit makes

theorem caused_registerAll (items : List Instance) : Caused plan (registerAll items) := by
  induction items with
  | nil => exact caused_pure []
  | cons item rest ih => exact (caused_register item).bind fun identifier => ih.map (identifier :: ·)

theorem caused_link (data : RelatedData) : Caused plan (link data) := by
  cases data with
  | none => exact caused_pure _
  | reference identifier => exact caused_pure _
  | built item => exact (caused_register item).map _
  | references identifiers => exact caused_pure _
  | builtAll items => exact (caused_registerAll items).map _
  | foreign form => exact caused_fail (.foreign form)

theorem caused_linkAll (identifier : Identifier) (data : List (String × RelatedData)) :
    Caused plan (linkAll plan.generator identifier data) := by
  induction data with
  | nil => exact caused_pure []
  | cons datum rest ih =>
    refine (caused_ofExcept fun fault fails => .generator (.relationship fails)).bind fun self => ?_
    refine (caused_ofExcept fun fault fails => .generator (.related fails)).bind fun related => ?_
    exact (caused_link datum.2).bind fun linkage => ih.map _

include makes

theorem caused_relate (place : Nat) (identifier : Identifier) :
    Caused plan (relate plan make (modelAt plan.family place) identifier) := by
  refine (caused_relatedData makes place).bind fun data => ?_
  cases data with
  | none => exact caused_pure none
  | some data => exact (caused_linkAll identifier data).map _

theorem caused_construct (place : Nat) (identifier : Identifier) :
    Caused plan (construct plan make (modelAt plan.family place) identifier) := by
  refine (caused_ofExcept fun fault fails => .generator (.resource fails)).bind fun self => ?_
  refine (caused_create _).bind fun item => (caused_reserve item).bind fun _ => ?_
  refine (caused_attributesFor plan place).bind fun attributes => ?_
  refine (caused_relate makes place identifier).bind fun relationships => ?_
  refine (caused_ofOutcome fun fault fails => cause_modelAt (.info fails)).bind fun info => ?_
  exact (caused_create _).bind fun item => (caused_register item).map _

end Relationships

theorem caused_storedOr (place : Nat) {otherwise : Identifier → Build Instance}
    (further : ∀ identifier, Caused plan (otherwise identifier)) :
    Caused plan (storedOr (modelAt plan.family place) otherwise) := by
  refine (caused_ofOutcome fun fault fails => cause_modelAt (.identifier fails)).bind fun identifier => ?_
  refine (caused_stored? identifier).bind fun found => ?_
  cases found with
  | some item => exact caused_pure item
  | none => exact further identifier

theorem caused_makeWithin (plan : Plan γ) (depth place : Nat) : Caused plan (makeWithin plan depth place) := by
  induction depth generalizing place with
  | zero => exact caused_storedOr place fun _ => caused_fail .depth
  | succ depth ih => exact caused_storedOr place (caused_construct ih place)

theorem caused_make (plan : Plan γ) (place : Nat) : Caused plan (Build.make plan place) :=
  caused_makeWithin plan plan.family.length place

end Build

end JsonApi
