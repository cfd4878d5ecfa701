import JsonApi.Building.Resource
import JsonApi.Proofs.Building.Steps

/-!
Two builds side by side. They may ask different models, or make related resources in different ways,
and still do the same to what is stored: then what holds between their states before holds between
them afterwards. Main statement: a build keeps a relation between states that no single step breaks,
if the calls that it makes for related models keep it.
-/

namespace JsonApi

namespace Workspace

def note (w : Workspace) (records : List Record) : Workspace :=
  { w with records := w.records ++ records }

def move (w : Workspace) (store : Store) (serial : Nat) : Workspace := ⟨store, w.records, serial⟩

end Workspace

namespace Build

variable {α β γ : Type} {failed before between after kept : Workspace → Workspace → Prop}

inductive Matched (failed after : Workspace → Workspace → Prop) :
    EStateM.Result Fault Workspace α → EStateM.Result Fault Workspace α → Prop where
  | ok {a : α} {w v : Workspace} (together : after w v) : Matched failed after (.ok a w) (.ok a v)
  | error {fault : Fault} {w v : Workspace} (together : failed w v) :
    Matched failed after (.error fault w) (.error fault v)

/-- From states that belong together two builds come to the same result. -/
def Lockstep (failed before after : Workspace → Workspace → Prop) (one other : Build α) : Prop :=
  ∀ w v, before w v → Matched failed after (one w) (other v)

/-- A relation between states that have the same store, which outlasts every step that only adds to
the records or to the identifiers of the store. -/
structure Steady (failed kept : Workspace → Workspace → Prop) : Prop where
  fails : ∀ {w v}, kept w v → failed w v
  store : ∀ {w v}, kept w v → v.store = w.store
  serial : ∀ {w v}, kept w v → v.serial = w.serial
  notes : ∀ {w v} (records : List Record), kept w v → kept (w.note records) (v.note records)
  moves : ∀ {w v} (store : Store) (serial : Nat), kept w v →
    w.store.identifiers <+: store.identifiers → kept (w.move store serial) (v.move store serial)

/-- Of two relations that outlast every step, whichever holds goes on to hold. -/
theorem Steady.or {other : Workspace → Workspace → Prop} (one : Steady failed kept)
    (two : Steady failed other) : Steady failed fun w v => kept w v ∨ other w v where
  fails together := together.elim one.fails two.fails
  store together := together.elim one.store two.store
  serial together := together.elim one.serial two.serial
  notes records together := together.imp (one.notes records) (two.notes records)
  moves store serial together grows :=
    together.imp (one.moves store serial · grows) (two.moves store serial · grows)

theorem Lockstep.bind_given {one other : Build α} {next next' : α → Build β}
    (first : Lockstep failed before between one other)
    (rest : ∀ a w w', one w = .ok a w' → Lockstep failed between after (next a) (next' a)) :
    Lockstep failed before after (one >>= next) (other >>= next') := by
  intro w v together
  have outcome := first w v together
  simp only [Bind.bind, EStateM.bind]
  generalize given : one w = result at outcome ⊢
  generalize other v = result' at outcome ⊢
  cases outcome with
  | ok together => exact rest _ _ _ given _ _ together
  | error together => exact .error together

theorem Lockstep.bind {one other : Build α} {next next' : α → Build β}
    (first : Lockstep failed before between one other)
    (rest : ∀ a, Lockstep failed between after (next a) (next' a)) :
    Lockstep failed before after (one >>= next) (other >>= next') :=
  first.bind_given fun a _ _ _ => rest a

theorem Lockstep.pure (passes : ∀ {w v}, before w v → after w v) (a : α) :
    Lockstep failed before after (pure a) (pure a) :=
  fun _ _ together => .ok (passes together)

theorem Lockstep.mono {one other : Build α} (lockstep : Lockstep failed before between one other)
    (fewer : ∀ {w v}, after w v → before w v) (passes : ∀ {w v}, between w v → kept w v) :
    Lockstep failed after kept one other := by
  intro w v together
  have outcome := lockstep w v (fewer together)
  generalize one w = result at outcome ⊢
  generalize other v = result' at outcome ⊢
  cases outcome with
  | ok together => exact .ok (passes together)
  | error together => exact .error together

theorem create_eq (resource : Resource) (w : Workspace) :
    create resource w = .ok ⟨w.serial, resource⟩ (w.move w.store (w.serial + 1)) := rfl

theorem ofOutcome_eq (o : Outcome α) (w : Workspace) :
    ofOutcome o w = match o.result with
      | .ok a => .ok a (w.note o.records)
      | .error fault => .error fault (w.note o.records) := by
  simp only [ofOutcome]
  cases o.result with
  | ok a => rfl
  | error fault => rfl

def leave (build : Build α) (w : Workspace) : Workspace :=
  match build w with
  | .ok _ left => left
  | .error _ left => left

theorem leave_of_ok {build : Build α} {a : α} {w v : Workspace} (run : build w = .ok a v) :
    build.leave w = v := by
  rw [Build.leave, run]

theorem leave_of_error {build : Build α} {fault : Fault} {w v : Workspace}
    (failed : build w = .error fault v) : build.leave w = v := by
  rw [Build.leave, failed]

/-- The state after calls for the resources of models, one after the other. Calls that fail do not
keep later ones from being made. -/
def attempts [Uri.Layout γ] (plan : Plan γ) (places : List Nat) (w : Workspace) : Workspace :=
  places.foldl (fun w place => (make plan place).leave w) w

theorem Lockstep.leave {one other : Build α} (lockstep : Lockstep kept kept kept one other)
    {w v : Workspace} (together : kept w v) : kept (one.leave w) (other.leave v) := by
  have outcome := lockstep w v together
  unfold Build.leave
  generalize one w = result at outcome ⊢
  generalize other v = result' at outcome ⊢
  cases outcome with
  | ok together => exact together
  | error together => exact together

section Primitive

variable (steady : Steady failed kept)

include steady

theorem lockstep_fail (fault : Fault) :
    Lockstep failed kept kept (fail fault : Build α) (fail fault) :=
  fun _ _ together => .error (steady.fails (steady.notes fault.record?.toList together))

theorem lockstep_ofExcept (result : Except Fault α) :
    Lockstep failed kept kept (ofExcept result) (ofExcept result) := by
  cases result with
  | ok a => exact .pure id a
  | error fault => exact lockstep_fail steady fault

theorem lockstep_record (level : Level) (message : String) :
    Lockstep failed kept kept (record level message) (record level message) :=
  fun _ _ together => .ok (steady.notes [⟨level, message⟩] together)

theorem lockstep_create (resource : Resource) :
    Lockstep failed kept kept (create resource) (create resource) := by
  intro w v together
  have moved := steady.moves w.store (w.serial + 1) together List.prefix_rfl
  rw [create_eq, create_eq, steady.store together, steady.serial together]
  exact .ok moved

theorem lockstep_register (item : Instance) :
    Lockstep failed kept kept (register item) (register item) := by
  intro w v together
  have store := steady.store together
  have serial := steady.serial together
  rw [register_eq, register_eq, store]
  split
  · have grows : w.store.identifiers <+: (w.store.keep item).identifiers := by
      rw [Store.identifiers_keep]
      split
      · exact List.prefix_rfl
      · exact List.prefix_append _ _
    have moved := steady.moves (w.store.keep item) w.serial
      (steady.notes (w.store.remark? item).toList together) grows
    rw [serial]
    exact .ok moved
  · exact .error (steady.fails (steady.notes _ together))

theorem lockstep_registerAll (items : List Instance) :
    Lockstep failed kept kept (registerAll items) (registerAll items) := by
  induction items with
  | nil => exact .pure id []
  | cons item rest ih =>
    refine .bind (lockstep_register steady item) fun identifier => ?_
    exact .bind ih fun identifiers => .pure id (identifier :: identifiers)

theorem lockstep_link (data : RelatedData) :
    Lockstep failed kept kept (link data) (link data) := by
  cases data with
  | none => exact .pure id _
  | reference identifier => exact .pure id _
  | built item => exact .bind (lockstep_register steady item) fun identifier => .pure id _
  | references identifiers => exact .pure id _
  | builtAll items =>
    exact .bind (lockstep_registerAll steady items) fun identifiers => .pure id _
  | foreign form => exact lockstep_fail steady (.invalidRelated form)

theorem lockstep_linkAll [Uri.Layout γ] (generator : γ) (identifier : Identifier)
    (data : List (String × RelatedData)) :
    Lockstep failed kept kept (linkAll generator identifier data)
      (linkAll generator identifier data) := by
  induction data with
  | nil => exact .pure id []
  | cons datum rest ih =>
    obtain ⟨name, data⟩ := datum
    have laid := lockstep_ofExcept steady (Uri.Layout.relationship generator identifier name)
    have found := lockstep_ofExcept steady (Uri.Layout.related generator identifier name)
    refine laid.bind fun self => ?_
    refine found.bind fun related => ?_
    refine .bind (lockstep_link steady data) fun linkage => ?_
    exact .bind ih fun others => .pure id _

theorem lockstep_ofOutcome {o o' : Outcome α} (same : o'.result = o.result)
    (noted : ∀ {w v}, before w v → kept (w.note o.records) (v.note o'.records)) :
    Lockstep failed before kept (ofOutcome o) (ofOutcome o') := by
  intro w v together
  have noted := noted together
  rw [ofOutcome_eq, ofOutcome_eq, same]
  cases o.result with
  | ok a => exact .ok noted
  | error fault => exact .error (steady.fails noted)

theorem lockstep_ask (o : Outcome α) : Lockstep failed kept kept (ofOutcome o) (ofOutcome o) :=
  lockstep_ofOutcome steady rfl fun together => steady.notes o.records together

end Primitive

structure Akin (plan plan' : Plan γ) : Prop where
  query : plan'.query = plan.query
  generator : plan'.generator = plan.generator
  identifier : ∀ place,
    (modelAt plan'.family place).identifier = (modelAt plan.family place).identifier

theorem Akin.refl (plan : Plan γ) : Akin plan plan := ⟨rfl, rfl, fun _ => rfl⟩

section Following

variable {plan plan' : Plan γ} {make make' : Nat → Build Instance}

theorem lockstep_identifier (steady : Steady failed kept) (akin : Akin plan plan') (place : Nat) :
    Lockstep failed kept kept (ofOutcome (modelAt plan.family place).identifier)
      (ofOutcome (modelAt plan'.family place).identifier) := by
  rw [akin.identifier place]
  exact lockstep_ask steady _

theorem lockstep_identifiersOf (steady : Steady failed kept) (akin : Akin plan plan')
    (places : List Nat) :
    Lockstep failed kept kept (identifiersOf plan.family places)
      (identifiersOf plan'.family places) := by
  induction places with
  | nil => exact .pure id []
  | cons place rest ih =>
    refine .bind (lockstep_identifier steady akin place) fun identifier => ?_
    exact .bind ih fun identifiers => .pure id (identifier :: identifiers)

variable (steady : Steady failed kept) (akin : Akin plan plan')
  (makes : ∀ place, Lockstep failed kept kept (make place) (make' place))

include makes in
theorem lockstep_makeAll (places : List Nat) :
    Lockstep failed kept kept (makeAll make places) (makeAll make' places) := by
  induction places with
  | nil => exact .pure id []
  | cons place rest ih =>
    refine .bind (makes place) fun item => ?_
    exact .bind ih fun items => .pure id (item :: items)

include steady akin makes

theorem lockstep_follow (name : String) (related : Related) :
    Lockstep failed kept kept (follow plan make name related) (follow plan' make' name related) := by
  cases related with
  | absent => exact .pure id _
  | one place =>
    simp only [follow, followOne, akin.query]
    split
    · refine .bind (lockstep_record steady _ _) fun _ => ?_
      exact .bind (makes place) fun item => .pure id _
    · exact .bind (lockstep_identifier steady akin place) fun identifier => .pure id _
  | many places =>
    simp only [follow, followMany, akin.query]
    split
    · refine .bind (lockstep_record steady _ _) fun _ => ?_
      exact .bind (lockstep_makeAll makes places) fun items => .pure id _
    · exact .bind (lockstep_identifiersOf steady akin places) fun identifiers =>
        .pure id _
  | stray fault =>
    simp only [follow, followStray, akin.query]
    split
    · exact .bind (lockstep_record steady _ _) fun _ => lockstep_fail steady fault
    · exact lockstep_fail steady fault
  | foreign form => exact .pure id _

theorem lockstep_followAll (relations : List (String × Related)) :
    Lockstep failed kept kept (followAll plan make relations) (followAll plan' make' relations) := by
  induction relations with
  | nil => exact .pure id []
  | cons relation rest ih =>
    obtain ⟨name, related⟩ := relation
    refine .bind (lockstep_follow steady akin makes name related) fun data => ?_
    exact .bind ih fun others => .pure id ((name, data) :: others)

theorem lockstep_relate [Uri.Layout γ] {model model' : Model}
    (told : Lockstep failed before kept (ofOutcome model.relations)
      (ofOutcome model'.relations)) (identifier : Identifier) :
    Lockstep failed before kept (relate plan make model identifier)
      (relate plan' make' model' identifier) := by
  have follows : Lockstep failed before kept (relatedData plan make model)
      (relatedData plan' make' model') := by
    refine .bind told fun relations => ?_
    cases relations with
    | none => exact .pure id none
    | some relations =>
      exact .bind (lockstep_followAll steady akin makes relations) fun data => .pure id _
  refine follows.bind fun data => ?_
  cases data with
  | none => exact .pure id none
  | some data =>
    rw [akin.generator]
    exact .bind (lockstep_linkAll steady plan.generator identifier data) fun relationships =>
      .pure id (some relationships)

end Following

section Making

variable [Uri.Layout γ] {start held shown linked : Workspace → Workspace → Prop} {plan plan' : Plan γ}
  {make make' : Nat → Build Instance}

def Lacking (start : Workspace → Workspace → Prop) (identifier : Identifier) (w v : Workspace) :
    Prop :=
  start w v ∧ w.store.find? identifier = none

/-- A resource that is not stored is built in the same steps on both sides. What holds between the
states may change when the identifier is reserved, and with each operation of the model. -/
theorem lockstep_construct (steady : Steady failed start) (settled : Steady failed kept)
    (akin : Akin plan plan') {model model' : Model} {identifier : Identifier}
    (reserves : ∀ {w v} (item : Instance), item.identifier = identifier → start w v →
      w.store.find? identifier = none →
        held (w.move (w.store.hold item) w.serial) (v.move (w.store.hold item) w.serial))
    (attributes : Lockstep failed held shown (ofOutcome (model.attributesFor plan.query))
      (ofOutcome (model'.attributesFor plan'.query)))
    (relates : Lockstep failed shown linked (relate plan make model identifier)
      (relate plan' make' model' identifier))
    (informs : Lockstep failed linked kept (ofOutcome model.info) (ofOutcome model'.info)) :
    Lockstep failed (Lacking start identifier) kept (construct plan make model identifier)
      (construct plan' make' model' identifier) := by
  -- Up to the reservation nothing happens to the store.
  have laid : Lockstep failed (Lacking start identifier) (Lacking start identifier)
      (ofExcept (Uri.Layout.resource plan.generator identifier))
      (ofExcept (Uri.Layout.resource plan'.generator identifier)) := by
    rw [akin.generator]
    cases Uri.Layout.resource plan.generator identifier with
    | ok self => exact .pure id self
    | error fault => exact fun _ _ together => .error (steady.fails (steady.notes _ together.1))
  have creates (resource : Resource) : Lockstep failed (Lacking start identifier)
      (Lacking start identifier) (create resource) (create resource) := by
    rintro w v ⟨together, absent⟩
    have moved := steady.moves w.store (w.serial + 1) together List.prefix_rfl
    rw [create_eq, create_eq, steady.store together, steady.serial together]
    exact .ok ⟨moved, absent⟩
  have holds (item : Instance) (own : item.identifier = identifier) :
      Lockstep failed (Lacking start identifier) held (reserve item) (reserve item) := by
    rintro w v ⟨together, absent⟩
    rw [reserve_eq, reserve_eq, steady.store together]
    split
    · have reserved : held (w.move (w.store.hold item) w.serial)
          (v.move (w.store.hold item) v.serial) := by
        rw [steady.serial together]
        exact reserves item own together absent
      exact .ok reserved
    · exact .error (steady.fails (steady.notes _ together))
  refine laid.bind fun self => ?_
  refine (creates _).bind_given fun item _ _ created => ?_
  have own : item.identifier = identifier := by
    rw [(create_ok created).1]
    rfl
  refine (holds item own).bind fun _ => ?_
  refine .bind attributes fun attributes => ?_
  refine .bind relates fun relationships => ?_
  refine .bind informs fun info => ?_
  refine .bind (lockstep_create settled _) fun item => ?_
  exact .bind (lockstep_register settled item) fun _ => .pure id item

omit [Uri.Layout γ] in
theorem lockstep_storedOr (steady : Steady failed start) (akin : Akin plan plan') (place : Nat)
    {otherwise otherwise' : Identifier → Build Instance}
    (passes : ∀ {w v}, start w v → kept w v)
    (rest : ∀ identifier, (modelAt plan.family place).identifier.result = .ok identifier →
      Lockstep failed (Lacking start identifier) kept (otherwise identifier)
        (otherwise' identifier)) :
    Lockstep failed start kept (storedOr (modelAt plan.family place) otherwise)
      (storedOr (modelAt plan'.family place) otherwise') := by
  refine .bind_given (lockstep_identifier steady akin place) fun identifier _ _ asked => ?_
  obtain ⟨given, _, _⟩ := ofOutcome_ok asked
  intro w v together
  have store := steady.store together
  by_cases hashable : identifier.kind.isHashable = true
  · have one : stored? identifier w = .ok (w.store.find? identifier) w := by
      rw [stored?, if_pos hashable]
      rfl
    have other : stored? identifier v = .ok (w.store.find? identifier) v := by
      rw [stored?, if_pos hashable, ← store]
      rfl
    simp only [Bind.bind, EStateM.bind, one, other]
    cases found : w.store.find? identifier with
    | some item => exact .ok (passes together)
    | none => exact rest identifier given w v ⟨together, found⟩
  · have one : ∀ w, stored? identifier w = fail .wrongType w := by
      intro w
      rw [stored?, if_neg hashable]
    simp only [Bind.bind, EStateM.bind, one]
    exact .error (steady.fails (steady.notes _ together))

end Making

end Build

end JsonApi
