import JsonApi.Proofs.Building.Lockstep
import JsonApi.Proofs.Traversal.Making

/-!
Builds that fail. A build makes calls for related models, and it fails by itself or because one of
them does. Main statements: following and linking relationships either fails by itself or fails with
whatever a call fails with, in a state that has gone along a walk; and a call for a resource that is
not stored does nothing to the store before it reserves the identifier.
-/

namespace JsonApi.Walk

open Build

variable {α β γ : Type} [Uri.Layout γ] {plan : Plan γ} {visited later : List Nat}
  {w v left : Workspace} {place : Nat} {identifier : Identifier} {item : Instance}
  {fault : Fault} {make : Nat → Build Instance}

def Onward (plan : Plan γ) (visited : List Nat) (w v : Workspace) : Prop :=
  ∃ later, visited <+: later ∧ Tracks plan later v ∧ Grows w v

theorem Onward.refl (tracks : Tracks plan visited w) : Onward plan visited w w :=
  ⟨visited, List.prefix_rfl, tracks, .of_eq rfl (Nat.le_refl _)⟩

theorem Onward.of_advances {places : List Nat} (advances : Advances plan places visited later w v) :
    Onward plan visited w v :=
  ⟨later, advances.walked.grows, advances.tracks, advances.grows⟩

theorem Onward.after (grows : Grows w v) (further : visited <+: later)
    (onward : Onward plan later v left) : Onward plan visited w left := by
  obtain ⟨final, longer, tracks, growth⟩ := onward
  exact ⟨final, further.trans longer, tracks, grows.trans growth⟩

structure Quiet (build : Build α) (w : Workspace) : Prop where
  store : (build.leave w).store = w.store
  serial : w.serial ≤ (build.leave w).serial

theorem Quiet.onward {build : Build α} (quiet : Quiet build w) (tracks : Tracks plan visited w) :
    Onward plan visited w (build.leave w) :=
  ⟨visited, List.prefix_rfl, tracks.of_eq quiet.store quiet.serial, .of_eq quiet.store quiet.serial⟩

theorem quiet_of_leave {build : Build α} (left : build.leave w = v) (store : v.store = w.store)
    (serial : v.serial = w.serial) : Quiet build w where
  store := by rw [left, store]
  serial := Nat.le_of_eq (by rw [left, serial])

theorem quiet_pure (a : α) (w : Workspace) : Quiet (pure a) w := ⟨rfl, Nat.le_refl _⟩

theorem quiet_fail (fault : Fault) (w : Workspace) : Quiet (fail fault : Build α) w :=
  ⟨rfl, Nat.le_refl _⟩

theorem quiet_record (level : Level) (message : String) (w : Workspace) :
    Quiet (record level message) w :=
  ⟨rfl, Nat.le_refl _⟩

theorem quiet_create (resource : Resource) (w : Workspace) : Quiet (create resource) w :=
  ⟨rfl, Nat.le_succ _⟩

theorem quiet_ofExcept (result : Except Fault α) (w : Workspace) : Quiet (Build.ofExcept result) w := by
  cases result with
  | ok a => exact quiet_pure a w
  | error fault => exact quiet_fail fault w

theorem quiet_ofOutcome (o : Outcome α) (w : Workspace) : Quiet (ofOutcome o) w := by
  have left : (ofOutcome o).leave w = w.note o.records := by
    rw [Build.leave, ofOutcome_eq]
    cases o.result with
    | ok a => rfl
    | error fault => rfl
  exact quiet_of_leave left rfl rfl

theorem Quiet.bind {build : Build α} {next : α → Build β} (quiet : Quiet build w)
    (rest : ∀ a v, build w = .ok a v → v.store = w.store → Quiet (next a) v) :
    Quiet (build >>= next) w := by
  cases run : build w with
  | ok a v =>
    have store := quiet.store
    have serial := quiet.serial
    rw [leave_of_ok run] at store serial
    have after := rest a v run store
    have left : (build >>= next).leave w = (next a).leave v := by
      unfold Build.leave
      rw [bind_of_ok run]
    exact ⟨by rw [left, after.store, store], by rw [left]; exact Nat.le_trans serial after.serial⟩
  | error fault v =>
    have left : (build >>= next).leave w = build.leave w := by
      rw [leave_of_error run, leave_of_error (bind_of_error run)]
    exact ⟨by rw [left, quiet.store], by rw [left]; exact quiet.serial⟩

def Extends (make make' : Nat → Build Instance) : Prop :=
  ∀ place w item w', make place w = .ok item w' → make' place w = .ok item w'

/-- How a build fails that makes calls for targets: whatever calls of another kind do that fail, it
fails in the same way; or it fails with whatever the call for one of the targets fails with. -/
inductive Fails (plan : Plan γ) (make : Nat → Build Instance) (visited : List Nat)
    (targets : Nat → Prop) (build : (Nat → Build Instance) → Build α) (w : Workspace) (fault : Fault)
    (left : Workspace) : Prop where
  | alone (onward : Onward plan visited w left)
    (alone : ∀ make', Extends make make' → build make' w = .error fault left) :
    Fails plan make visited targets build w fault left
  | within {target : Nat} {v : Workspace} (called : targets target) (onward : Onward plan visited w v)
    (failed : make target v = .error fault left)
    (carried : ∀ make', Extends make make' → ∀ fault' left', make' target v = .error fault' left' →
      build make' w = .error fault' left') :
    Fails plan make visited targets build w fault left

/-- A build that makes calls for targets, and does nothing else but to go along a walk. -/
structure Calls (plan : Plan γ) (make : Nat → Build Instance) (visited : List Nat)
    (targets : Nat → Prop) (build : (Nat → Build Instance) → Build α) (w : Workspace) : Prop where
  passes : ∀ a v, build make w = .ok a v →
    Onward plan visited w v ∧ ∀ make', Extends make make' → build make' w = .ok a v
  fails : ∀ fault left, build make w = .error fault left →
    Fails plan make visited targets build w fault left

variable {targets : Nat → Prop}

theorem Quiet.calls {build : Build α} (quiet : Quiet build w) (tracks : Tracks plan visited w) :
    Calls plan make visited targets (fun _ => build) w where
  passes a v run := by
    have onward := quiet.onward tracks
    rw [leave_of_ok run] at onward
    exact ⟨onward, fun _ _ => run⟩
  fails fault left failed := by
    have onward := quiet.onward tracks
    rw [leave_of_error failed] at onward
    exact .alone onward fun _ _ => failed

theorem calls_target (makes : Makes plan make) (tracks : Tracks plan visited w)
    (called : targets place) : Calls plan make visited targets (fun make => make place) w where
  passes item v run := by
    obtain ⟨_, later, advances⟩ := makes tracks run
    exact ⟨.of_advances advances, fun _ extend => extend place w item v run⟩
  fails fault left failed := .within called (.refl tracks) failed fun _ _ _ _ failed => failed

theorem Calls.bind {build : (Nat → Build Instance) → Build α}
    {next : α → (Nat → Build Instance) → Build β} (calls : Calls plan make visited targets build w)
    (rest : ∀ a v later, build make w = .ok a v → Tracks plan later v →
      Calls plan make later targets (next a) v) :
    Calls plan make visited targets (fun make => build make >>= fun a => next a make) w where
  passes b left run := by
    obtain ⟨a, v, first, second⟩ := bind_ok run
    obtain ⟨⟨later, further, tracks, grows⟩, same⟩ := calls.passes a v first
    obtain ⟨onward, same'⟩ := (rest a v later first tracks).passes b left second
    refine ⟨onward.after grows further, fun make' extend => ?_⟩
    rw [bind_of_ok (same make' extend)]
    exact same' make' extend
  fails fault left failed := by
    rcases bind_error failed with first | ⟨a, v, first, second⟩
    · cases calls.fails fault left first with
      | alone onward alone =>
        exact .alone onward fun make' extend => bind_of_error (alone make' extend)
      | within called onward failed carried =>
        refine .within called onward failed fun make' extend fault' left' failed' => ?_
        exact bind_of_error (carried make' extend fault' left' failed')
    · obtain ⟨⟨later, further, tracks, grows⟩, same⟩ := calls.passes a v first
      cases (rest a v later first tracks).fails fault left second with
      | alone onward alone =>
        refine .alone (onward.after grows further) fun make' extend => ?_
        rw [bind_of_ok (same make' extend)]
        exact alone make' extend
      | within called onward failed carried =>
        refine .within called (onward.after grows further) failed ?_
        intro make' extend fault' left' failed'
        rw [bind_of_ok (same make' extend)]
        exact carried make' extend fault' left' failed'

theorem calls_makeAll (makes : Makes plan make) {places : List Nat} (tracks : Tracks plan visited w)
    (called : ∀ place ∈ places, targets place) :
    Calls plan make visited targets (fun make => makeAll make places) w := by
  induction places generalizing visited w with
  | nil => exact (quiet_pure [] w).calls tracks
  | cons place rest ih =>
    have first : Calls plan make visited targets (fun make => make place) w :=
      calls_target makes tracks (called place List.mem_cons_self)
    refine first.bind fun item v later _ tracks => ?_
    refine (ih tracks fun place member => called place (List.mem_cons_of_mem _ member)).bind ?_
    exact fun items v later _ tracks => (quiet_pure (item :: items) v).calls tracks

theorem quiet_identifiersOf (family : List Model) (places : List Nat) (w : Workspace) :
    Quiet (identifiersOf family places) w := by
  induction places generalizing w with
  | nil => exact quiet_pure [] w
  | cons place rest ih =>
    refine (quiet_ofOutcome _ w).bind fun identifier v _ _ => ?_
    exact (ih v).bind fun identifiers v' _ _ => quiet_pure (identifier :: identifiers) v'

theorem calls_follow (makes : Makes plan make) (tracks : Tracks plan visited w) {name : String}
    {related : Related}
    (called : plan.query.includes name = true → ∀ place ∈ related.targets, targets place) :
    Calls plan make visited targets (fun make => follow plan make name related) w := by
  have recorded := quiet_record .debug ("Including " ++ name) w
  cases related with
  | absent => exact (quiet_pure _ w).calls tracks
  | one place =>
    simp only [follow, followOne]
    split
    next included =>
      refine (recorded.calls tracks).bind fun _ v later _ tracks => ?_
      refine (calls_target makes tracks (called included place List.mem_cons_self)).bind ?_
      exact fun item v later _ tracks => (quiet_pure _ v).calls tracks
    next =>
      refine Quiet.calls ?_ tracks
      exact (quiet_ofOutcome _ w).bind fun identifier v _ _ => quiet_pure _ v
  | many places =>
    simp only [follow, followMany]
    split
    next included =>
      refine (recorded.calls tracks).bind fun _ v later _ tracks => ?_
      refine (calls_makeAll makes tracks (called included)).bind ?_
      exact fun items v later _ tracks => (quiet_pure _ v).calls tracks
    next =>
      refine Quiet.calls ?_ tracks
      exact (quiet_identifiersOf _ places w).bind fun identifiers v _ _ => quiet_pure _ v
  | stray fault =>
    have quiet : Quiet (followStray plan name fault) w := by
      unfold followStray
      split
      · exact recorded.bind fun _ v _ _ => quiet_fail fault v
      · exact quiet_fail fault w
    exact quiet.calls tracks
  | foreign form => exact (quiet_pure _ w).calls tracks

theorem calls_followAll (makes : Makes plan make) {relations : List (String × Related)}
    (tracks : Tracks plan visited w)
    (called : ∀ place ∈ followed plan.query relations, targets place) :
    Calls plan make visited targets (fun make => followAll plan make relations) w := by
  induction relations generalizing visited w with
  | nil => exact (quiet_pure [] w).calls tracks
  | cons relation rest ih =>
    rw [followed, List.flatMap_cons] at called
    have first : Calls plan make visited targets
        (fun make => follow plan make relation.1 relation.2) w := by
      refine calls_follow makes tracks fun included place member => ?_
      rw [if_pos included] at called
      exact called place (List.mem_append_left _ member)
    refine first.bind fun data v later _ tracks => ?_
    refine (ih tracks fun place member => called place (List.mem_append_right _ member)).bind ?_
    exact fun others v later _ tracks => (quiet_pure _ v).calls tracks

/-- Registering what is stored changes nothing. -/
theorem quiet_register (tracks : Tracks plan visited w) (same : v.store = w.store)
    (found : w.store.find? identifier = some item) : Quiet (register item) v := by
  have kept : v.store.keep item = v.store := by
    rw [same]
    exact Store.keep_of_itself (Store.get?_of_find? tracks.sound found) rfl
  have eq := register_eq item v
  rw [kept] at eq
  split at eq
  · exact quiet_of_leave (leave_of_ok eq) rfl rfl
  · exact quiet_of_leave (leave_of_error eq) rfl rfl

theorem quiet_registerAll (tracks : Tracks plan visited w) {places : List Nat} {items : List Instance}
    (made : List.Forall₂ (Made plan w) places items) (same : v.store = w.store) :
    Quiet (registerAll items) v := by
  induction made generalizing v with
  | nil => exact quiet_pure [] v
  | @cons place item places items here _ ih =>
    obtain ⟨identifier, _, found⟩ := here
    refine (quiet_register tracks same found).bind fun identifier v' _ store => ?_
    refine (ih (store.trans same)).bind fun identifiers v'' _ _ => ?_
    exact quiet_pure (identifier :: identifiers) v''

theorem quiet_link (tracks : Tracks plan visited w) {name : String} {related : Related}
    {data : RelatedData} (depicts : Depicts plan w name related data) (same : v.store = w.store) :
    Quiet (link data) v := by
  cases depicts with
  | absent => exact quiet_pure _ v
  | reference => exact quiet_pure _ v
  | built _ made =>
    obtain ⟨identifier, _, found⟩ := made
    exact (quiet_register tracks same found).bind fun identifier v' _ _ => quiet_pure _ v'
  | references => exact quiet_pure _ v
  | builtAll _ made =>
    exact (quiet_registerAll tracks made same).bind fun identifiers v' _ _ => quiet_pure _ v'
  | foreign form => exact quiet_fail _ v

/-- Linkage is laid out without a change to the store, for what it leads to is stored. -/
theorem quiet_linkAll (tracks : Tracks plan visited w) {relations : List (String × Related)}
    {data : List (String × RelatedData)}
    (depict : List.Forall₂ (Entries.Alike (Depicts plan w)) relations data)
    (same : v.store = w.store) : Quiet (linkAll plan.generator identifier data) v := by
  induction depict generalizing v with
  | nil => exact quiet_pure [] v
  | @cons relation datum relations data here _ ih =>
    obtain ⟨_, depicts⟩ := here
    refine (quiet_ofExcept _ v).bind fun self v₁ _ first => ?_
    refine (quiet_ofExcept _ v₁).bind fun related v₂ _ second => ?_
    have stored := second.trans (first.trans same)
    refine (quiet_link tracks depicts stored).bind fun linkage v₃ _ third => ?_
    refine (ih (third.trans stored)).bind fun others v₄ _ _ => ?_
    exact quiet_pure _ v₄

theorem depicts_of_relatedData (makes : Makes plan make) (tracks : Tracks plan visited w)
    {data : List (String × RelatedData)}
    (run : relatedData plan make (modelAt plan.family place) w = .ok (some data) v) :
    ∃ relations later, Tracks plan later v ∧
      List.Forall₂ (Entries.Alike (Depicts plan v)) relations data := by
  obtain ⟨told, w₁, asked, run⟩ := bind_ok run
  obtain ⟨_, store, serial⟩ := ofOutcome_ok asked
  cases told with
  | none =>
    obtain ⟨absent, _⟩ := pure_ok run
    cases absent
  | some relations =>
    obtain ⟨listed, w₂, followed, run⟩ := bind_ok run
    obtain ⟨same, rfl⟩ := pure_ok run
    cases same
    have still := tracks.of_eq store (Nat.le_of_eq serial.symm)
    obtain ⟨depict, later, advances⟩ := followAll_ok makes still followed
    exact ⟨_, later, advances.tracks, Entries.forall₂_putAll depict .nil⟩

theorem calls_relate (makes : Makes plan make) (start : Tracks plan visited w) (place : Nat)
    (identifier : Identifier) :
    Calls plan make visited (Leads plan.query plan.family place)
      (fun make => relate plan make (modelAt plan.family place) identifier) w := by
  have follows : Calls plan make visited (Leads plan.query plan.family place)
      (fun make => relatedData plan make (modelAt plan.family place)) w := by
    refine ((quiet_ofOutcome (modelAt plan.family place).relations w).calls start).bind ?_
    intro told v later asked tracks
    cases told with
    | none => exact (quiet_pure none v).calls tracks
    | some relations =>
      obtain ⟨telling, _, _⟩ := ofOutcome_ok asked
      have told := relationsAt_of_result telling
      refine (calls_followAll makes tracks fun target member => ⟨relations, told, member⟩).bind ?_
      exact fun data v later _ tracks => (quiet_pure _ v).calls tracks
  refine follows.bind fun data v later run tracks => ?_
  cases data with
  | none => exact (quiet_pure none v).calls tracks
  | some data =>
    obtain ⟨relations, _, still, depict⟩ := depicts_of_relatedData makes start run
    have linked : Quiet (linkAll plan.generator identifier data) v := quiet_linkAll still depict rfl
    refine (linked.calls tracks).bind fun relationships v later _ tracks => ?_
    exact (quiet_pure (some relationships) v).calls tracks

def finish (plan : Plan γ) (make : Nat → Build Instance) (model : Model) (identifier : Identifier)
    (links : Links) : Build Instance := do
  let attributes ← ofOutcome (model.attributesFor plan.query)
  let relationships ← relate plan make model identifier
  let info ← ofOutcome model.info
  create ⟨identifier, attributes, relationships, some links, info⟩

theorem calls_finish (makes : Makes plan make) (tracks : Tracks plan visited w) (place : Nat)
    (identifier : Identifier) (links : Links) :
    Calls plan make visited (Leads plan.query plan.family place)
      (fun make => finish plan make (modelAt plan.family place) identifier links) w := by
  refine ((quiet_ofOutcome _ w).calls tracks).bind fun attributes v later _ tracks => ?_
  refine (calls_relate makes tracks place identifier).bind fun relationships v later _ tracks => ?_
  refine ((quiet_ofOutcome _ v).calls tracks).bind fun info v later _ tracks => ?_
  exact (quiet_create _ v).calls tracks

theorem finish_ok {model : Model} {links : Links}
    (run : finish plan make model identifier links w = .ok item v) :
    item.identifier = identifier := by
  obtain ⟨attributes, w₁, _, run⟩ := bind_ok run
  obtain ⟨relationships, w₂, _, run⟩ := bind_ok run
  obtain ⟨info, w₃, _, run⟩ := bind_ok run
  rw [(create_ok run).1]
  rfl

theorem construct_eq (plan : Plan γ) (make : Nat → Build Instance) (model : Model)
    (identifier : Identifier) :
    construct plan make model identifier = (do
      let self ← Build.ofExcept (Uri.Layout.resource plan.generator identifier)
      let item ← create (placeholder identifier ⟨some self, none, none⟩)
      let _ ← reserve item
      let item ← finish plan make model identifier ⟨some self, none, none⟩
      let _ ← register item
      return item) := by
  simp only [construct, finish, bind_assoc]

end JsonApi.Walk
