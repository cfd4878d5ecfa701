import JsonApi.Proofs.Building.Nesting
import JsonApi.Proofs.Traversal.Calls
import JsonApi.Proofs.Traversal.Spelling

/-!
What a failed call leaves behind. Nothing is taken back when a build fails, so placeholders stay for
the resources that were under construction. Main statement: a failed call changes none of the entries
that were there; of the entries that it adds, those are placeholders whose identifiers the calls on
the way to the failure had reserved, and all others are finished.
-/

namespace JsonApi.Walk

open Build

variable {γ : Type} [Uri.Layout γ] {plan : Plan γ} {visited later : List Nat}
  {w v left : Workspace} {place n : Nat} {identifier : Identifier} {item : Instance} {link : String}
  {fault : Fault} {make : Nat → Build Instance} {chain : List Identifier}
  {added : List (Identifier × Instance)}

/-- The identifier of a model that is not stored has been reserved, and nothing else has happened. -/
structure Opens (plan : Plan γ) (visited : List Nat) (place : Nat) (link : String) (item : Instance)
    (before : Store) (v : Workspace) : Prop where
  given : identifierAt plan.family place = some item.identifier
  absent : before.find? item.identifier = none
  laid : Uri.Layout.resource plan.generator item.identifier = .ok link
  bare : item.resource = placeholder item.identifier ⟨some link, none, none⟩
  persisted : item.identifier.isPersisted = true
  store : v.store = before.hold item
  entries : v.store.entries = before.entries ++ [(item.identifier, item)]
  reserved : v.store.reserved = before.reserved ++ [item.identifier]
  tracks : Tracks plan (visited ++ [place]) v

/-- A model that fails to tell its identifier, or whose resource is stored, leaves nothing to do. -/
theorem storedOr_cases (model : Model) (w : Workspace) :
    (∃ build : Build Instance, Quiet build w ∧ ∀ otherwise, storedOr model otherwise w = build w) ∨
      ∃ identifier, model.identifier.result = .ok identifier ∧ w.store.find? identifier = none ∧
        ∀ otherwise, storedOr model otherwise w =
          otherwise identifier (w.note model.identifier.records) := by
  have asks := ofOutcome_eq model.identifier w
  cases given : model.identifier.result with
  | error fault =>
    rw [given] at asks
    let build : Build Instance := fun _ => .error fault (w.note model.identifier.records)
    exact Or.inl ⟨build, ⟨rfl, Nat.le_refl _⟩, fun otherwise => bind_of_error asks⟩
  | ok identifier =>
    rw [given] at asks
    by_cases hashable : identifier.kind.isHashable = true
    · let heard := w.note model.identifier.records
      have looked : stored? identifier heard = .ok (w.store.find? identifier) heard := by
        rw [stored?, if_pos hashable]
        rfl
      cases found : w.store.find? identifier with
      | some item =>
        rw [found] at looked
        let build : Build Instance := fun _ => .ok item heard
        refine Or.inl ⟨build, ⟨rfl, Nat.le_refl _⟩, fun otherwise => ?_⟩
        rw [storedOr, bind_of_ok asks, bind_of_ok looked]
        rfl
      | none =>
        rw [found] at looked
        refine Or.inr ⟨identifier, rfl, found, fun otherwise => ?_⟩
        rw [storedOr, bind_of_ok asks, bind_of_ok looked]
    · have looks (w : Workspace) : stored? identifier w = fail .wrongType w := by
        rw [stored?, if_neg hashable]
      let build : Build Instance := fun _ => fail .wrongType (w.note model.identifier.records)
      refine Or.inl ⟨build, ⟨rfl, Nat.le_refl _⟩, fun otherwise => ?_⟩
      rw [storedOr, bind_of_ok asks]
      exact bind_of_error (looks _)

def conclude (plan : Plan γ) (make : Nat → Build Instance) (place : Nat) (identifier : Identifier)
    (link : String) : Build Instance := do
  let item ← finish plan make (modelAt plan.family place) identifier ⟨some link, none, none⟩
  let _ ← register item
  return item

/-- A resource that is not stored cannot be reserved, or it is reserved first. -/
theorem construct_cases (tracks : Tracks plan visited w)
    (given : identifierAt plan.family place = some identifier)
    (absent : w.store.find? identifier = none) :
    (∃ build : Build Instance, Quiet build w ∧ ∀ make,
      construct plan make (modelAt plan.family place) identifier w = build w) ∨
    ∃ link item v, Opens plan visited place link item w.store v ∧ ∀ make,
      construct plan make (modelAt plan.family place) identifier w =
        conclude plan make place item.identifier link v := by
  cases laid : Uri.Layout.resource plan.generator identifier with
  | error fault =>
    refine Or.inl ⟨fail fault, quiet_fail fault w, fun make => ?_⟩
    rw [construct_eq, laid]
    exact bind_of_error rfl
  | ok link =>
    let item : Instance := ⟨w.serial, placeholder identifier ⟨some link, none, none⟩⟩
    let created : Workspace := w.move w.store (w.serial + 1)
    have steps (make : Nat → Build Instance) :
        construct plan make (modelAt plan.family place) identifier w =
          (reserve item >>= fun _ => conclude plan make place identifier link) created := by
      rw [construct_eq, laid]
      rfl
    have reserves := reserve_eq item created
    by_cases persisted : item.identifier.isPersisted = true
    · rw [if_pos persisted] at reserves
      let held : Workspace := { created with store := created.store.hold item }
      obtain ⟨entries, reserved, after⟩ : held.store.entries = _ ∧ held.store.reserved = _ ∧ _ :=
        tracks.reserve item given absent persisted (Nat.lt_succ_self _) (Nat.le_succ _) rfl
      have opens : Opens plan visited place link item w.store held :=
        ⟨given, absent, laid, rfl, persisted, rfl, entries, reserved, after⟩
      refine Or.inr ⟨link, item, held, opens, fun make => ?_⟩
      rw [steps, bind_of_ok reserves]
      rfl
    · rw [if_neg persisted] at reserves
      let build : Build Instance :=
        fun _ => .error (.breach (.unstorable item.identifier)) (refusing created item)
      refine Or.inl ⟨build, ⟨rfl, Nat.le_succ _⟩, fun make => ?_⟩
      rw [steps]
      exact bind_of_error reserves

/-- A call leaves the store alone and makes no further calls, or it reserves an identifier and goes on
from there. -/
theorem expand_cases (tracks : Tracks plan visited w) (place : Nat) :
    (∃ build : Build Instance, Quiet build w ∧ ∀ make, expand plan make place w = build w) ∨
      ∃ link item v, Opens plan visited place link item w.store v ∧ ∀ make,
        expand plan make place w = conclude plan make place item.identifier link v := by
  rcases storedOr_cases (modelAt plan.family place) w with
    ⟨build, quiet, same⟩ | ⟨identifier, answer, absent, same⟩
  · exact Or.inl ⟨build, quiet, fun make => same _⟩
  · have given := identifierAt_of_result answer
    let asked : Workspace := w.note (modelAt plan.family place).identifier.records
    have still : Tracks plan visited asked := tracks.of_eq rfl (Nat.le_refl _)
    rcases construct_cases still given absent with ⟨build, quiet, same'⟩ | ⟨link, item, v, opens, same'⟩
    · refine Or.inl ⟨fun _ => build asked, ⟨quiet.store, quiet.serial⟩, fun make => ?_⟩
      exact (same _).trans (same' make)
    · exact Or.inr ⟨link, item, v, opens, fun make => (same _).trans (same' make)⟩

/-- Nothing fails after the last call: an identifier that has been reserved is registered. -/
theorem conclude_error {v : Workspace} (persisted : identifier.isPersisted = true)
    (failed : conclude plan make place identifier link v = .error fault left) :
    finish plan make (modelAt plan.family place) identifier ⟨some link, none, none⟩ v =
      .error fault left := by
  rcases bind_error failed with first | ⟨item, w₁, finished, rest⟩
  · exact first
  · have own : item.identifier.isPersisted = true := by
      rw [finish_ok finished]
      exact persisted
    have registers := register_eq item w₁
    rw [if_pos own] at registers
    rw [bind_of_ok registers] at rest
    cases rest

/-- The calls on the way to a failure, and the identifiers that they have reserved. Each call fails
with whatever the next one fails with, and the last one fails by itself: whatever calls do that fail
elsewhere makes no difference to it. -/
inductive Interrupted (plan : Plan γ) (fault : Fault) (left : Workspace) :
    Nat → Workspace → List Identifier → Prop where
  /-- Nothing has been reserved, and no call has been made. -/
  | outside {place : Nat} {w : Workspace} (untouched : left.store = w.store)
    (alone : ∀ make', expand plan make' place w = .error fault left) :
    Interrupted plan fault left place w []
  /-- The identifier has been reserved, and all calls since then have come to an end. -/
  | inside {place : Nat} {w : Workspace} {identifier : Identifier}
    (given : identifierAt plan.family place = some identifier)
    (absent : w.store.find? identifier = none)
    (reserved : left.store.reserved = w.store.reserved ++ [identifier])
    (alone : ∀ make', Extends (Build.make plan) make' → expand plan make' place w = .error fault left) :
    Interrupted plan fault left place w [identifier]
  /-- The identifier has been reserved, and a call for what the model leads to fails. -/
  | nested {place target : Nat} {w v : Workspace} {identifier : Identifier} {chain : List Identifier}
    (given : identifierAt plan.family place = some identifier)
    (absent : w.store.find? identifier = none)
    (reserved : v.store.reserved = w.store.reserved ++ [identifier])
    (leads : Leads plan.query plan.family place target)
    (carried : ∀ make', Extends (Build.make plan) make' → ∀ fault' left',
      make' target v = .error fault' left' → expand plan make' place w = .error fault' left')
    (deeper : Interrupted plan fault left target v chain) :
    Interrupted plan fault left place w (identifier :: chain)

def Bare (plan : Plan γ) (entry : Identifier × Instance) : Prop :=
  ∃ link, Uri.Layout.resource plan.generator entry.1 = .ok link ∧
    entry.2.resource = placeholder entry.1 ⟨some link, none, none⟩

/-- What a call leaves that has reserved identifiers: it has added entries, and those of the reserved
identifiers are placeholders. -/
structure Leaves (plan : Plan γ) (visited : List Nat) (w left : Workspace)
    (added : List (Identifier × Instance)) (chain : List Identifier) : Prop where
  entries : left.store.entries = w.store.entries ++ added
  reserved : left.store.reserved = w.store.reserved ++ chain
  listed : chain.Sublist (Entries.keys added)
  bare : ∀ entry ∈ added, entry.1 ∈ chain → Bare plan entry
  tracks : ∃ later, visited <+: later ∧ Tracks plan later left

theorem Leaves.of_untouched (tracks : Tracks plan visited left) (same : left.store = w.store) :
    Leaves plan visited w left [] [] where
  entries := by rw [same, List.append_nil]
  reserved := by rw [same, List.append_nil]
  listed := List.Sublist.slnil
  bare entry member := absurd member List.not_mem_nil
  tracks := ⟨visited, List.prefix_rfl, tracks⟩

/-- A failure after the reservation of an identifier leaves what it leaves and the placeholder. -/
theorem Opens.leaves {u : Workspace} {added : List (Identifier × Instance)}
    (opens : Opens plan visited place link item w.store v) (further : visited ++ [place] <+: later)
    (grows : Grows v u) (leaves : Leaves plan later u left added chain) :
    ∃ more, Leaves plan visited w left more (item.identifier :: chain) := by
  obtain ⟨between, grown⟩ := grows.entries
  have entries : left.store.entries =
      w.store.entries ++ (item.identifier, item) :: (between ++ added) := by
    rw [leaves.entries, ← grown, opens.entries]
    simp
  obtain ⟨final, longer, tracks⟩ := leaves.tracks
  have distinct := tracks.nodup
  rw [Store.identifiers, Entries.keys, entries, List.map_append, List.map_cons, List.map_append]
    at distinct
  obtain ⟨fresh, apart⟩ := List.nodup_cons.mp (List.nodup_append.mp distinct).2.1
  refine ⟨(item.identifier, item) :: (between ++ added), entries, ?_, ?_, ?_, final, ?_, tracks⟩
  · rw [leaves.reserved, grows.reserved, opens.reserved, List.append_assoc, List.singleton_append]
  · have within : chain.Sublist (Entries.keys (between ++ added)) := by
      rw [Entries.keys, List.map_append]
      exact leaves.listed.trans (List.sublist_append_right _ _)
    exact within.cons_cons _
  · intro entry member reserved
    rcases List.mem_cons.mp member with rfl | member
    · exact ⟨link, opens.laid, opens.bare⟩
    have listed : entry.1 ∈ chain := by
      rcases List.mem_cons.mp reserved with same | listed
      · rw [← same, ← List.map_append] at fresh
        exact absurd (List.mem_map_of_mem member) fresh
      · exact listed
    rcases List.mem_append.mp member with earlier | later
    · have disjoint := List.disjoint_of_nodup_append apart
      exact absurd (leaves.listed.subset listed) (disjoint (List.mem_map_of_mem earlier))
    · exact leaves.bare entry later listed
  · exact (List.prefix_append _ _).trans (further.trans longer)

/-- A call that fails is interrupted somewhere. The induction is on the number of identifiers that are
not stored, for calls are nested no deeper than that. -/
theorem interrupted_of_few (few : FreshAtMost plan.family w.store n) (tracks : Tracks plan visited w)
    (failed : Build.make plan place w = .error fault left) :
    ∃ chain added, Interrupted plan fault left place w chain ∧
      Leaves plan visited w left added chain := by
  induction n using Nat.strongRecOn generalizing visited w place with
  | ind n ih =>
    rw [make_eq_expand] at failed
    rcases expand_cases tracks place with ⟨build, quiet, same⟩ | ⟨link, item, v, opens, same⟩
    · rw [same] at failed
      have still := quiet.store
      have serial := quiet.serial
      rw [leave_of_error failed] at still serial
      refine ⟨[], [], .outside still fun make' => (same make').trans failed, ?_⟩
      exact .of_untouched (tracks.of_eq still serial) still
    · rw [same] at failed
      have finishing := conclude_error opens.persisted failed
      obtain ⟨m, rfl⟩ := Nat.exists_eq_succ_of_ne_zero
        (Nat.ne_of_gt (few.pos opens.given opens.absent))
      have fewer : FreshAtMost plan.family v.store m := by
        rw [opens.store]
        exact few.hold item opens.given opens.absent
      have calls := calls_finish (makes_make plan) opens.tracks place item.identifier
        ⟨some link, none, none⟩
      cases calls.fails fault left finishing with
      | alone onward alone =>
        obtain ⟨later, further, tracks, grows⟩ := onward
        obtain ⟨added, leaves⟩ := opens.leaves further grows (.of_untouched tracks rfl)
        refine ⟨[item.identifier], added, .inside opens.given opens.absent leaves.reserved ?_, leaves⟩
        intro make' extend
        exact (same make').trans (bind_of_error (alone make' extend))
      | @within target u leads onward failed carried =>
        obtain ⟨later, further, tracks, grows⟩ := onward
        have deeper : FreshAtMost plan.family u.store m := fewer.mono (grows.entries.map Prod.fst)
        obtain ⟨chain, added, interrupted, leaves⟩ := ih m (Nat.lt_succ_self m) deeper tracks failed
        obtain ⟨more, leaves⟩ := opens.leaves further grows leaves
        have reserved := grows.reserved.trans opens.reserved
        refine ⟨item.identifier :: chain, more,
          .nested opens.given opens.absent reserved leads ?_ interrupted, leaves⟩
        intro make' extend fault' left' failed'
        exact (same make').trans (bind_of_error (carried make' extend fault' left' failed'))

/-- Calls, failed ones too, leave states that go along a walk. -/
theorem tracks_attempts (plan : Plan γ) (places : List Nat) (tracks : Tracks plan visited w) :
    ∃ later, Tracks plan later (attempts plan places w) := by
  induction places generalizing visited w with
  | nil => exact ⟨visited, tracks⟩
  | cons place rest ih =>
    cases run : Build.make plan place w with
    | ok item v =>
      obtain ⟨_, later, advances⟩ := makes_make plan tracks run
      have next := ih advances.tracks
      rwa [← leave_of_ok run] at next
    | error fault left =>
      have few := freshAtMost_length plan.family w.store
      obtain ⟨_, _, _, leaves⟩ := interrupted_of_few few tracks run
      obtain ⟨later, _, after⟩ := leaves.tracks
      have next := ih after
      rwa [← leave_of_error run] at next

theorem full_of_make (tracks : Tracks plan visited w)
    (given : identifierAt plan.family place = some identifier)
    (absent : w.store.find? identifier = none) (run : Build.make plan place w = .ok item v) :
    Full plan place item.resource := by
  obtain ⟨⟨identifier', given', found⟩, later, advances⟩ := makes_make plan tracks run
  rw [given] at given'
  cases given'
  have unknown : standIn? plan.family visited identifier = none := tracks.standIn?_eq_none absent
  have visits : standIn? plan.family later identifier = some place := by
    cases advances.walked with
    | pass given' known _ =>
      rw [given] at given'
      cases given'
      rw [unknown] at known
      cases known
    | visit given' fresh _ walked =>
      rw [given] at given'
      cases given'
      exact standIn?_grows walked.grows (standIn?_of_fresh given fresh [])
  obtain ⟨other, stands, held⟩ := advances.tracks.standIn?_of_find? found
  rw [visits] at stands
  cases stands
  have own : item.identifier = identifier := Option.some.inj (held.given.symm.trans given)
  have unreserved : item.identifier ∉ v.store.reserved := by
    rw [advances.grows.reserved, own]
    intro waiting
    have stored := Store.find?_isSome_of_mem (tracks.sound.held identifier waiting)
    rw [absent] at stored
    cases stored
  exact ⟨_, faithful_spelled _ later, held.full unreserved later List.prefix_rfl⟩

/-- An entry with a finished resource of the model at a place: the one that every other call builds
for the model that succeeds. -/
structure Finished (plan : Plan γ) (place : Nat) (entry : Identifier × Instance) : Prop where
  given : identifierAt plan.family place = some entry.1
  full : Full plan place entry.2.resource
  same : ∀ earlier item after,
    (attempts plan earlier .empty).store.find? entry.1 = none →
      Build.make plan place (attempts plan earlier .empty) = .ok item after →
        Full plan place item.resource ∧ (Plain plan.family → item.resource = entry.2.resource)

/-- Whatever a failed call leaves, other than placeholders for what was under construction, is
finished. -/
theorem Leaves.finished (leaves : Leaves plan visited w left added chain) (sound : w.store.Sound)
    {entry : Identifier × Instance} (member : entry ∈ added) (unlisted : entry.1 ∉ chain) :
    ∃ place, Finished plan place entry := by
  obtain ⟨later, _, tracks⟩ := leaves.tracks
  have distinct := tracks.nodup
  rw [Store.identifiers, Entries.keys, leaves.entries, List.map_append] at distinct
  have unreserved : entry.1 ∉ left.store.reserved := by
    rw [leaves.reserved, List.mem_append, not_or]
    refine ⟨fun waiting => ?_, unlisted⟩
    have disjoint := List.disjoint_of_nodup_append distinct
    exact disjoint (sound.held _ waiting) (List.mem_map_of_mem member)
  have inside : entry ∈ left.store.entries := by
    rw [leaves.entries]
    exact List.mem_append_right _ member
  obtain ⟨place, _, held⟩ := Paired.exists_of_mem_right tracks.held inside
  have full : Full plan place entry.2.resource :=
    ⟨_, faithful_spelled _ later, held.full unreserved later List.prefix_rfl⟩
  refine ⟨place, held.given, full, fun earlier item after absent run => ?_⟩
  obtain ⟨_, start⟩ := tracks_attempts plan earlier (tracks_empty plan)
  have again := full_of_make start held.given absent run
  exact ⟨again, fun plain => again.eq_of_plain plain full⟩

/-- Whatever has been called before, a call that fails leaves the entries that were there as they are,
at their places. Those that it adds are placeholders for the resources that the calls on the way to
the failure had reserved, and nothing else has been added to what is reserved; all others are
finished. -/
theorem make_interrupted (plan : Plan γ) (earlier : List Nat) (place : Nat) (fault : Fault)
    (left : Workspace)
    (failed : Build.make plan place (attempts plan earlier .empty) = .error fault left) :
    ∃ added chain,
      left.store.entries = (attempts plan earlier .empty).store.entries ++ added ∧
      left.store.reserved = (attempts plan earlier .empty).store.reserved ++ chain ∧
      chain.Sublist (Entries.keys added) ∧
      (∀ entry ∈ added, entry.1 ∈ chain → Bare plan entry) ∧
      (∀ entry ∈ added, entry.1 ∉ chain → ∃ place, Finished plan place entry) ∧
      Interrupted plan fault left place (attempts plan earlier .empty) chain := by
  obtain ⟨visited, tracks⟩ := tracks_attempts plan earlier (tracks_empty plan)
  have few := freshAtMost_length plan.family (attempts plan earlier .empty).store
  obtain ⟨chain, added, interrupted, leaves⟩ := interrupted_of_few few tracks failed
  refine ⟨added, chain, leaves.entries, leaves.reserved, leaves.listed, leaves.bare, ?_, interrupted⟩
  exact fun entry member unlisted => leaves.finished tracks.sound member unlisted

/-- A post with two comments, and another post of the author of the second comment. That author has no
lasting identifier. -/
def draft : Plan where
  query := .empty
  generator := .ok ""
  family := [.leading "posts" "1" [("comments", .many [1, 2])],
    .leading "comments" "1" [("author", .one 3)], .leading "comments" "2" [("author", .one 4)],
    .leading "people" "1" [],
    { Model.leading "people" "" [] with identifier := pure (.new (.text "people") "tmp") },
    .leading "posts" "2" [("author", .one 4)]]

/-- Both posts fail. The first comment and its author are finished, the second comment is not. -/
theorem draft_interrupted : ∃ fault left,
    Build.make draft 0 (attempts draft [5] .empty) = .error fault left ∧
    left.store.identifiers = [.existing (.text "posts") "2", .existing (.text "posts") "1",
      .existing (.text "comments") "1", .existing (.text "people") "1",
      .existing (.text "comments") "2"] ∧
    ∃ added chain,
      left.store.entries = (attempts draft [5] .empty).store.entries ++ added ∧
      left.store.reserved = (attempts draft [5] .empty).store.reserved ++ chain ∧
      chain = [.existing (.text "posts") "1", .existing (.text "comments") "2"] ∧
      (∀ entry ∈ added, entry.1 ∉ chain → ∃ place, Finished draft place entry) ∧
      Interrupted draft fault left 0 (attempts draft [5] .empty) chain := by
  have fails : (match Build.make draft 0 (attempts draft [5] .empty) with
      | .ok _ _ => false
      | .error _ left =>
        decide (left.store.identifiers = [.existing (.text "posts") "2",
          .existing (.text "posts") "1", .existing (.text "comments") "1",
          .existing (.text "people") "1", .existing (.text "comments") "2"]) &&
        decide (left.store.reserved = (attempts draft [5] .empty).store.reserved ++
          [.existing (.text "posts") "1", .existing (.text "comments") "2"])) = true := by
    decide +kernel
  cases failed : Build.make draft 0 (attempts draft [5] .empty) with
  | ok item left =>
    rw [failed] at fails
    cases fails
  | error fault left =>
    rw [failed] at fails
    simp only [Bool.and_eq_true, decide_eq_true_eq] at fails
    obtain ⟨identifiers, reserved⟩ := fails
    obtain ⟨added, chain, entries, held, _, _, finished, interrupted⟩ :=
      make_interrupted draft [5] 0 fault left failed
    have same := List.append_cancel_left (held.symm.trans reserved)
    exact ⟨fault, left, rfl, identifiers, added, chain, entries, held, same, finished, interrupted⟩

end JsonApi.Walk
