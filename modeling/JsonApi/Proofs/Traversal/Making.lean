import JsonApi.Proofs.Traversal.Following

/-!
Building the resource of a model goes along the walk from its place: if the identifier is stored, no
further, and if it is not, through everything that its relationships lead to. The induction is on the
number of resources that may be under construction at the same time.
-/

namespace JsonApi.Walk

open Build

variable {γ : Type} [Uri.Layout γ] {plan : Plan γ} {visited : List Nat} {w w' : Workspace}
  {place : Nat} {identifier : Identifier} {item : Instance} {make : Nat → Build Instance}

theorem resource?_eq_some {spell : Identifier → Identifier} {self : String}
    {attributes : Option Members} {told : Option (List (String × Related))}
    {relationships : Option (List (String × Relationship))} {info : Option Members}
    (given : identifierAt plan.family place = some identifier)
    (link : Uri.Layout.resource plan.generator identifier = .ok self)
    (attributed : ((modelAt plan.family place).attributesFor plan.query).result = .ok attributes)
    (telling : (modelAt plan.family place).relations.result = .ok told)
    (related : relationships? plan spell identifier told = some relationships)
    (informed : (modelAt plan.family place).info.result = .ok info) :
    resource? plan spell place =
      some ⟨identifier, attributes, relationships, some ⟨some self, none, none⟩, info⟩ := by
  simp [resource?, given, link, attributed, telling, related, informed, Except.toOption]

/-- A resource is built in a visit that begins with its reservation and ends with its registration. -/
theorem construct_ok (makes : Makes plan make) (tracks : Tracks plan visited w)
    (given : identifierAt plan.family place = some identifier)
    (absent : w.store.find? identifier = none)
    (run : construct plan make (modelAt plan.family place) identifier w = .ok item w') :
    Made plan w' place item ∧ ∃ later, Advances plan [place] visited later w w' := by
  -- One state for each step: `w₃` is left by the reservation, `w₅` by the relationships, which are the
  -- only step that visits anything, and the last one by the registration.
  obtain ⟨self, w₁, laid, run⟩ := bind_ok run
  obtain ⟨held, w₂, created, run⟩ := bind_ok run
  obtain ⟨_, w₃, reserved, run⟩ := bind_ok run
  obtain ⟨attributes, w₄, asked, run⟩ := bind_ok run
  obtain ⟨relationships, w₅, related, run⟩ := bind_ok run
  obtain ⟨info, w₆, informed, run⟩ := bind_ok run
  obtain ⟨final, w₇, finished, run⟩ := bind_ok run
  obtain ⟨_, w₈, registered, run⟩ := bind_ok run
  obtain ⟨rfl, rfl⟩ := pure_ok run
  obtain ⟨link, rfl⟩ := ofExcept_ok laid
  obtain ⟨rfl, store₂, serial₂⟩ := create_ok created
  obtain ⟨persisted, store₃, serial₃⟩ := reserve_ok reserved
  obtain ⟨attributed, store₄, serial₄⟩ := ofOutcome_ok asked
  obtain ⟨informing, store₆, serial₆⟩ := ofOutcome_ok informed
  obtain ⟨rfl, store₇, serial₇⟩ := create_ok finished
  obtain ⟨_, _, store₈, serial₈⟩ := register_ok registered
  rw [store₂] at store₃
  obtain ⟨entries₃, reserved₃, tracks₃⟩ :=
    tracks.reserve ⟨w.serial, placeholder identifier ⟨some self, none, none⟩⟩ given absent persisted
      (show w.serial < w₃.serial by omega) (by omega) store₃
  have tracks₄ := tracks₃.of_eq store₄ (Nat.le_of_eq serial₄.symm)
  obtain ⟨relations, later, told, advances, answer, telling, full⟩ :=
    relate_ok makes tracks₄ related
  obtain ⟨rest, rfl⟩ := advances.walked.grows
  obtain ⟨more, entries₅⟩ := advances.grows.entries
  have growth := advances.grows.serial
  have walked := advances.walked
  have tracks₇ := advances.tracks.of_eq (store₇.trans store₆) (by omega)
  have reserved₅ := advances.grows.reserved
  rw [List.append_assoc, List.singleton_append] at full tracks₇ walked
  rw [store₄, entries₃, List.append_assoc, List.singleton_append] at entries₅
  rw [store₄, reserved₃] at reserved₅
  have stored : w₇.store = w₅.store := store₇.trans store₆
  obtain ⟨entries₈, reserved₈, tracks₈, found⟩ :=
    tracks.settle ⟨w₆.serial, identifier, attributes, relationships, some ⟨some self, none, none⟩, info⟩
      absent tracks₇ (stored ▸ entries₅.symm) (stored ▸ reserved₅)
      (show w.serial < w₆.serial by omega) (show w₆.serial < w'.serial by omega) (by omega)
      persisted
      (fun final grows =>
        resource?_eq_some given link attributed telling (full final grows) informing)
      store₈
  refine ⟨⟨identifier, given, found⟩, visited ++ place :: rest, ?_, tracks₈, ?_, reserved₈, by omega⟩
  · exact .visit given (tracks.standIn?_eq_none absent) told (by simpa using walked)
  · rw [entries₈]
    exact List.prefix_append _ _

theorem storedOr_ok {otherwise : Identifier → Build Instance} (tracks : Tracks plan visited w)
    (run : storedOr (modelAt plan.family place) otherwise w = .ok item w')
    (makes : ∀ identifier between, identifierAt plan.family place = some identifier →
      Tracks plan visited between → Grows w between → between.store.find? identifier = none →
      otherwise identifier between = .ok item w' →
      Made plan w' place item ∧ ∃ later, Advances plan [place] visited later between w') :
    Made plan w' place item ∧ ∃ later, Advances plan [place] visited later w w' := by
  obtain ⟨identifier, between, asked, run⟩ := bind_ok run
  obtain ⟨given, store, serial⟩ := identifierAt_of_ofOutcome asked
  have step : Advances plan [] visited visited w between :=
    .nil tracks store serial
  obtain ⟨found?, between', looked, run⟩ := bind_ok run
  obtain ⟨rfl, rfl⟩ := stored?_ok looked
  cases found : between'.store.find? identifier with
  | some stored =>
    rw [found] at run
    obtain ⟨rfl, rfl⟩ := pure_ok run
    obtain ⟨other, stands, _⟩ := step.tracks.standIn?_of_find? found
    refine ⟨⟨identifier, given, found⟩, visited, .pass given ?_ .done, step.tracks, step.grows⟩
    rw [stands]
    rfl
  | none =>
    rw [found] at run
    obtain ⟨made, later, advances⟩ :=
      makes identifier between' given step.tracks step.grows found run
    exact ⟨made, later, step.append advances⟩

theorem makes_makeWithin (plan : Plan γ) (depth : Nat) : Makes plan (makeWithin plan depth) := by
  induction depth with
  | zero =>
    intro place visited w w' item tracks run
    refine storedOr_ok tracks run fun identifier between _ _ _ _ deeper => ?_
    exact absurd deeper (fail_ne_ok .tooDeep)
  | succ depth ih =>
    intro place visited w w' item tracks run
    refine storedOr_ok tracks run fun identifier between given still _ absent deeper => ?_
    exact construct_ok ih still given absent deeper

theorem makes_make (plan : Plan γ) : Makes plan (Build.make plan) :=
  makes_makeWithin plan plan.family.length

theorem tracks_empty (plan : Plan γ) : Tracks plan [] .empty :=
  ⟨.nil, .nil, Store.sound_empty⟩

end JsonApi.Walk
