import JsonApi.Proofs.Document.Linkage
import JsonApi.Proofs.Traversal.Interruption

/-!
Identifiers that do not last. A resource without a lasting identifier is never built. Main statement:
everything that a document shows in full has a lasting identifier, and so has everything that included
relationships lead to; other relationships copy the identifiers that models give, lasting or not.
-/

namespace JsonApi

theorem Identifier.isPersisted_of_isSame {one other : Identifier} (same : one.isSame other = true) :
    one.isPersisted = other.isPersisted := by
  cases one <;> cases other <;> first | rfl | cases same

namespace Walk

open Build

variable {γ : Type} [Uri.Layout γ] {plan : Plan γ} {visited : List Nat} {w v left : Workspace}
  {place : Nat} {identifier : Identifier} {kind : Identifier.Kind} {lid : Option String}
  {fault : Fault} {spell : Identifier → Identifier} {resource : Resource}

theorem Tracks.isPersisted_of_find? {item : Instance} (tracks : Tracks plan visited w)
    (found : w.store.find? identifier = some item) : identifier.isPersisted = true := by
  obtain ⟨entry, first, rfl⟩ := Option.map_eq_some_iff.mp found
  have like := List.find?_some first
  have persisted := (tracks.sound.keyed entry (List.mem_of_find?_eq_some first)).1
  rw [← Identifier.isPersisted_of_isSame like, persisted]

/-- Why a resource without a lasting identifier is not built. Its kind may be one that cannot be looked
for, and a generator of links may refuse it with a fault of its own. -/
def Refuses (generator : γ) (kind : Identifier.Kind) (lid : Option String) (fault : Fault) : Prop :=
  fault = .wrongType ∨ Uri.Layout.resource generator (.new kind lid) = .error fault ∨
    fault = .breach (.unstorable (.new kind lid))

theorem construct_new {make : Nat → Build Instance} {model : Model}
    (failed : construct plan make model (.new kind lid) w = .error fault left) :
    Refuses plan.generator kind lid fault := by
  rw [construct_eq] at failed
  rcases bind_error failed with laid | ⟨link, w₁, _, failed⟩
  · cases link : Uri.Layout.resource plan.generator (.new kind lid) with
    | ok self =>
      rw [link] at laid
      cases laid
    | error fault' =>
      rw [link] at laid
      cases laid
      exact Or.inr (Or.inl link)
  rcases bind_error failed with created | ⟨item, w₂, created, failed⟩
  · cases created
  have own : item.identifier = .new kind lid := by
    rw [(create_ok created).1]
    rfl
  rcases bind_error failed with refused | ⟨_, w₃, reserved, _⟩
  · rw [reserve_eq, own, if_neg (by simp [Identifier.isPersisted])] at refused
    cases refused
    exact Or.inr (Or.inr rfl)
  · have persisted := (reserve_ok reserved).1
    rw [own] at persisted
    cases persisted

theorem storedOr_new {model : Model} {otherwise : Identifier → Build Instance}
    (given : model.identifier.result = .ok (.new kind lid))
    (failed : storedOr model otherwise w = .error fault left) :
    fault = .wrongType ∨ ∃ between, otherwise (.new kind lid) between = .error fault left := by
  have asks := ofOutcome_eq model.identifier w
  rw [given] at asks
  rw [storedOr, bind_of_ok asks] at failed
  rcases bind_error failed with looked | ⟨found, between, _, failed⟩
  · unfold stored? at looked
    split at looked
    · cases looked
    · cases looked
      exact Or.inl rfl
  · cases found with
    | some item => cases failed
    | none => exact Or.inr ⟨between, failed⟩

theorem make_new (tracks : Tracks plan visited w)
    (given : identifierAt plan.family place = some (.new kind lid)) :
    ∃ fault left, Build.make plan place w = .error fault left ∧
      Refuses plan.generator kind lid fault := by
  cases run : Build.make plan place w with
  | ok item v =>
    obtain ⟨⟨identifier, given', found⟩, later, advances⟩ := makes_make plan tracks run
    rw [given] at given'
    cases given'
    have persisted := advances.tracks.isPersisted_of_find? found
    cases persisted
  | error fault left =>
    refine ⟨fault, left, rfl, ?_⟩
    rw [make_eq_expand] at run
    rcases storedOr_new (result_of_identifierAt given) run with unhashable | ⟨between, failed⟩
    · exact Or.inl unhashable
    · exact construct_new failed

/-- What is shown of a model: identifiers last wherever a request follows relationships, and elsewhere
they are as the related models give them. -/
structure Lasting (query : Query) (family : List Model) (place : Nat) (resource : Resource) : Prop where
  given : identifierAt family place = some resource.identifier
  own : resource.identifier.isPersisted = true
  reached : ∀ target identifier, Leads query family place target →
    identifierAt family target = some identifier → identifier.isPersisted = true
  linked : ∀ member ∈ resource.relationships.getD [], query.includes member.1 = true →
    ∀ identifier ∈ member.2.targets, identifier.isPersisted = true
  copied : ∀ member ∈ resource.relationships.getD [], query.includes member.1 = false →
    ∃ relations related, relationsAt family place = some relations ∧ (member.1, related) ∈ relations ∧
      member.2.targets.map some = related.targets.map (identifierAt family)

omit [Uri.Layout γ] in
theorem targets_of_skipped {name : String} (skipped : plan.query.includes name = false)
    {related : Related} {linkage : Linkage}
    (written : linkage? plan spell name related = some linkage) :
    linkage.identifiers.map some = related.targets.map (identifierAt plan.family) := by
  cases related with
  | absent =>
    cases written
    rfl
  | one target =>
    cases given : identifierAt plan.family target with
    | none => simp [linkage?, given] at written
    | some identifier =>
      simp only [linkage?, given, skipped, Option.bind_eq_bind, Option.bind_some] at written
      cases written
      simp [Linkage.identifiers, Related.targets, given]
  | many targets =>
    cases gives : targets.mapM (identifierAt plan.family) with
    | none => simp [linkage?, gives] at written
    | some identifiers =>
      simp only [linkage?, gives, skipped, Option.bind_eq_bind, Option.bind_some] at written
      cases written
      have paired := List.Forall₂.flip (Paired.mapM_eq_some_iff.mp gives)
      rw [← List.forall₂_eq_eq_eq, List.forall₂_map_left_iff, List.forall₂_map_right_iff]
      exact paired.imp fun identifier target given => given.symm
  | stray fault => cases written
  | foreign form => cases written

/-- Relationships that are not included copy what related models give. -/
theorem copied_of_resource? (full : resource? plan spell place = some resource)
    {member : String × Relationship} (inside : member ∈ resource.relationships.getD [])
    (skipped : plan.query.includes member.1 = false) :
    ∃ relations related, relationsAt plan.family place = some relations ∧
      (member.1, related) ∈ relations ∧
      member.2.targets.map some = related.targets.map (identifierAt plan.family) := by
  obtain ⟨relations, told, written⟩ := relationships_of_resource? full
  obtain ⟨relation, listed, writes⟩ := Paired.exists_of_mem_right written inside
  obtain ⟨name, linkage, links, targets⟩ := relationship?_parts writes
  rw [name] at skipped
  refine ⟨relations, relation.2, told, ?_, ?_⟩
  · rw [name]
    exact Entries.mem_of_mem_ofPairs listed
  · rw [targets]
    exact targets_of_skipped skipped links

end Walk

namespace Document

variable {γ : Type} [Uri.Layout γ]

/-- In a document with primary data the identifiers of its content last, and so do those of all that is
shown and of all that included relationships lead to. A model without a lasting identifier is never
built, whatever has been built before. -/
theorem compose_persisted (settings : Settings) (generator : γ) (family : List Model)
    (content : Content) (uri : String) (info : Option Members) :
    (∀ d, (compose settings generator family content uri info).result = .ok d →
      d.data.isAbsent = false →
        (∀ place ∈ content.places, ∀ identifier, Walk.identifierAt family place = some identifier →
          identifier.isPersisted = true) ∧
        ∀ resource ∈ d.resources, ∃ place,
          Walk.Lasting (Query.ofReference uri.toList) family place resource) ∧
    ∀ earlier place kind lid, Walk.identifierAt family place = some (.new kind lid) →
      ∃ fault left, Build.make ⟨Query.ofReference uri.toList, generator, family⟩ place
          (Build.attempts ⟨Query.ofReference uri.toList, generator, family⟩ earlier .empty) =
            .error fault left ∧
        Walk.Refuses generator kind lid fault := by
  constructor
  · intro d composed present
    obtain ⟨visited, w, instances, advances, made, rfl⟩ := built_of_present composed present
    have covers := Walk.covers_of_advances made advances
    have persisted : ∀ resource ∈ w.store.values.map (·.resource),
        resource.identifier.isPersisted = true := by
      intro resource member
      obtain ⟨item, stored, rfl⟩ := List.mem_map.mp member
      obtain ⟨entry, inside, rfl⟩ := List.mem_map.mp stored
      obtain ⟨lasts, own⟩ := advances.tracks.sound.keyed entry inside
      rw [← own] at lasts
      exact lasts
    constructor
    · intro place member identifier given
      obtain ⟨item, _, identifier', given', found⟩ := Paired.exists_of_mem_left made member
      rw [given] at given'
      cases given'
      exact advances.tracks.isPersisted_of_find? found
    · intro resource shown
      have inside := (mem_resources_around covers).mp shown
      obtain ⟨place, visits, full⟩ := Paired.exists_of_mem_right covers.full inside
      refine ⟨place, (Walk.resource?_parts full).1, persisted resource inside, ?_, ?_, ?_⟩
      · intro target identifier leads given
        obtain ⟨relations, told, led⟩ := leads
        obtain ⟨other, stands⟩ := covers.walked.stands_of_leads visits told led given
        obtain ⟨visited, like, tells, same⟩ := Walk.like_of_standIn? stands
        obtain ⟨resource', present, full'⟩ := covers.exists_resource visited
        rw [(Walk.resource?_parts full').1] at tells
        cases tells
        rw [← Identifier.isPersisted_of_isSame same]
        exact persisted resource' present
      · intro member listed included identifier linked
        obtain ⟨other, present, rfl⟩ := covers.complete inside listed included linked
        exact persisted other present
      · exact fun member listed skipped => Walk.copied_of_resource? full listed skipped
  · intro earlier place kind lid given
    let plan : Plan γ := ⟨Query.ofReference uri.toList, generator, family⟩
    obtain ⟨visited, tracks⟩ := Walk.tracks_attempts plan earlier (Walk.tracks_empty plan)
    exact Walk.make_new tracks given

def unsigned : List Model :=
  [.leading "posts" "1" [("author", .one 1)],
    { Model.leading "users" "" [] with identifier := pure (.new (.text "users") "tmp") }]

def unsignedDocument : Outcome Document :=
  compose (Settings.make none [] []) (.ok "" : Except Fault String) unsigned (.single (.model 0))
    "/posts/1?include=" none

/-- The post lasts and refers to its author, who cannot be built. -/
theorem unsigned_persisted : ∃ d, unsignedDocument.result = .ok d ∧ d.data.isAbsent = false ∧
    (∀ resource ∈ d.resources, ∃ place,
      Walk.Lasting (Query.ofReference "/posts/1?include=".toList) unsigned place resource) ∧
    ∃ fault, Walk.Refuses (.ok "" : Except Fault String) (.text "users") "tmp" fault := by
  have passes : unsignedDocument.result.toOption.any (fun d => !d.data.isAbsent) = true := by
    decide +kernel
  obtain ⟨d, composed, present⟩ := Outcome.exists_ok passes
  rw [Bool.not_eq_true'] at present
  obtain ⟨shows, refuses⟩ := compose_persisted (Settings.make none [] []) (.ok "" : Except Fault String)
    unsigned (.single (.model 0)) "/posts/1?include=" none
  obtain ⟨fault, left, failed, refused⟩ := refuses [0] 1 (.text "users") "tmp" rfl
  exact ⟨d, composed, present, (shows d composed present).2, fault, refused⟩

/-- Not everything that a document links to has a lasting identifier. -/
theorem unsigned_links_new : ¬∀ d, unsignedDocument.result = .ok d → d.data.isAbsent = false →
    ∀ resource ∈ d.resources, ∀ member ∈ resource.relationships.getD [],
      ∀ identifier ∈ member.2.targets, identifier.isPersisted = true := by
  intro lasts
  have passes : unsignedDocument.result.toOption.any (fun d => !d.data.isAbsent &&
      d.resources.any fun resource => (resource.relationships.getD []).any fun member =>
        member.2.targets.any fun identifier => !identifier.isPersisted) = true := by decide +kernel
  obtain ⟨d, composed, passed⟩ := Outcome.exists_ok passes
  simp only [Bool.and_eq_true, Bool.not_eq_true', List.any_eq_true] at passed
  obtain ⟨present, resource, shown, member, listed, identifier, linked, new⟩ := passed
  have persisted := lasts d composed present resource shown member listed identifier linked
  rw [new] at persisted
  cases persisted

end Document

end JsonApi
