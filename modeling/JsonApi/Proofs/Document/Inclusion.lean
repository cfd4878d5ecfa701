import JsonApi.Proofs.Document.Coverage

/-!
What is included next to primary data. If an identifier determines its model, walks that skip known
identifiers lose nothing: main statement is that a document includes exactly what can be reached from
its content, apart from the content itself, and each of it once.
-/

namespace JsonApi

namespace Walk

variable {query : Query} {family : List Model} {visited stack : List Nat} {place target : Nat}
  {identifier : Identifier}

/-- Models whose identifiers mean the same are the same model. -/
def Determined (family : List Model) : Prop :=
  ∀ place other identifier like, identifierAt family place = some identifier →
    identifierAt family other = some like → identifier.isSame like = true →
      modelAt family place = modelAt family other

def Reaches (query : Query) (family : List Model) (start target : Nat) : Prop :=
  Relation.ReflTransGen (Leads query family) start target

theorem modelAt_of_standIn? (determined : Determined family)
    (given : identifierAt family place = some identifier)
    (stands : standIn? family visited identifier = some target) :
    modelAt family target = modelAt family place := by
  obtain ⟨_, written, gives, same⟩ := like_of_standIn? stands
  exact determined target place written identifier gives given same

/-- Whatever is reached from a place where a walk starts is known at its end, for the walk has
followed the relationships of the model that stands for it. -/
theorem Walked.known_of_reaches (determined : Determined family)
    (walked : Walked query family visited stack []) (start : place ∈ stack)
    (path : Reaches query family place target) : Known family visited target := by
  induction path with
  | refl => exact walked.known place start
  | @tail between target _ leads ih =>
    obtain ⟨identifier, given, known⟩ := ih
    obtain ⟨other, stands⟩ := Option.isSome_iff_exists.mp known
    obtain ⟨relations, told, led⟩ := leads
    have same := modelAt_of_standIn? determined given stands
    rcases walked.closed other (List.mem_of_find?_eq_some stands) with nowhere | further
    · cases nowhere
    · obtain ⟨relations', told', closed⟩ := further
      rw [relationsAt, same, ← relationsAt, told] at told'
      cases told'
      exact closed target led

theorem Walked.exists_visited_iff (determined : Determined family)
    (walked : Walked query family visited stack []) (identifier : Identifier) :
    (∃ place ∈ visited, identifierAt family place = some identifier) ↔
      ∃ start ∈ stack, ∃ target, Reaches query family start target ∧
        identifierAt family target = some identifier := by
  constructor
  · rintro ⟨place, member, given⟩
    rcases walked.reached place member with nowhere | ⟨start, inside, _, path⟩
    · cases nowhere
    · exact ⟨start, inside, place, Relation.ReflTransGen.mono (fun _ _ step => step.1) _ _ path, given⟩
  · rintro ⟨start, inside, target, path, given⟩
    obtain ⟨identifier', given', known⟩ := walked.known_of_reaches determined inside path
    rw [given] at given'
    cases given'
    obtain ⟨other, stands⟩ := Option.isSome_iff_exists.mp known
    have same := modelAt_of_standIn? determined given stands
    refine ⟨other, List.mem_of_find?_eq_some stands, ?_⟩
    rw [identifierAt, same, ← identifierAt, given]

theorem Covers.identifiers_primary {γ : Type} [Uri.Layout γ] {plan : Plan γ} {content : Content}
    {spell : Identifier → Identifier} {resources primary : List Resource}
    (determined : Determined plan.family)
    (covers : Covers plan content spell visited resources primary) :
    content.places.map (identifierAt plan.family) = primary.map fun resource => some resource.identifier := by
  rw [← List.forall₂_eq_eq_eq, List.forall₂_map_left_iff, List.forall₂_map_right_iff]
  refine covers.standing.imp fun place resource standing => ?_
  obtain ⟨identifier, other, given, stands, full⟩ := standing?_parts standing
  have same := modelAt_of_standIn? determined given stands
  rw [identifierAt, ← same, ← identifierAt]
  exact (resource?_parts full).1

end Walk

namespace Document

variable {γ : Type} [Uri.Layout γ]

/-- A document with primary data includes what is reached from the models of its content through
relationships that the request includes, unless it is primary, and nothing twice. Primary are the
models of the content. -/
theorem included_iff_reached (settings : Settings) (generator : γ) (family : List Model)
    (content : Content) (uri : String) (info : Option Members) (d : Document)
    (determined : Walk.Determined family)
    (composed : (compose settings generator family content uri info).result = .ok d)
    (present : d.data.isAbsent = false) :
    (∀ identifier, identifier ∈ (d.included.getD []).map (·.identifier) ↔
      (∃ start ∈ content.places, ∃ target,
        Walk.Reaches (Query.ofReference uri.toList) family start target ∧
          Walk.identifierAt family target = some identifier) ∧
      identifier ∉ d.data.resources.map (·.identifier)) ∧
    ((d.included.getD []).map (·.identifier)).Nodup ∧
    content.places.map (Walk.identifierAt family) =
      d.data.resources.map fun resource => some resource.identifier := by
  rcases compose_ok composed with ⟨absent, _⟩ | ⟨visited, resources, primary, covers, rfl⟩
  · rw [absent] at present
    cases present
  have data : (around settings uri info content primary resources).data.resources = primary :=
    data_around primary resources
  rw [included_around, data]
  refine ⟨fun identifier => ?_, ?_, covers.identifiers_primary determined⟩
  · rw [← covers.walked.exists_visited_iff determined identifier, ← covers.mem_identifiers]
    simp only [List.mem_map, Walk.mem_besides]
    constructor
    · rintro ⟨resource, ⟨inside, outside⟩, rfl⟩
      exact ⟨⟨resource, inside, rfl⟩, outside⟩
    · rintro ⟨⟨resource, inside, rfl⟩, outside⟩
      exact ⟨resource, ⟨inside, outside⟩, rfl⟩
  · have fewer : (Walk.besides primary resources).Sublist resources := List.filter_sublist
    exact covers.nodup.sublist (fewer.map _)

/-- The blog includes the people and the comments that its article leads to. -/
theorem blog_included_iff_reached : ∃ d, blogDocument.result = .ok d ∧
    d.included.map (List.map (·.identifier)) =
      some [.existing (.text "people") "1", .existing (.text "comments") "1",
        .existing (.text "comments") "2", .existing (.text "people") "2"] ∧
    ∀ identifier, identifier ∈ (d.included.getD []).map (·.identifier) ↔
      (∃ start ∈ (Content.single (.model 0)).places, ∃ target,
        Walk.Reaches (Query.ofReference blogRequest.toList) blog start target ∧
          Walk.identifierAt blog target = some identifier) ∧
      identifier ∉ d.data.resources.map (·.identifier) := by
  obtain ⟨d, composed, present, _, identifiers⟩ := blogDocument_ok
  have determined : Walk.Determined blog := by
    intro place other identifier like given gives same
    have apart : ∀ one < 6, ∀ two < 6, (Walk.identifierAt blog one).any (fun a =>
        (Walk.identifierAt blog two).any fun b => a.isSame b) = true → one = two := by decide +kernel
    have equal := apart place (Walk.identifierAt_lt given) other (Walk.identifierAt_lt gives)
      (by simp [given, gives, same])
    rw [equal]
  have settled := included_iff_reached _ _ blog _ _ none d determined composed present
  exact ⟨d, composed, identifiers, settled.1⟩

end Document

end JsonApi
