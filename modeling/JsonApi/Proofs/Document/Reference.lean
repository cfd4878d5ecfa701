import JsonApi.Proofs.Document.Coverage
import JsonApi.Proofs.Traversal.Spelling

/-!
Documents of models without a store. The reference first walks through the models, depth first, and
then writes down the full resources of what it has visited. Main statement: a document that is composed
of models is the one of the reference, and where identifiers are written in one way only, each of its
resources follows from its model alone.
-/

namespace JsonApi

namespace Walk

variable {γ : Type} [Uri.Layout γ] {plan : Plan γ} {spell spell' : Identifier → Identifier}
  {visited : List Nat}

theorem Covers.congr {content : Content} {resources primary : List Resource}
    (covers : Covers plan content spell visited resources primary)
    (agree : Agree plan.family spell spell') :
    Covers plan content spell' visited resources primary where
  walked := covers.walked
  full := by
    rw [← resource?_congr agree]
    exact covers.full
  standing := by
    have standing : standing? plan spell visited = standing? plan spell' visited := by
      unfold standing?
      rw [resource?_congr agree]
    rw [← standing]
    exact covers.standing

end Walk

namespace Document

variable {γ : Type} [Uri.Layout γ]

/-- The document of models, from a walk through them and their full resources. How identifiers are
written in linkage may depend on what is visited. -/
def reference? (settings : Settings) (generator : γ) (family : List Model) (content : Content)
    (uri : String) (info : Option Members) (spelling : List Nat → Identifier → Identifier) :
    Option Document := do
  let plan : Plan γ := ⟨Query.ofReference uri.toList, generator, family⟩
  let visited ← Walk.walk? plan.query family content.places []
  let resources ← visited.mapM (Walk.resource? plan (spelling visited))
  let primary ← content.places.mapM (Walk.standing? plan (spelling visited) visited)
  return around settings uri info content primary resources

theorem reference?_of_covers {settings : Settings} {generator : γ} {family : List Model}
    {content : Content} {uri : String} {info : Option Members}
    {spelling : List Nat → Identifier → Identifier} {visited : List Nat}
    {resources primary : List Resource}
    (covers : Walk.Covers ⟨Query.ofReference uri.toList, generator, family⟩ content
      (spelling visited) visited resources primary) :
    reference? settings generator family content uri info spelling =
      some (around settings uri info content primary resources) := by
  have walked := Walk.walk?_eq_some_iff.mpr covers.walked
  have full := Paired.mapM_eq_some_iff.mpr covers.full
  have standing := Paired.mapM_eq_some_iff.mpr covers.standing
  simp only at walked
  simp [reference?, walked, full, standing]

/-- A document of models is the one of the reference. Every generator of links will do, and models may
refer to each other in any way. -/
theorem compose_eq_reference (settings : Settings) (generator : γ) (family : List Model)
    (content : Content) (uri : String) (info : Option Members) (d : Document)
    (models : ∀ item ∈ content.items, ∃ place, item = .model place)
    (composed : (compose settings generator family content uri info).result = .ok d) :
    reference? settings generator family content uri info (Walk.spelled family) = some d ∧
      (Walk.Plain family →
        reference? settings generator family content uri info (fun _ identifier => identifier) =
          some d) := by
  rcases compose_ok composed with ⟨_, v, member⟩ | ⟨visited, resources, primary, covers, rfl⟩
  · obtain ⟨place, value⟩ := models _ member
    cases value
  · refine ⟨reference?_of_covers covers, fun plain => ?_⟩
    have agree : Walk.Agree family (Walk.spelled family visited) (fun identifier => identifier) :=
      fun place identifier given => Walk.spelled_of_plain plain visited given
    exact reference?_of_covers (covers.congr agree)

/-- The blog is told by the reference in the same way, and each resource by its model. -/
theorem blog_eq_reference : ∃ d, blogDocument.result = .ok d ∧
    reference? (Settings.make none [] []) (.ok "" : Except Fault String) blog
      (.single (.model 0)) blogRequest none (Walk.spelled blog) = some d ∧
    reference? (Settings.make none [] []) (.ok "" : Except Fault String) blog
      (.single (.model 0)) blogRequest none (fun _ identifier => identifier) = some d ∧
    d.data.resources.map (fun resource =>
        (resource.identifier, resource.attributes.map Entries.keys)) =
      [(.existing (.text "articles") "1", some ["title"])] ∧
    d.included.map (List.map (·.identifier)) =
      some [.existing (.text "people") "1", .existing (.text "comments") "1",
        .existing (.text "comments") "2", .existing (.text "people") "2"] := by
  obtain ⟨d, composed, _, primary, included⟩ := blogDocument_ok
  have models : ∀ item ∈ (Content.single (.model 0)).items, ∃ place, item = .model place := by
    intro item member
    exact ⟨0, List.mem_singleton.mp member⟩
  have plain : Walk.Plain blog := by
    refine Walk.plain_of_texts fun place identifier given => ?_
    have texts : ∀ one < 6, (Walk.identifierAt blog one).all
        (fun identifier => identifier.kind matches .text _) = true := by decide
    have text := texts place (Walk.identifierAt_lt given)
    rw [given, Option.all_some] at text
    cases kind : identifier.kind with
    | text name => exact ⟨name, kind⟩
    | value v holder => simp [kind] at text
  obtain ⟨referred, alone⟩ := compose_eq_reference _ _ blog _ _ none d models composed
  exact ⟨d, composed, referred, alone plain, primary, included⟩

end Document

end JsonApi
