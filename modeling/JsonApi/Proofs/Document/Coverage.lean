import JsonApi.Proofs.Document.Content
import JsonApi.Proofs.Traversal.Making

/-!
What is built for the content of a document. Main statement: a document with primary data is made of
the full resources of the places that a walk from its content visits, in the order of the visits.
-/

namespace JsonApi

namespace Walk

variable {γ : Type} [Uri.Layout γ] {plan : Plan γ} {content : Content} {spell : Identifier → Identifier}
  {visited : List Nat} {resources primary : List Resource} {w w' : Workspace} {item : Instance}
  {place : Nat}

/-- The full resource of what stands for the model at a place. -/
def standing? (plan : Plan γ) (spell : Identifier → Identifier) (visited : List Nat) (place : Nat) :
    Option Resource := do
  let identifier ← identifierAt plan.family place
  let other ← standIn? plan.family visited identifier
  resource? plan spell other

/-- Resources that belong to the content: the full ones of all that is visited from there, and among
them those that stand for the models of the content. -/
structure Covers (plan : Plan γ) (content : Content) (spell : Identifier → Identifier)
    (visited : List Nat) (resources primary : List Resource) : Prop where
  walked : Walked plan.query plan.family visited content.places []
  full : List.Forall₂ (fun place resource => resource? plan spell place = some resource) visited
    resources
  standing : List.Forall₂ (fun place resource => standing? plan spell visited place = some resource)
    content.places primary

/-- What a request includes next to its primary data. -/
def besides (primary resources : List Resource) : List Resource :=
  resources.filter fun resource => !(primary.map (·.identifier)).contains resource.identifier

theorem mem_besides {resource : Resource} :
    resource ∈ besides primary resources ↔
      resource ∈ resources ∧ resource.identifier ∉ primary.map (·.identifier) := by
  simp [besides]

theorem standing?_parts {resource : Resource}
    (standing : standing? plan spell visited place = some resource) :
    ∃ identifier other, identifierAt plan.family place = some identifier ∧
      standIn? plan.family visited identifier = some other ∧
      resource? plan spell other = some resource := by
  simp only [standing?, Option.bind_eq_bind, Option.bind_eq_some_iff] at standing
  obtain ⟨identifier, given, other, stands, full⟩ := standing
  exact ⟨identifier, other, given, stands, full⟩

theorem Covers.apart (covers : Covers plan content spell visited resources primary) :
    Apart plan.family visited :=
  covers.walked.apart .nil

theorem Covers.nodup (covers : Covers plan content spell visited resources primary) :
    (resources.map (·.identifier)).Nodup := by
  rw [List.Nodup, List.pairwise_map]
  refine Paired.pairwise covers.full covers.apart ?_
  intro earlier one place other first second different same
  obtain ⟨gives, _⟩ := resource?_parts first
  obtain ⟨tells, _⟩ := resource?_parts second
  have unlike := different one.identifier other.identifier gives tells
  rw [same, Identifier.isSame_refl] at unlike
  cases unlike

theorem Covers.exists_resource (covers : Covers plan content spell visited resources primary)
    (member : place ∈ visited) : ∃ resource ∈ resources, resource? plan spell place = some resource :=
  Paired.exists_of_mem_left covers.full member

theorem Covers.mem_of_mem_primary (covers : Covers plan content spell visited resources primary)
    {resource : Resource} (member : resource ∈ primary) : resource ∈ resources := by
  obtain ⟨place, _, standing⟩ := Paired.exists_of_mem_right covers.standing member
  obtain ⟨identifier, other, _, stands, full⟩ := standing?_parts standing
  obtain ⟨resource', inside, full'⟩ := covers.exists_resource (List.mem_of_find?_eq_some stands)
  rw [full] at full'
  cases full'
  exact inside

theorem Covers.mem_identifiers (covers : Covers plan content spell visited resources primary)
    (identifier : Identifier) :
    identifier ∈ resources.map (·.identifier) ↔
      ∃ place ∈ visited, identifierAt plan.family place = some identifier := by
  rw [List.mem_map]
  constructor
  · rintro ⟨resource, inside, rfl⟩
    obtain ⟨place, member, full⟩ := Paired.exists_of_mem_right covers.full inside
    exact ⟨place, member, (resource?_parts full).1⟩
  · rintro ⟨place, member, given⟩
    obtain ⟨resource, inside, full⟩ := covers.exists_resource member
    have gives := (resource?_parts full).1
    rw [given] at gives
    cases gives
    exact ⟨resource, inside, rfl⟩

theorem Covers.mem_shown (covers : Covers plan content spell visited resources primary)
    {resource : Resource} :
    resource ∈ primary ++ besides primary resources ↔ resource ∈ resources := by
  rw [List.mem_append, mem_besides]
  constructor
  · rintro (first | ⟨inside, _⟩)
    · exact covers.mem_of_mem_primary first
    · exact inside
  · intro inside
    by_cases first : resource.identifier ∈ primary.map (·.identifier)
    · obtain ⟨like, member, same⟩ := List.mem_map.mp first
      have equal := List.inj_on_of_nodup_map covers.nodup (covers.mem_of_mem_primary member) inside same
      exact Or.inl (equal ▸ member)
    · exact Or.inr ⟨inside, first⟩

theorem standing_of_made (tracks : Tracks plan visited w) (settled : w.store.reserved = [])
    (made : Made plan w place item) :
    standing? plan (spelled plan.family visited) visited place = some item.resource := by
  obtain ⟨identifier, given, found⟩ := made
  obtain ⟨other, stands, held⟩ := tracks.standIn?_of_find? found
  have unreserved : item.identifier ∉ w.store.reserved := by simp [settled]
  have full := held.full unreserved visited List.prefix_rfl
  simp only [standing?, given, Option.bind_eq_bind, Option.bind_some, stands, full]

/-- At the end of a build the store holds full resources only, in the order of the visits. -/
theorem full_of_tracks (tracks : Tracks plan visited w) (settled : w.store.reserved = []) :
    List.Forall₂
      (fun place resource => resource? plan (spelled plan.family visited) place = some resource)
      visited (w.store.values.map (·.resource)) := by
  rw [Store.values, List.map_map, List.forall₂_map_right_iff]
  refine tracks.held.imp fun place entry held => held.full ?_ visited List.prefix_rfl
  simp [settled]

theorem covers_of_advances {instances : List Instance}
    (made : List.Forall₂ (Made plan w) content.places instances)
    (advances : Advances plan content.places [] visited .empty w) :
    Covers plan content (spelled plan.family visited) visited (w.store.values.map (·.resource))
      (instances.map (·.resource)) where
  walked := advances.walked
  full := full_of_tracks advances.tracks advances.grows.reserved
  standing := by
    rw [List.forall₂_map_right_iff]
    exact made.imp fun place item made =>
      standing_of_made advances.tracks advances.grows.reserved made

theorem makeItems_ok {items : List Item} {instances : List Instance} (tracks : Tracks plan visited w)
    (run : Build.makeItems plan items w = .ok instances w') :
    List.Forall₂ (Made plan w') (items.filterMap Item.place?) instances ∧
      ∃ later, Advances plan (items.filterMap Item.place?) visited later w w' := by
  induction items generalizing visited w instances with
  | nil =>
    obtain ⟨rfl, rfl⟩ := Build.pure_ok run
    exact ⟨.nil, visited, .nil tracks rfl rfl⟩
  | cons item rest ih =>
    obtain ⟨first, w₁, built, run⟩ := Build.bind_ok run
    obtain ⟨others, w₂, further, run⟩ := Build.bind_ok run
    obtain ⟨rfl, rfl⟩ := Build.pure_ok run
    cases item with
    | value v => exact absurd built (Build.fail_ne_ok _)
    | model place =>
      obtain ⟨made, between, advances⟩ := makes_make plan tracks built
      obtain ⟨others, later, advances'⟩ := ih advances.tracks further
      exact ⟨.cons (made.mono advances'.grows) others, later, advances.append advances'⟩

end Walk

namespace Document

variable {γ : Type} [Uri.Layout γ] {settings : Settings} {generator : γ} {family : List Model}
  {content : Content} {uri : String} {info : Option Members} {d : Document}

/-- A document around resources that have been built for its content: the primary ones are its data, and
all others are included, if there are any. -/
def around (settings : Settings) (uri : String) (info : Option Members) (content : Content)
    (primary resources : List Resource) : Document where
  data := content.arrange primary
  errors := none
  included :=
    match Walk.besides primary resources with
    | [] => none
    | first :: rest => some (first :: rest)
  links := some ⟨some uri, none, none⟩
  jsonapi := some (Info.ofVersion settings.version)
  info := info

def resources (d : Document) : List Resource := d.data.resources ++ d.included.getD []

theorem included_around (primary resources : List Resource) :
    (around settings uri info content primary resources).included.getD [] =
      Walk.besides primary resources := by
  unfold around
  cases Walk.besides primary resources <;> rfl

theorem included_around_eq (primary resources : List Resource) :
    (around settings uri info content primary resources).included =
      presentIncluded (Walk.besides primary resources) := by
  unfold around presentIncluded
  cases Walk.besides primary resources <;> rfl

theorem around_eq {data : PrimaryData} {primary resources : List Resource}
    (arranged : content.arrange primary = data) :
    around settings uri info content primary resources = {
      data := data
      errors := none
      included := presentIncluded (Walk.besides primary resources)
      links := some ⟨some uri, none, none⟩
      jsonapi := some (Info.ofVersion settings.version)
      info := info } := by
  rw [around, ← arranged]
  cases Walk.besides primary resources <;> rfl

theorem data_around (primary resources : List Resource) :
    (around settings uri info content primary resources).data.resources = primary :=
  Content.resources_arrange content primary

theorem mem_resources_around {plan : Plan γ} {spell : Identifier → Identifier} {visited : List Nat}
    {primary resources : List Resource} {resource : Resource}
    (covers : Walk.Covers plan content spell visited resources primary) :
    resource ∈ (around settings uri info content primary resources).resources ↔
      resource ∈ resources := by
  rw [Document.resources, data_around, included_around]
  exact covers.mem_shown

theorem assemble_ok {data : PrimaryData} {errors : Option (List ErrorObject)} {store : Store}
    (answer : (assemble settings uri info data errors store).result = .ok d) :
    d = {
      data := data
      errors := errors
      included := presentIncluded (includedIn store (data.resources.map (·.identifier)))
      links := some ⟨some uri, none, none⟩
      jsonapi := some (Info.ofVersion settings.version)
      info := info } := by
  obtain ⟨_, _, answer⟩ := Outcome.bind_ok answer
  have checks := Outcome.ofExcept_ok answer
  unfold checked at checks
  split at checks
  · cases checks
  · cases checks
    rfl

/-- A document that has no errors is made of what has been built for its content. -/
theorem compose_built
    (composed : (compose settings generator family content uri info).result = .ok d) :
    (d.data = .absent ∧ ∃ v, .value v ∈ content.items) ∨ ∃ visited w instances,
      Walk.Advances ⟨Query.ofReference uri.toList, generator, family⟩ content.places [] visited
        .empty w ∧
      List.Forall₂ (Walk.Made ⟨Query.ofReference uri.toList, generator, family⟩ w) content.places
        instances ∧
      d = around settings uri info content (instances.map (·.resource))
        (w.store.values.map (·.resource)) := by
  obtain ⟨_, _, read⟩ := Outcome.bind_ok composed
  obtain ⟨subject, stands, answer⟩ := Outcome.bind_ok read
  clear composed read
  rcases Subject.ofContent_ok (Outcome.ofExcept_ok stands) with
    ⟨errors, v, rfl, member⟩ | ⟨place, rfl, rfl⟩ | ⟨items, rfl, places, arranged⟩
  · obtain ⟨objects, _, assembled⟩ := Outcome.bind_ok answer
    rw [assemble_ok assembled]
    exact Or.inl ⟨rfl, v, member⟩
  · obtain ⟨⟨item, w⟩, built, assembled⟩ := Outcome.bind_ok answer
    obtain ⟨made, visited, advances⟩ :=
      Walk.makes_make _ (Walk.tracks_empty _) (Build.run_ok built)
    refine Or.inr ⟨visited, w, [item], advances, .cons made .nil, ?_⟩
    rw [assemble_ok assembled, around_eq rfl]
    rfl
  · obtain ⟨⟨instances, w⟩, built, assembled⟩ := Outcome.bind_ok answer
    obtain ⟨made, visited, advances⟩ :=
      Walk.makeItems_ok (Walk.tracks_empty _) (Build.run_ok built)
    rw [← places] at made advances
    refine Or.inr ⟨visited, w, instances, advances, made, ?_⟩
    rw [assemble_ok assembled, around_eq (arranged _)]
    rfl

theorem resources_of_absent
    (composed : (compose settings generator family content uri info).result = .ok d)
    (absent : d.data = .absent) : d.resources = [] := by
  obtain ⟨_, _, read⟩ := Outcome.bind_ok composed
  obtain ⟨subject, stands, answer⟩ := Outcome.bind_ok read
  cases subject with
  | errors items =>
    obtain ⟨objects, _, assembled⟩ := Outcome.bind_ok answer
    rw [assemble_ok assembled]
    rfl
  | one place =>
    obtain ⟨built, _, assembled⟩ := Outcome.bind_ok answer
    rw [assemble_ok assembled] at absent
    cases absent
  | many items =>
    obtain ⟨built, _, assembled⟩ := Outcome.bind_ok answer
    rw [assemble_ok assembled] at absent
    cases absent

/-- Content stands for errors only if there is a value in it, and otherwise the document is made of
the full resources of what a walk from the content visits. -/
theorem compose_ok
    (composed : (compose settings generator family content uri info).result = .ok d) :
    (d.data = .absent ∧ ∃ v, .value v ∈ content.items) ∨ ∃ visited resources primary,
      Walk.Covers ⟨Query.ofReference uri.toList, generator, family⟩ content
        (Walk.spelled family visited) visited resources primary ∧
      d = around settings uri info content primary resources := by
  rcases compose_built composed with errors | ⟨visited, w, instances, advances, made, rfl⟩
  · exact Or.inl errors
  · exact Or.inr ⟨visited, _, _, Walk.covers_of_advances made advances, rfl⟩

theorem covers_of_shown
    (composed : (compose settings generator family content uri info).result = .ok d)
    {resource : Resource} (shown : resource ∈ d.resources) : ∃ visited resources primary,
      Walk.Covers ⟨Query.ofReference uri.toList, generator, family⟩ content
        (Walk.spelled family visited) visited resources primary ∧ resource ∈ resources := by
  rcases compose_ok composed with ⟨absent, _⟩ | ⟨visited, resources, primary, covers, rfl⟩
  · rw [resources_of_absent composed absent] at shown
    cases shown
  · exact ⟨visited, resources, primary, covers, (mem_resources_around covers).mp shown⟩

theorem built_of_present
    (composed : (compose settings generator family content uri info).result = .ok d)
    (present : d.data.isAbsent = false) : ∃ visited w instances,
      Walk.Advances ⟨Query.ofReference uri.toList, generator, family⟩ content.places [] visited
        .empty w ∧
      List.Forall₂ (Walk.Made ⟨Query.ofReference uri.toList, generator, family⟩ w) content.places
        instances ∧
      d = around settings uri info content (instances.map (·.resource))
        (w.store.values.map (·.resource)) := by
  rcases compose_built composed with ⟨absent, _⟩ | built
  · rw [absent] at present
    cases present
  · exact built

theorem covers_of_present
    (composed : (compose settings generator family content uri info).result = .ok d)
    (present : d.data.isAbsent = false) : ∃ visited resources primary,
      Walk.Covers ⟨Query.ofReference uri.toList, generator, family⟩ content
        (Walk.spelled family visited) visited resources primary ∧
      d = around settings uri info content primary resources := by
  obtain ⟨visited, w, instances, advances, made, rfl⟩ := built_of_present composed present
  exact ⟨visited, _, _, Walk.covers_of_advances made advances, rfl⟩

end Document

/-- An article and what it leads to. The author leads back to the article, a comment to itself. -/
def blog : List Model :=
  [{ Model.leading "articles" "1" [("author", .one 1), ("comments", .many [2, 3])] with
      attributes := pure ⟨some [("title", .text "Walks"), ("body", .text "Long")], true⟩ },
    .leading "people" "1" [("articles", .many [0])],
    .leading "comments" "1" [("author", .one 1), ("thread", .many [2, 3])],
    .leading "comments" "2" [("author", .one 4), ("parent", .one 5)],
    .leading "people" "2" [("articles", .many [])],
    .leading "comments" "3" [("parent", .absent)]]

def blogRequest : String := "/articles/1?include=author,comments&fields[articles]=title"

def blogDocument : Outcome Document :=
  Document.compose (Settings.make none [] []) (.ok "" : Except Fault String) blog
    (.single (.model 0)) blogRequest none

/-- The third comment leads nowhere into the document, for nothing asks for the parents of comments. -/
theorem blogDocument_ok : ∃ d, blogDocument.result = .ok d ∧ d.data.isAbsent = false ∧
    d.data.resources.map (fun resource =>
        (resource.identifier, resource.attributes.map Entries.keys)) =
      [(.existing (.text "articles") "1", some ["title"])] ∧
    d.included.map (List.map (·.identifier)) =
      some [.existing (.text "people") "1", .existing (.text "comments") "1",
        .existing (.text "comments") "2", .existing (.text "people") "2"] := by
  have passes : blogDocument.result.toOption.any (fun d => decide (d.data.isAbsent = false ∧
      d.data.resources.map (fun resource =>
          (resource.identifier, resource.attributes.map Entries.keys)) =
        [(.existing (.text "articles") "1", some ["title"])] ∧
      d.included.map (List.map (·.identifier)) =
        some [.existing (.text "people") "1", .existing (.text "comments") "1",
          .existing (.text "comments") "2", .existing (.text "people") "2"])) = true := by
    decide +kernel
  obtain ⟨d, composed, passed⟩ := Outcome.exists_ok passes
  exact ⟨d, composed, of_decide_eq_true passed⟩

end JsonApi
