import JsonApi.Proofs.Document.Inclusion
import JsonApi.Proofs.Document.Reference
import JsonApi.Proofs.Query.Selection

/-!
Two requests for the same content. Main statement: what is visited depends on the relationships that a
request includes and on nothing else in it, and what a resource says apart from its attributes does
not depend on the request at all, whether related resources have been built or only referred to.
-/

namespace JsonApi

namespace Outcome

variable {α β : Type} {o : Outcome α} {next next' : α → Outcome β}

theorem bind_congr (same : ∀ a, o.result = .ok a → next a = next' a) :
    (o >>= next) = (o >>= next') := by
  simp only [bind]
  cases answer : o.result with
  | ok a => simp only [same a answer]
  | error fault => rfl

end Outcome

namespace Model

variable {q q' : Query}

theorem attributesFor_congr (m : Model)
    (agree : ∀ kind, m.kind.result = .ok kind → fieldsOf q kind = fieldsOf q' kind) :
    m.attributesFor q = m.attributesFor q' := by
  refine Outcome.bind_congr fun attributes _ => ?_
  split
  · refine Outcome.bind_congr fun kind told => ?_
    have same : selected q kind attributes.members = selected q' kind attributes.members := by
      unfold selected
      rw [agree kind told]
    rw [same]
  · rfl

end Model

namespace Walk

variable {γ : Type} {generator : γ} {family : List Model} {q q' : Query}
  {stack visited visited' later : List Nat} {place place' : Nat} {content : Content}
  {spell spell' : Identifier → Identifier}
  {resources resources' primary primary' : List Resource} {one other : Resource}

theorem Walked.congr (same : q.includes = q'.includes) (walked : Walked q family later stack visited) :
    Walked q' family later stack visited := by
  have follows : followed q = followed q' := by
    unfold followed
    rw [same]
  induction walked with
  | done => exact .done
  | pass given known _ ih => exact .pass given known ih
  | visit given fresh told _ ih =>
    rw [follows] at ih
    exact .visit given fresh told ih

/-- The relationships that are included decide what is visited. -/
theorem Walked.unique (same : q.includes = q'.includes) (walked : Walked q family later stack visited)
    (walked' : Walked q' family visited' stack visited) : later = visited' := by
  have first := walk?_of_walked (walked.congr same)
  rw [walk?_of_walked walked'] at first
  exact (Option.some.inj first).symm

theorem Determined.plain (determined : Determined family) : Plain family := by
  intro place other identifier like given gives same
  have model := determined place other identifier like given gives same
  rw [identifierAt, model, ← identifierAt, gives] at given
  exact (Option.some.inj given).symm

theorem determined_of_apart (apart : ∀ one < family.length, ∀ two < family.length,
    (identifierAt family one).any (fun identifier =>
      (identifierAt family two).any fun like => identifier.isSame like) = true → one = two) :
    Determined family := by
  intro place other identifier like given gives same
  have equal := apart place (identifierAt_lt given) other (identifierAt_lt gives)
    (by simp [given, gives, same])
  rw [equal]

/-- Linkage is the same whether a relationship is included or not. -/
theorem linkage?_query (q q' : Query) (name : String) (related : Related) :
    linkage? ⟨q, generator, family⟩ (fun identifier => identifier) name related =
      linkage? ⟨q', generator, family⟩ (fun identifier => identifier) name related := by
  cases related with
  | one place => simp only [linkage?, ite_self]
  | many places => simp only [linkage?, List.map_id', ite_self]
  | absent => rfl
  | stray fault => rfl
  | foreign form => rfl

variable [Uri.Layout γ]

theorem relationships?_query (q q' : Query) :
    relationships? ⟨q, generator, family⟩ (fun identifier => identifier) =
      relationships? ⟨q', generator, family⟩ (fun identifier => identifier) := by
  have related : relationship? ⟨q, generator, family⟩ (fun identifier => identifier) =
      relationship? ⟨q', generator, family⟩ (fun identifier => identifier) := by
    funext identifier relation
    simp only [relationship?, linkage?_query q q']
  funext identifier told
  cases told with
  | none => rfl
  | some relations => simp only [relationships?, related]

/-- Full resources of one model for two requests differ in their attributes at most. -/
theorem resource?_query (same : modelAt family place = modelAt family place')
    (full : resource? ⟨q, generator, family⟩ (fun identifier => identifier) place = some one)
    (full' : resource? ⟨q', generator, family⟩ (fun identifier => identifier) place' = some other) :
    one.links = other.links ∧ one.relationships = other.relationships ∧ one.info = other.info ∧
      ((∀ kind, (modelAt family place).kind.result = .ok kind →
        Model.fieldsOf q kind = Model.fieldsOf q' kind) → one.attributes = other.attributes) := by
  have given : identifierAt family place = identifierAt family place' := by
    unfold identifierAt
    rw [same]
  simp only [resource?, Option.bind_eq_bind, Option.bind_eq_some_iff, Option.pure_def,
    Option.some_inj] at full full'
  rw [← given, ← same, ← relationships?_query q q'] at full'
  obtain ⟨identifier, gives, link, laid, attributes, shown, told, telling, relationships, related, info,
    informed, rfl⟩ := full
  obtain ⟨identifier', gives', link', laid', attributes', shown', told', telling', relationships',
    related', info', informed', rfl⟩ := full'
  rw [gives] at gives'
  cases gives'
  rw [laid] at laid'
  cases laid'
  rw [telling] at telling'
  cases telling'
  rw [related] at related'
  cases related'
  rw [informed] at informed'
  cases informed'
  refine ⟨rfl, rfl, rfl, fun agree => ?_⟩
  rw [Model.attributesFor_congr _ agree, shown'] at shown
  exact (Option.some.inj shown).symm

theorem Covers.identifiers_resources {plan : Plan γ}
    (covers : Covers plan content spell visited resources primary) :
    visited.map (identifierAt plan.family) =
      resources.map fun resource => some resource.identifier := by
  rw [← List.forall₂_eq_eq_eq, List.forall₂_map_left_iff, List.forall₂_map_right_iff]
  exact covers.full.imp fun place resource full => (resource?_parts full).1

theorem Covers.identifiers_standing {plan : Plan γ}
    (covers : Covers plan content spell visited resources primary) :
    (content.places.map fun place => (identifierAt plan.family place).bind fun identifier =>
        (standIn? plan.family visited identifier).bind (identifierAt plan.family)) =
      primary.map fun resource => some resource.identifier := by
  rw [← List.forall₂_eq_eq_eq, List.forall₂_map_left_iff, List.forall₂_map_right_iff]
  refine covers.standing.imp fun place resource standing => ?_
  obtain ⟨identifier, other, given, stands, full⟩ := standing?_parts standing
  rw [given, Option.bind_some, stands, Option.bind_some]
  exact (resource?_parts full).1

theorem map_identifier_inj {ones others : List Resource}
    (same : (ones.map fun resource => some resource.identifier) =
      others.map fun resource => some resource.identifier) :
    ones.map (·.identifier) = others.map (·.identifier) := by
  have inner (resources : List Resource) : (resources.map fun resource => some resource.identifier) =
      (resources.map (·.identifier)).map some := by
    rw [List.map_map]
    rfl
  rw [inner, inner] at same
  exact List.map_injective_iff.mpr (fun _ _ => Option.some.inj) same

theorem Covers.identifiers_query (same : q.includes = q'.includes)
    (covers : Covers ⟨q, generator, family⟩ content spell visited resources primary)
    (covers' : Covers ⟨q', generator, family⟩ content spell' visited' resources' primary') :
    resources.map (·.identifier) = resources'.map (·.identifier) ∧
      primary.map (·.identifier) = primary'.map (·.identifier) := by
  have visits : visited = visited' := covers.walked.unique same covers'.walked
  subst visits
  constructor
  · exact map_identifier_inj (covers.identifiers_resources.symm.trans covers'.identifiers_resources)
  · exact map_identifier_inj (covers.identifiers_standing.symm.trans covers'.identifiers_standing)

omit [Uri.Layout γ] in
theorem identifiers_besides (primary resources : List Resource) :
    (besides primary resources).map (·.identifier) =
      (resources.map (·.identifier)).filter fun identifier =>
        !(primary.map (·.identifier)).contains identifier := by
  rw [besides, List.filter_map]
  rfl

end Walk

namespace Document

variable {γ : Type} [Uri.Layout γ]

theorem identifiers_presentIncluded (resources : List Resource) :
    (presentIncluded resources).map (List.map (·.identifier)) =
      if resources.map (·.identifier) = [] then none else some (resources.map (·.identifier)) := by
  cases resources with
  | nil => rfl
  | cons resource rest => rfl

/-- Two requests for the same content, each with primary data in its document. If they include the same
relationships, the documents show the same identifiers in the same order. If identifiers determine
their models, a resource that both documents show has the same links, relationships and metadata in
both, and the same attributes if the requests choose the same fields of its type. -/
theorem compose_requests (settings : Settings) (generator : γ) (family : List Model)
    (content : Content) (uri uri' : String) (info info' : Option Members) (d d' : Document)
    (composed : (compose settings generator family content uri info).result = .ok d)
    (present : d.data.isAbsent = false)
    (composed' : (compose settings generator family content uri' info').result = .ok d')
    (present' : d'.data.isAbsent = false) :
    ((Query.ofReference uri.toList).inclusions = (Query.ofReference uri'.toList).inclusions →
      d.data.resources.map (·.identifier) = d'.data.resources.map (·.identifier) ∧
      d.included.map (List.map (·.identifier)) = d'.included.map (List.map (·.identifier))) ∧
    (Walk.Determined family → ∀ one ∈ d.resources, ∀ other ∈ d'.resources,
      one.identifier = other.identifier →
        one.links = other.links ∧ one.relationships = other.relationships ∧ one.info = other.info ∧
        ((∀ place kind, Walk.identifierAt family place = some one.identifier →
          (modelAt family place).kind.result = .ok kind →
            Model.fieldsOf (Query.ofReference uri.toList) kind =
              Model.fieldsOf (Query.ofReference uri'.toList) kind) →
          one.attributes = other.attributes)) := by
  obtain ⟨visited, resources, primary, covers, rfl⟩ := covers_of_present composed present
  obtain ⟨visited', resources', primary', covers', rfl⟩ := covers_of_present composed' present'
  constructor
  · intro same
    obtain ⟨all, first⟩ := covers.identifiers_query (Query.includes_congr same) covers'
    rw [data_around, data_around]
    refine ⟨first, ?_⟩
    simp only [included_around_eq, identifiers_presentIncluded, Walk.identifiers_besides, all, first]
  · intro determined one shown other shown' same
    have plain := determined.plain
    have agree (visited : List Nat) :
        Walk.Agree family (Walk.spelled family visited) fun identifier => identifier :=
      (Walk.faithful_spelled family visited).agree plain
    obtain ⟨place, _, full⟩ := Paired.exists_of_mem_right (covers.congr (agree visited)).full
      ((mem_resources_around covers).mp shown)
    obtain ⟨place', _, full'⟩ := Paired.exists_of_mem_right (covers'.congr (agree visited')).full
      ((mem_resources_around covers').mp shown')
    have given := (Walk.resource?_parts full).1
    have given' := (Walk.resource?_parts full').1
    have model : modelAt family place = modelAt family place' := by
      refine determined place place' one.identifier other.identifier given given' ?_
      rw [same]
      exact Identifier.isSame_refl _
    obtain ⟨links, relationships, info, attributes⟩ := Walk.resource?_query model full full'
    refine ⟨links, relationships, info, fun fields => attributes fun kind told => ?_⟩
    exact fields place kind given told

def profile : List Model :=
  [{ Model.leading "articles" "1" [("author", .one 1), ("topics", .many [2])] with
      attributes := pure ⟨some [("title", .text "Walks"), ("body", .text "Long")], true⟩ },
    { Model.leading "people" "1" [("articles", .many [0])] with
      attributes := pure ⟨some [("name", .text "Ada")], true⟩ },
    .leading "topics" "1" []]

def profileDocument (uri : String) : Outcome Document :=
  compose (Settings.make none [] []) (.ok "" : Except Fault String) profile (.single (.model 0)) uri
    none

def titles : String := "/articles/1?include=author&fields[articles]=title"

/-- A request for the same titles, but for other fields of people, with an order. -/
def titlesInOrder : String :=
  "/articles/1?fields[people]=age&sort=-title&fields[articles]=title&include=author"

/-- Both requests include the author, and they tell the same about the article. -/
theorem profile_requests : ∃ d d', (profileDocument titles).result = .ok d ∧
    (profileDocument titlesInOrder).result = .ok d' ∧
    d.included.map (List.map (·.identifier)) = some [.existing (.text "people") "1"] ∧
    d.included.map (List.map (·.identifier)) = d'.included.map (List.map (·.identifier)) ∧
    d.resources.map (fun resource => resource.attributes.map Entries.keys) =
      [some ["title"], some ["name"]] ∧
    d'.resources.map (fun resource => resource.attributes.map Entries.keys) =
      [some ["title"], some []] ∧
    ∀ one ∈ d.resources, ∀ other ∈ d'.resources, one.identifier = other.identifier →
      one.links = other.links ∧ one.relationships = other.relationships ∧ one.info = other.info ∧
      (one.identifier = .existing (.text "articles") "1" → one.attributes = other.attributes) := by
  have passes : (profileDocument titles).result.toOption.any (fun d => d.data.isAbsent = false ∧
      d.included.map (List.map (·.identifier)) = some [.existing (.text "people") "1"] ∧
      d.resources.map (fun resource => resource.attributes.map Entries.keys) =
        [some ["title"], some ["name"]]) = true := by
    decide +kernel
  have passes' : (profileDocument titlesInOrder).result.toOption.any (fun d =>
      d.data.isAbsent = false ∧ d.resources.map (fun resource => resource.attributes.map Entries.keys) =
        [some ["title"], some []]) = true := by
    decide +kernel
  obtain ⟨d, composed, passed⟩ := Outcome.exists_ok passes
  obtain ⟨d', composed', passed'⟩ := Outcome.exists_ok passes'
  obtain ⟨present, included, attributes⟩ := of_decide_eq_true passed
  obtain ⟨present', attributes'⟩ := of_decide_eq_true passed'
  obtain ⟨ordered, shown⟩ := compose_requests _ _ profile _ titles titlesInOrder none none d d' composed
    present composed' present'
  have determined : Walk.Determined profile := Walk.determined_of_apart (by decide +kernel)
  have same : (Query.ofReference titles.toList).inclusions =
      (Query.ofReference titlesInOrder.toList).inclusions := by decide +kernel
  have first : ∀ place < 3, Walk.identifierAt profile place = some (.existing (.text "articles") "1") →
      place = 0 := by decide +kernel
  have fields : Model.fieldsOf (Query.ofReference titles.toList) (.text "articles") =
      Model.fieldsOf (Query.ofReference titlesInOrder.toList) (.text "articles") := by decide +kernel
  refine ⟨d, d', composed, composed', included, (ordered same).2, attributes, attributes', ?_⟩
  intro one inside other inside' same
  obtain ⟨links, relationships, info, attributes⟩ := shown determined one inside other inside' same
  refine ⟨links, relationships, info, fun article => attributes fun place kind given told => ?_⟩
  rw [article] at given
  rw [first place (Walk.identifierAt_lt given) given] at told
  cases told
  exact fields

end Document

end JsonApi
