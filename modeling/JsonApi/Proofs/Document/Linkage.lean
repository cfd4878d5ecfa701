import JsonApi.Proofs.Document.Coverage

/-!
Linkage in documents. Main statement: whatever is included is linked to from primary data, by way of
resources that the document shows, and no relationship that a request includes leads out of the
document. The walk that the document follows gives both: what it visits is reached from its start, and
is closed under the relationships that it follows.
-/

namespace JsonApi

def Resource.LinksTo (one other : Resource) : Prop :=
  ∃ member ∈ one.relationships.getD [], other.identifier ∈ member.2.targets

namespace Walk

def Named (family : List Model) : Prop :=
  ∀ place relations, relationsAt family place = some relations → (Entries.keys relations).Nodup

variable {γ : Type} {plan : Plan γ} {spell : Identifier → Identifier} {place target : Nat}

theorem linkage?_targets {name : String} (included : plan.query.includes name = true)
    {related : Related} {linkage : Linkage} (written : linkage? plan spell name related = some linkage) :
    List.Forall₂ (fun target identifier => ∃ given, identifierAt plan.family target = some given ∧
      identifier = spell given) related.targets linkage.identifiers := by
  cases related with
  | absent =>
    cases written
    exact .nil
  | one target =>
    cases given : identifierAt plan.family target with
    | none => simp [linkage?, given] at written
    | some identifier =>
      simp only [linkage?, given, included, Option.bind_eq_bind, Option.bind_some, if_true] at written
      cases written
      exact .cons ⟨identifier, given, rfl⟩ .nil
  | many targets =>
    cases gives : targets.mapM (identifierAt plan.family) with
    | none => simp [linkage?, gives] at written
    | some identifiers =>
      simp only [linkage?, gives, included, Option.bind_eq_bind, Option.bind_some, if_true] at written
      cases written
      simp only [Related.targets, Linkage.identifiers]
      rw [List.forall₂_map_right_iff]
      exact (Paired.mapM_eq_some_iff.mp gives).imp fun target identifier given =>
        ⟨identifier, given, rfl⟩
  | stray fault => cases written
  | foreign form => cases written

variable [Uri.Layout γ]

theorem relationship?_parts {identifier : Identifier} {relation : String × Related}
    {member : String × Relationship}
    (written : relationship? plan spell identifier relation = some member) :
    member.1 = relation.1 ∧ ∃ linkage, linkage? plan spell relation.1 relation.2 = some linkage ∧
      member.2.targets = linkage.identifiers := by
  obtain ⟨name, linkage, links, data⟩ := relationship?_data written
  exact ⟨name, linkage, links, by rw [Relationship.targets, data]⟩

theorem relationships_of_resource? {resource : Resource}
    (full : resource? plan spell place = some resource) :
    ∃ relations, relationsAt plan.family place = some relations ∧
      List.Forall₂ (fun relation member =>
        relationship? plan spell resource.identifier relation = some member)
        (Entries.ofPairs relations) (resource.relationships.getD []) := by
  obtain ⟨_, told, telling, related⟩ := resource?_parts full
  refine ⟨told.getD [], by simp [relationsAt, telling, Except.toOption], ?_⟩
  cases told with
  | none =>
    have nothing : none = resource.relationships := Option.some.inj related
    rw [← nothing]
    exact .nil
  | some relations =>
    obtain ⟨relationships, written, gives⟩ := Option.map_eq_some_iff.mp related
    rw [← gives]
    exact Paired.mapM_eq_some_iff.mp written

/-- What an included relationship of a full resource links to is where its model leads. -/
theorem leads_of_linked {resource : Resource} (full : resource? plan spell place = some resource)
    {member : String × Relationship} (inside : member ∈ resource.relationships.getD [])
    (included : plan.query.includes member.1 = true) {identifier : Identifier}
    (linked : identifier ∈ member.2.targets) :
    ∃ target given, Leads plan.query plan.family place target ∧
      identifierAt plan.family target = some given ∧ identifier = spell given := by
  obtain ⟨relations, told, written⟩ := relationships_of_resource? full
  obtain ⟨relation, listed, writes⟩ := Paired.exists_of_mem_right written inside
  obtain ⟨name, linkage, links, targets⟩ := relationship?_parts writes
  rw [name] at included
  rw [targets] at linked
  obtain ⟨target, leads, given, tells, spells⟩ :=
    Paired.exists_of_mem_right (linkage?_targets included links) linked
  refine ⟨target, given, ⟨relations, told, ?_⟩, tells, spells⟩
  apply List.mem_flatMap.mpr
  exact ⟨relation, Entries.mem_of_mem_ofPairs listed, by rwa [if_pos included]⟩

/-- A model that names each of its relationships once leads only to what its full resource links to. -/
theorem linked_of_leads (named : Named plan.family) {resource : Resource}
    (full : resource? plan spell place = some resource)
    (leads : Leads plan.query plan.family place target) :
    ∃ member ∈ resource.relationships.getD [], ∃ given,
      identifierAt plan.family target = some given ∧ spell given ∈ member.2.targets := by
  obtain ⟨relations, told, led⟩ := leads
  obtain ⟨relations', told', written⟩ := relationships_of_resource? full
  rw [told] at told'
  cases told'
  rw [Entries.ofPairs_of_nodup (named place relations told)] at written
  obtain ⟨relation, listed, led⟩ := List.mem_flatMap.mp led
  obtain ⟨member, inside, writes⟩ := Paired.exists_of_mem_left written listed
  obtain ⟨_, linkage, links, targets⟩ := relationship?_parts writes
  by_cases included : plan.query.includes relation.1 = true
  · rw [if_pos included] at led
    obtain ⟨identifier, linked, given, tells, rfl⟩ :=
      Paired.exists_of_mem_left (linkage?_targets included links) led
    exact ⟨member, inside, given, tells, targets ▸ linked⟩
  · rw [if_neg included] at led
    cases led

variable {content : Content} {visited : List Nat} {resources primary : List Resource}

theorem Covers.linksTo_of_leads (named : Named plan.family)
    (covers : Covers plan content (spelled plan.family visited) visited resources primary)
    {one other : Resource} (first : resource? plan (spelled plan.family visited) place = some one)
    (second : resource? plan (spelled plan.family visited) target = some other)
    (visits : target ∈ visited) (leads : Leads plan.query plan.family place target) :
    one.LinksTo other := by
  obtain ⟨member, inside, given, tells, linked⟩ := linked_of_leads named first leads
  obtain ⟨gives, _⟩ := resource?_parts second
  rw [tells] at gives
  cases gives
  rw [spelled_of_mem covers.apart visits tells] at linked
  exact ⟨member, inside, linked⟩

/-- Every resource is linked to from primary data. The induction is along the way on which the walk has
reached it. -/
theorem Covers.linked (named : Named plan.family)
    (covers : Covers plan content (spelled plan.family visited) visited resources primary)
    {resource : Resource} (inside : resource ∈ resources) :
    ∃ first ∈ primary, Relation.ReflTransGen
      (fun one other => one.LinksTo other ∧ one ∈ resources ∧ other ∈ resources) first resource := by
  obtain ⟨place, member, full⟩ := Paired.exists_of_mem_right covers.full inside
  rcases covers.walked.reached place member with nowhere | ⟨start, among, visits, path⟩
  · cases nowhere
  obtain ⟨first, shown, standing⟩ := Paired.exists_of_mem_left covers.standing among
  obtain ⟨identifier, other, given, stands, starts⟩ := standing?_parts standing
  rw [standIn?_of_mem covers.apart visits given] at stands
  cases stands
  refine ⟨first, shown, ?_⟩
  clear member
  induction path generalizing resource with
  | refl =>
    rw [starts] at full
    cases full
    exact .refl
  | @tail between target _ step ih =>
    obtain ⟨leads, before, after⟩ := step
    obtain ⟨middle, present, fills⟩ := covers.exists_resource before
    have links := covers.linksTo_of_leads named fills full after leads
    exact .tail (ih present fills) ⟨links, present, inside⟩

/-- What an included relationship links to is the identifier of one of the resources, for the walk is
closed under the relationships that it follows. -/
theorem Covers.complete
    (covers : Covers plan content (spelled plan.family visited) visited resources primary)
    {resource : Resource} (inside : resource ∈ resources) {member : String × Relationship}
    (listed : member ∈ resource.relationships.getD [])
    (included : plan.query.includes member.1 = true) {identifier : Identifier}
    (linked : identifier ∈ member.2.targets) :
    ∃ other ∈ resources, other.identifier = identifier := by
  obtain ⟨place, visits, full⟩ := Paired.exists_of_mem_right covers.full inside
  obtain ⟨target, given, ⟨relations, told, led⟩, tells, rfl⟩ :=
    leads_of_linked full listed included linked
  obtain ⟨other, stands⟩ := covers.walked.stands_of_leads visits told led tells
  obtain ⟨resource', present, fills⟩ := covers.exists_resource (like_of_standIn? stands).1
  refine ⟨resource', present, ?_⟩
  rw [spelled, stands, Option.bind_some, (resource?_parts fills).1, Option.getD_some]

end Walk

namespace Document

variable {γ : Type} [Uri.Layout γ]

/-- In a document with primary data, whatever is included is linked to from primary data through
resources of the document, and relationships that the request includes link to resources of the
document only. -/
theorem linked_and_complete (settings : Settings) (generator : γ) (family : List Model)
    (content : Content) (uri : String) (info : Option Members) (d : Document)
    (named : Walk.Named family)
    (composed : (compose settings generator family content uri info).result = .ok d)
    (present : d.data.isAbsent = false) :
    (∀ resource ∈ d.included.getD [], ∃ first ∈ d.data.resources, Relation.ReflTransGen
      (fun one other => one.LinksTo other ∧ one ∈ d.resources ∧ other ∈ d.resources)
      first resource) ∧
    ∀ resource ∈ d.resources, ∀ member ∈ resource.relationships.getD [],
      (Query.ofReference uri.toList).includes member.1 = true →
        ∀ identifier ∈ member.2.targets, ∃ other ∈ d.resources, other.identifier = identifier := by
  rcases compose_ok composed with ⟨absent, _⟩ | ⟨visited, resources, primary, covers, rfl⟩
  · rw [absent] at present
    cases present
  have data : (around settings uri info content primary resources).data.resources = primary :=
    data_around primary resources
  have shown : ∀ resource, resource ∈ resources →
      resource ∈ (around settings uri info content primary resources).resources :=
    fun resource => (mem_resources_around covers).mpr
  rw [included_around, data]
  constructor
  · intro resource member
    obtain ⟨first, starts, path⟩ := covers.linked named (Walk.mem_besides.mp member).1
    refine ⟨first, starts, Relation.ReflTransGen.mono ?_ _ _ path⟩
    rintro one other ⟨links, before, after⟩
    exact ⟨links, shown one before, shown other after⟩
  · intro resource inside member listed included identifier linked
    obtain ⟨other, present, same⟩ :=
      covers.complete ((mem_resources_around covers).mp inside) listed included linked
    exact ⟨other, shown other present, same⟩

/-- The blog links to all that it includes, and to nothing outside. -/
theorem blog_linked_and_complete : ∃ d, blogDocument.result = .ok d ∧
    (∀ resource ∈ d.included.getD [], ∃ first ∈ d.data.resources, Relation.ReflTransGen
      (fun one other => one.LinksTo other ∧ one ∈ d.resources ∧ other ∈ d.resources)
      first resource) ∧
    ∀ resource ∈ d.resources, ∀ member ∈ resource.relationships.getD [],
      (Query.ofReference blogRequest.toList).includes member.1 = true →
        ∀ identifier ∈ member.2.targets, ∃ other ∈ d.resources, other.identifier = identifier := by
  obtain ⟨d, composed, present, _⟩ := blogDocument_ok
  have named : Walk.Named blog := by
    intro place relations told
    have distinct : ∀ one < 6, (Walk.relationsAt blog one).all
        (fun relations => decide (Entries.keys relations).Nodup) = true := by decide
    simpa [told] using distinct place (Walk.relationsAt_lt told)
  exact ⟨d, composed, linked_and_complete _ _ blog _ _ none d named composed present⟩

end Document

end JsonApi
