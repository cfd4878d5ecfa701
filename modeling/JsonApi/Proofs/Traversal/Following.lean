import JsonApi.Proofs.Traversal.Tracking

/-!
The relationships of a resource under construction. They are followed one after the other and turned
into linkage afterwards. Main statements: following relationships goes along a walk through the
places that they lead to, if building single resources does; and the linkage is that of the full
resource, whatever state the related resources were in when they were met.
-/

namespace JsonApi.Walk

open Build

variable {γ : Type} {plan : Plan γ} {visited later : List Nat} {w w' : Workspace}
  {place : Nat} {identifier : Identifier} {item : Instance} {make : Nat → Build Instance}
  {name : String}

/-- An instance that stands in a store for the model at a place. -/
def Made (plan : Plan γ) (w : Workspace) (place : Nat) (item : Instance) : Prop :=
  ∃ identifier, identifierAt plan.family place = some identifier ∧
    w.store.find? identifier = some item

inductive Depicts (plan : Plan γ) (w : Workspace) (name : String) : Related → RelatedData → Prop where
  | absent : Depicts plan w name .absent .none
  | reference {place : Nat} {identifier : Identifier} (skipped : plan.query.includes name = false)
    (given : identifierAt plan.family place = some identifier) :
    Depicts plan w name (.one place) (.reference identifier)
  | built {place : Nat} {item : Instance} (included : plan.query.includes name = true)
    (made : Made plan w place item) : Depicts plan w name (.one place) (.built item)
  | references {places : List Nat} {identifiers : List Identifier}
    (skipped : plan.query.includes name = false)
    (given : List.Forall₂ (fun place identifier => identifierAt plan.family place = some identifier)
      places identifiers) :
    Depicts plan w name (.many places) (.references identifiers)
  | builtAll {places : List Nat} {items : List Instance} (included : plan.query.includes name = true)
    (made : List.Forall₂ (Made plan w) places items) :
    Depicts plan w name (.many places) (.builtAll items)
  | foreign (form : String) : Depicts plan w name (.foreign form) (.foreign form)

theorem Made.mono (made : Made plan w place item) (grows : Grows w w') : Made plan w' place item := by
  obtain ⟨identifier, given, found⟩ := made
  exact ⟨identifier, given, grows.find? found⟩

theorem Depicts.mono {related : Related} {data : RelatedData}
    (depicts : Depicts plan w name related data) (grows : Grows w w') :
    Depicts plan w' name related data := by
  cases depicts with
  | absent => exact .absent
  | reference skipped given => exact .reference skipped given
  | built included made => exact .built included (made.mono grows)
  | references skipped given => exact .references skipped given
  | builtAll included made => exact .builtAll included (made.imp fun _ _ made => made.mono grows)
  | foreign form => exact .foreign form

theorem identifierAt_of_ofOutcome
    (run : ofOutcome (modelAt plan.family place).identifier w = .ok identifier w') :
    identifierAt plan.family place = some identifier ∧ w'.store = w.store ∧ w'.serial = w.serial := by
  obtain ⟨given, store, serial⟩ := ofOutcome_ok run
  exact ⟨by rw [identifierAt, given]; rfl, store, serial⟩

theorem identifiersOf_ok {places : List Nat} {identifiers : List Identifier}
    (run : identifiersOf plan.family places w = .ok identifiers w') :
    List.Forall₂ (fun place identifier => identifierAt plan.family place = some identifier) places
        identifiers ∧ w'.store = w.store ∧ w'.serial = w.serial := by
  induction places generalizing w identifiers with
  | nil =>
    obtain ⟨rfl, rfl⟩ := pure_ok run
    exact ⟨.nil, rfl, rfl⟩
  | cons place rest ih =>
    obtain ⟨identifier, w₁, asked, run⟩ := bind_ok run
    obtain ⟨others, w₂, further, run⟩ := bind_ok run
    obtain ⟨rfl, rfl⟩ := pure_ok run
    obtain ⟨given, store, serial⟩ := identifierAt_of_ofOutcome asked
    obtain ⟨gives, store', serial'⟩ := ih further
    exact ⟨.cons given gives, store'.trans store, serial'.trans serial⟩

variable [Uri.Layout γ]

def Makes (plan : Plan γ) (make : Nat → Build Instance) : Prop :=
  ∀ {place : Nat} {visited : List Nat} {w w' : Workspace} {item : Instance},
    Tracks plan visited w → make place w = .ok item w' →
      Made plan w' place item ∧ ∃ later, Advances plan [place] visited later w w'

theorem makeAll_ok (makes : Makes plan make) {places : List Nat} {items : List Instance}
    (tracks : Tracks plan visited w) (run : makeAll make places w = .ok items w') :
    List.Forall₂ (Made plan w') places items ∧ ∃ later, Advances plan places visited later w w' := by
  induction places generalizing visited w items with
  | nil =>
    obtain ⟨rfl, rfl⟩ := pure_ok run
    exact ⟨.nil, visited, .nil tracks rfl rfl⟩
  | cons place rest ih =>
    obtain ⟨item, w₁, first, run⟩ := bind_ok run
    obtain ⟨others, w₂, further, run⟩ := bind_ok run
    obtain ⟨rfl, rfl⟩ := pure_ok run
    obtain ⟨made, between, advances⟩ := makes tracks first
    obtain ⟨others, later, advances'⟩ := ih advances.tracks further
    exact ⟨.cons (made.mono advances'.grows) others, later, advances.append advances'⟩

/-- One relationship is followed to the places that it leads to, if it is included. -/
theorem follow_ok (makes : Makes plan make) (tracks : Tracks plan visited w) {related : Related}
    {data : RelatedData} (run : follow plan make name related w = .ok data w') :
    Depicts plan w' name related data ∧
      ∃ later, Advances plan (if plan.query.includes name then related.targets else []) visited later
        w w' := by
  cases related with
  | absent =>
    obtain ⟨rfl, rfl⟩ := pure_ok run
    exact ⟨.absent, visited, by simpa [Related.targets] using Advances.nil tracks rfl rfl⟩
  | one place =>
    simp only [follow, followOne] at run
    cases included : plan.query.includes name with
    | false =>
      rw [included, if_neg (by simp)] at run
      obtain ⟨identifier, w₁, asked, run⟩ := bind_ok run
      obtain ⟨rfl, rfl⟩ := pure_ok run
      obtain ⟨given, store, serial⟩ := identifierAt_of_ofOutcome asked
      exact ⟨.reference included given, visited, by simpa using Advances.nil tracks store serial⟩
    | true =>
      rw [included, if_pos rfl] at run
      obtain ⟨_, w₁, recorded, run⟩ := bind_ok run
      obtain ⟨item, w₂, built, run⟩ := bind_ok run
      obtain ⟨rfl, rfl⟩ := pure_ok run
      obtain ⟨store, serial⟩ := record_ok recorded
      have step : Advances plan [] visited visited w w₁ :=
        .nil tracks store serial
      obtain ⟨made, later, advances⟩ := makes step.tracks built
      exact ⟨.built included made, later, by simpa [Related.targets] using step.append advances⟩
  | many places =>
    simp only [follow, followMany] at run
    cases included : plan.query.includes name with
    | false =>
      rw [included, if_neg (by simp)] at run
      obtain ⟨identifiers, w₁, asked, run⟩ := bind_ok run
      obtain ⟨rfl, rfl⟩ := pure_ok run
      obtain ⟨given, store, serial⟩ := identifiersOf_ok asked
      exact ⟨.references included given, visited, by simpa using Advances.nil tracks store serial⟩
    | true =>
      rw [included, if_pos rfl] at run
      obtain ⟨_, w₁, recorded, run⟩ := bind_ok run
      obtain ⟨items, w₂, built, run⟩ := bind_ok run
      obtain ⟨rfl, rfl⟩ := pure_ok run
      obtain ⟨store, serial⟩ := record_ok recorded
      have step : Advances plan [] visited visited w w₁ :=
        .nil tracks store serial
      obtain ⟨made, later, advances⟩ := makeAll_ok makes step.tracks built
      exact ⟨.builtAll included made, later, by simpa [Related.targets] using step.append advances⟩
  | stray fault =>
    simp only [follow, followStray] at run
    split at run
    · obtain ⟨_, w₁, _, run⟩ := bind_ok run
      exact absurd run (fail_ne_ok fault)
    · exact absurd run (fail_ne_ok fault)
  | foreign form =>
    obtain ⟨rfl, rfl⟩ := pure_ok run
    exact ⟨.foreign form, visited, by simpa [Related.targets] using Advances.nil tracks rfl rfl⟩

theorem followAll_ok (makes : Makes plan make) (tracks : Tracks plan visited w)
    {relations : List (String × Related)} {data : List (String × RelatedData)}
    (run : followAll plan make relations w = .ok data w') :
    List.Forall₂ (Entries.Alike (Depicts plan w')) relations data ∧
      ∃ later, Advances plan (followed plan.query relations) visited later w w' := by
  induction relations generalizing visited w data with
  | nil =>
    obtain ⟨rfl, rfl⟩ := pure_ok run
    exact ⟨.nil, visited, .nil tracks rfl rfl⟩
  | cons relation rest ih =>
    obtain ⟨datum, w₁, first, run⟩ := bind_ok run
    obtain ⟨others, w₂, further, run⟩ := bind_ok run
    obtain ⟨rfl, rfl⟩ := pure_ok run
    obtain ⟨depicts, between, advances⟩ := follow_ok makes tracks first
    obtain ⟨depict, later, advances'⟩ := ih advances.tracks further
    refine ⟨.cons ⟨rfl, depicts.mono advances'.grows⟩ depict, later, ?_⟩
    rw [followed, List.flatMap_cons]
    exact advances.append advances'

variable {v v' : Workspace}

theorem register_found (tracks : Tracks plan visited w) (same : v.store = w.store)
    (found : w.store.find? identifier = some item) {given : Identifier}
    (run : register item v = .ok given v') :
    given = item.identifier ∧ v'.store = w.store ∧ v'.serial = v.serial := by
  obtain ⟨own, _, store, serial⟩ := register_ok run
  rw [same, Store.keep_of_itself (Store.get?_of_find? tracks.sound found) rfl] at store
  exact ⟨own, store, serial⟩

theorem registerAll_found (tracks : Tracks plan visited w) {places : List Nat}
    {items : List Instance} (made : List.Forall₂ (Made plan w) places items)
    (same : v.store = w.store) {identifiers : List Identifier}
    (run : registerAll items v = .ok identifiers v') :
    v'.store = w.store ∧ v'.serial = v.serial ∧ ∀ final, visited <+: final →
      (places.mapM (identifierAt plan.family)).map (List.map (spelled plan.family final)) =
        some identifiers := by
  induction made generalizing v identifiers with
  | nil =>
    obtain ⟨rfl, rfl⟩ := pure_ok run
    exact ⟨same, rfl, fun _ _ => rfl⟩
  | @cons place item places items here _ ih =>
    obtain ⟨first, v₁, registered, run⟩ := bind_ok run
    obtain ⟨others, v₂, further, run⟩ := bind_ok run
    obtain ⟨rfl, rfl⟩ := pure_ok run
    obtain ⟨identifier, given, found⟩ := here
    obtain ⟨rfl, store, serial⟩ := register_found tracks same found registered
    obtain ⟨store', serial', spell⟩ := ih store further
    refine ⟨store', serial'.trans serial, fun final grows => ?_⟩
    obtain ⟨written, gives, rfl⟩ := Option.map_eq_some_iff.mp (spell final grows)
    rw [List.mapM_cons, given, gives, ← tracks.spelled_of_find? found grows]
    rfl

/-- Related data become the linkage of the full resource, and nothing else changes. -/
theorem link_ok (tracks : Tracks plan visited w) {related : Related} {data : RelatedData}
    (depicts : Depicts plan w name related data) (same : v.store = w.store) {linkage : Linkage}
    (run : link data v = .ok linkage v') :
    v'.store = w.store ∧ v'.serial = v.serial ∧ ∀ final, visited <+: final →
      linkage? plan (spelled plan.family final) name related = some linkage := by
  cases depicts with
  | absent =>
    obtain ⟨rfl, rfl⟩ := pure_ok run
    exact ⟨same, rfl, fun _ _ => rfl⟩
  | reference skipped given =>
    obtain ⟨rfl, rfl⟩ := pure_ok run
    refine ⟨same, rfl, fun final _ => ?_⟩
    simp [linkage?, given, skipped]
  | built included made =>
    obtain ⟨identifier, given, found⟩ := made
    obtain ⟨written, v₁, registered, run⟩ := bind_ok run
    obtain ⟨rfl, rfl⟩ := pure_ok run
    obtain ⟨rfl, store, serial⟩ := register_found tracks same found registered
    refine ⟨store, serial, fun final grows => ?_⟩
    simp [linkage?, given, included, tracks.spelled_of_find? found grows]
  | references skipped given =>
    obtain ⟨rfl, rfl⟩ := pure_ok run
    refine ⟨same, rfl, fun final _ => ?_⟩
    simp [linkage?, Paired.mapM_eq_some_iff.mpr given, skipped]
  | builtAll included made =>
    obtain ⟨written, v₁, registered, run⟩ := bind_ok run
    obtain ⟨rfl, rfl⟩ := pure_ok run
    obtain ⟨store, serial, spell⟩ := registerAll_found tracks made same registered
    refine ⟨store, serial, fun final grows => ?_⟩
    obtain ⟨identifiers, gives, rfl⟩ := Option.map_eq_some_iff.mp (spell final grows)
    simp [linkage?, gives, included]
  | foreign form => exact absurd run (fail_ne_ok _)

/-- The relationships of a resource are those of the full resource, and nothing else changes. -/
theorem linkAll_ok (tracks : Tracks plan visited w) {relations : List (String × Related)}
    {data : List (String × RelatedData)}
    (depict : List.Forall₂ (Entries.Alike (Depicts plan w)) relations data)
    (same : v.store = w.store) {relationships : List (String × Relationship)}
    (run : linkAll plan.generator identifier data v = .ok relationships v') :
    v'.store = w.store ∧ v'.serial = v.serial ∧ ∀ final, visited <+: final →
      relations.mapM (relationship? plan (spelled plan.family final) identifier) =
        some relationships := by
  induction depict generalizing v relationships with
  | nil =>
    obtain ⟨rfl, rfl⟩ := pure_ok run
    exact ⟨same, rfl, fun _ _ => rfl⟩
  | @cons relation datum relations data here _ ih =>
    obtain ⟨names, depicts⟩ := here
    obtain ⟨self, v₁, first, run⟩ := bind_ok run
    obtain ⟨related, v₂, second, run⟩ := bind_ok run
    obtain ⟨linkage, v₃, linked, run⟩ := bind_ok run
    obtain ⟨others, v₄, further, run⟩ := bind_ok run
    obtain ⟨rfl, rfl⟩ := pure_ok run
    obtain ⟨links, rfl⟩ := ofExcept_ok first
    obtain ⟨leads, rfl⟩ := ofExcept_ok second
    obtain ⟨store, serial, spell⟩ := link_ok tracks depicts same linked
    obtain ⟨store', serial', spells⟩ := ih store further
    refine ⟨store', serial'.trans serial, fun final grows => ?_⟩
    rw [names] at links leads
    rw [List.mapM_cons, relationship?, links, leads, spell final grows, spells final grows]
    simp [Except.toOption, names]

theorem relate_ok (makes : Makes plan make) (tracks : Tracks plan visited w)
    {relationships : Option (List (String × Relationship))}
    (run : relate plan make (modelAt plan.family place) identifier w = .ok relationships w') :
    ∃ relations later, relationsAt plan.family place = some relations ∧
      Advances plan (followed plan.query relations) visited later w w' ∧
      ∃ told, (modelAt plan.family place).relations.result = .ok told ∧
        ∀ final, later <+: final →
          relationships? plan (spelled plan.family final) identifier told = some relationships := by
  obtain ⟨data?, w₁, follows, run⟩ := bind_ok run
  obtain ⟨told, w₂, asked, follows⟩ := bind_ok follows
  obtain ⟨telling, store, serial⟩ := ofOutcome_ok asked
  have step : Advances plan [] visited visited w w₂ :=
    .nil tracks store serial
  cases told with
  | none =>
    obtain ⟨rfl, rfl⟩ := pure_ok follows
    obtain ⟨rfl, rfl⟩ := pure_ok run
    exact ⟨[], visited, by simp [relationsAt, telling, Except.toOption], step, none, telling,
      fun _ _ => rfl⟩
  | some relations =>
    obtain ⟨data, w₃, followed, follows⟩ := bind_ok follows
    obtain ⟨rfl, rfl⟩ := pure_ok follows
    obtain ⟨linked, w₄, links, run⟩ := bind_ok run
    obtain ⟨rfl, rfl⟩ := pure_ok run
    obtain ⟨depict, later, advances⟩ := followAll_ok makes step.tracks followed
    have kept := Entries.forall₂_putAll depict (.nil)
    obtain ⟨store', serial', spells⟩ := linkAll_ok advances.tracks kept rfl links
    have still : Advances plan [] later later w₁ w' :=
      .nil advances.tracks store' serial'
    refine ⟨relations, later, by simp [relationsAt, telling, Except.toOption],
      by simpa using (step.append advances).append still, some relations, telling, ?_⟩
    intro final grows
    rw [relationships?, Entries.ofPairs, spells final grows]
    rfl

end JsonApi.Walk
