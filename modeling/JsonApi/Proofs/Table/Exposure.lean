import JsonApi.Proofs.Document.Linkage
import JsonApi.Proofs.Document.Persistence
import JsonApi.Proofs.Query.Selection
import JsonApi.Proofs.Table.Setting

/-!
What documents show of rows. Main statement: a resource shows the columns of its row that make up
neither identity nor relationships and that nothing excludes, as far as a request asks for them, and
all relations that are not excluded; and a document names no row that is not reached through such
relations. So no request can bring to light what a class excludes.
-/

namespace JsonApi

namespace Table

def Exposes (t : Table) (fields : Option (List String)) (column : Column) : Prop :=
  column.isKey = false ∧ column.reference = none ∧ column.name.toList.head? ≠ some '_' ∧
    column.name ∉ t.hiddenAttributes ∧ column.name ≠ "id" ∧ column.name ≠ "type" ∧
    ∀ requested ∈ fields, column.name ∈ requested

instance (t : Table) (fields : Option (List String)) : DecidablePred (t.Exposes fields) :=
  fun column => inferInstanceAs (Decidable (column.isKey = false ∧ column.reference = none ∧
    column.name.toList.head? ≠ some '_' ∧ column.name ∉ t.hiddenAttributes ∧ column.name ≠ "id" ∧
    column.name ≠ "type" ∧ ∀ requested ∈ fields, column.name ∈ requested))

theorem exposes_iff (t : Table) (fields : Option (List String)) (column : Column) :
    t.Exposes fields column ↔
      t.shows column = true ∧ ∀ requested ∈ fields, column.name ∈ requested := by
  simp only [Exposes, shows, isCandidate, Column.isForeign, Bool.and_eq_true, Bool.not_eq_true',
    Option.isSome_eq_false_iff, Option.isNone_iff_eq_none, decide_eq_true_eq, and_assoc,
    List.contains_eq_mem, decide_eq_false_iff_not]

theorem narrow_attributeNames (t : Table) (fields : Option (List String)) (value : String → Value) :
    Query.narrow fields (t.attributeNames.map fun name => (name, value name)) =
      (t.columns.filter (t.Exposes fields)).map fun column => (column.name, value column.name) := by
  have both (column : Column) : decide (t.Exposes fields column) =
      (decide (∀ requested ∈ fields, column.name ∈ requested) && t.shows column) := by
    simp [exposes_iff, Bool.and_comm]
  rw [attributeNames, List.map_map, Query.narrow_eq_filter, List.filter_map, List.filter_filter,
    funext both]
  rfl

end Table

namespace Linkage

def isList : Linkage → Bool
  | .many _ => true
  | _ => false

end Linkage

namespace Resource

def names (resource : Resource) : List Identifier :=
  resource.identifier :: (resource.relationships.getD []).flatMap (·.2.targets)

end Resource

namespace Row

variable {settings : Settings} {query : Query} {rows : List Row} {r : Row} {place target : Nat}

def settled (rows : List Row) : List Row := rows.map (settle rows)

def models (settings : Settings) (rows : List Row) : List Model :=
  (settled rows).map (·.toModel settings)

def reveals (r : Row) (relation : Relation) : Bool := r.hides relation.name matches .ok false

def Leads (rows : List Row) (place target : Nat) : Prop :=
  ∃ r relation, (settled rows)[place]? = some r ∧ relation ∈ r.table.relations ∧
    r.reveals relation = true ∧ target ∈ (r.follow relation).targets

/-- A row that is reached from content, by relations that are not excluded, gives the identifier. -/
def Reaches (settings : Settings) (rows : List Row) (content : Content) (identifier : Identifier) :
    Prop :=
  ∃ start ∈ content.places, ∃ target, Relation.ReflTransGen (Leads rows) start target ∧
    Walk.identifierAt (models settings rows) target = some identifier

/-- A resource that shows of a row all that is not excluded, and nothing else. -/
structure Shows (query : Query) (r : Row) (resource : Resource) : Prop where
  attributes : resource.attributes = some ((r.table.columns.filter
    (r.table.Exposes (Model.fieldsOf query resource.identifier.kind))).map fun column =>
      (column.name, r.value column.name))
  relationships : ∃ shown, resource.relationships = some shown ∧
    List.Forall₂ (fun relation member => member.1 = relation.name ∧
      ∃ linkage, member.2.data = some linkage ∧ linkage.isList = !relation.isToOne)
      (r.table.relations.filter r.reveals) shown

/-- Relations are excluded by name in their class, unless a row has something of its own in place of the
excluded names. -/
theorem reveals_of_class (kept : r.override? "exclude_rels" = none) (relation : Relation) :
    r.reveals relation = true ↔ relation.name ∉ r.table.hiddenRelations := by
  unfold reveals hides
  rw [kept]
  cases excluded : r.table.hiddenRelations.contains relation.name <;> simp_all

theorem operation_ok {α : Type} {name : String} {result : Except Fault α} {a : α}
    (answer : r.operation name result = .ok a) : result = .ok a := by
  unfold operation at answer
  split at answer
  · cases answer
  · exact answer

theorem kind_of_identifier {identifier : Identifier} (given : r.identifier settings = .ok identifier) :
    r.kind = .ok identifier.kind := by
  obtain ⟨id, _, given⟩ := Except.bind_ok (operation_ok given)
  obtain ⟨kind, told, given⟩ := Except.bind_ok given
  rw [told]
  cases Except.ok.inj given
  split <;> rfl

theorem attributes_ok {attributes : Attributes} (told : r.attributes = .ok attributes) :
    attributes = ⟨some (r.table.attributeNames.map fun name => (name, r.value name)), true⟩ := by
  obtain ⟨names, listed, told⟩ := Except.bind_ok (operation_ok (operation_ok told))
  cases Except.ok.inj told
  unfold Table.listing at listed
  split at listed
  · cases listed
  · split at listed
    · cases listed
    · cases listed
      rfl

theorem attributesFor_ok {identifier : Identifier} {shown : Option Members}
    (given : r.identifier settings = .ok identifier)
    (told : ((r.toModel settings).attributesFor query).result = .ok shown) :
    shown = some ((r.table.columns.filter
      (r.table.Exposes (Model.fieldsOf query identifier.kind))).map fun column =>
        (column.name, r.value column.name)) := by
  obtain ⟨attributes, listed, ⟨plain, _⟩ | ⟨_, kind, members, known, present, rfl⟩⟩ :=
    Model.attributesFor_ok told
  · cases attributes_ok (Outcome.ofExcept_ok listed)
    cases plain
  · cases attributes_ok (Outcome.ofExcept_ok listed)
    cases present
    have same := kind_of_identifier given
    rw [Outcome.ofExcept_ok known] at same
    cases same
    rw [Table.narrow_attributeNames]

theorem followAll_ok {relations : List Relation} {told : List (String × Related)}
    (followed : r.followAll relations = .ok told) :
    told = (relations.filter r.reveals).map fun relation => (relation.name, r.follow relation) := by
  induction relations generalizing told with
  | nil =>
    cases followed
    rfl
  | cons relation rest ih =>
    obtain ⟨isHidden, excluded, followed⟩ := Except.bind_ok followed
    obtain ⟨others, further, followed⟩ := Except.bind_ok followed
    cases ih further
    cases Except.ok.inj followed
    cases isHidden with
    | true =>
      rw [List.filter_cons_of_neg (by simp [reveals, excluded])]
      rfl
    | false =>
      rw [List.filter_cons_of_pos (by simp [reveals, excluded])]
      rfl

theorem relations_ok {told : Option (List (String × Related))}
    (answer : (r.toModel settings).relations.result = .ok told) :
    told = some ((r.table.relations.filter r.reveals).map fun relation =>
      (relation.name, r.follow relation)) := by
  have related := Outcome.ofExcept_ok answer
  cases listed : r.relations with
  | error fault =>
    rw [listed] at related
    cases related
  | ok relations =>
    rw [listed] at related
    cases related
    rw [followAll_ok (operation_ok listed)]

theorem modelAt_models (standing : (settled rows)[place]? = some r) :
    modelAt (models settings rows) place = r.toModel settings := by
  rw [modelAt, models, List.getElem?_map, standing]
  rfl

theorem exists_of_lt (inside : place < (models settings rows).length) :
    ∃ r, (settled rows)[place]? = some r := by
  rw [models, List.length_map] at inside
  exact ⟨_, List.getElem?_eq_getElem inside⟩

/-- Rows of a database have one relation for each name and fit their tables, as documents see them. -/
theorem settled_fits {classes tables : List Table} (assembled : Table.assemble classes = .ok tables)
    (come : ∀ r ∈ rows, Comes tables r) (standing : (settled rows)[place]? = some r) :
    r.table.Distinct ∧ r.Fits := by
  obtain ⟨given, member, rfl⟩ := List.mem_map.mp (List.mem_of_getElem? standing)
  obtain ⟨known, fits⟩ := (come given member).fits assembled
  have distinct := Table.distinct_of_assemble assembled known
  exact ⟨distinct, settle_fits rows distinct fits⟩

variable {γ : Type} {generator : γ} {content : Content} {visited : List Nat}
  {spell : Identifier → Identifier} {resource : Resource}

theorem Fits.isList_of_linkage? {plan : Plan γ} {relation : Relation} {name : String}
    {linkage : Linkage} (fits : r.Fits) (listed : relation ∈ r.table.relations)
    (linked : Walk.linkage? plan spell name (r.follow relation) = some linkage) :
    linkage.isList = !relation.isToOne := by
  rcases fits.follow_cases listed with
    ⟨single, nothing | ⟨place, one⟩⟩ | ⟨several, places, many⟩ | ⟨fault, stray⟩
  · rw [nothing] at linked
    cases linked
    rw [single]
    rfl
  · rw [one] at linked
    obtain ⟨identifier, _, written⟩ := Option.bind_eq_some_iff.mp linked
    cases written
    rw [single]
    rfl
  · rw [many] at linked
    obtain ⟨identifiers, _, written⟩ := Option.bind_eq_some_iff.mp linked
    cases written
    rw [several]
    rfl
  · rw [stray] at linked
    cases linked

variable [Uri.Layout γ]

theorem shows_of_resource? (distinct : r.table.Distinct) (fits : r.Fits)
    (standing : (settled rows)[place]? = some r)
    (full : Walk.resource? ⟨query, generator, models settings rows⟩ spell place = some resource) :
    r.Shows query resource := by
  obtain ⟨given, told, telling, related⟩ := Walk.resource?_parts full
  have attributes := Walk.attributes_of_resource? full
  have identified := Walk.result_of_identifierAt given
  simp only [modelAt_models standing] at telling attributes identified
  refine ⟨attributesFor_ok (Outcome.ofExcept_ok identified) attributes, ?_⟩
  cases relations_ok telling
  obtain ⟨shown, written, gives⟩ := Option.map_eq_some_iff.mp related
  refine ⟨shown, gives.symm, ?_⟩
  -- Relations have different names, so that none of them takes the place of another.
  rw [Entries.ofPairs_of_nodup, Paired.mapM_eq_some_iff, List.forall₂_map_left_iff] at written
  · have inside : ∀ relation ∈ r.table.relations.filter r.reveals, relation ∈ r.table.relations :=
      fun relation member => List.mem_of_mem_filter member
    refine ((List.forall₂_and_left _ _).mpr ⟨inside, written⟩).imp ?_
    rintro relation member ⟨listed, writes⟩
    obtain ⟨name, linkage, links, data⟩ := Walk.relationship?_data writes
    exact ⟨name, linkage, data, fits.isList_of_linkage? listed links⟩
  · rw [Entries.keys, List.map_map]
    exact distinct.sublist (List.filter_sublist.map _)

theorem leads_of_told {relations : List (String × Related)} {relation : String × Related}
    (told : Walk.relationsAt (models settings rows) place = some relations)
    (listed : relation ∈ relations) (led : target ∈ relation.2.targets) : Leads rows place target := by
  obtain ⟨r, standing⟩ := exists_of_lt (Walk.relationsAt_lt told)
  rw [Walk.relationsAt, modelAt_models standing] at told
  cases answer : (r.toModel settings).relations.result with
  | error fault =>
    rw [answer] at told
    cases told
  | ok given =>
    rw [answer, relations_ok answer] at told
    cases told
    obtain ⟨relation, shown, rfl⟩ := List.mem_map.mp listed
    obtain ⟨inside, revealed⟩ := List.mem_filter.mp shown
    exact ⟨r, relation, standing, inside, revealed, led⟩

theorem leads_of_walk (leads : Walk.Leads query (models settings rows) place target) :
    Leads rows place target := by
  obtain ⟨relations, told, led⟩ := leads
  obtain ⟨relation, listed, led⟩ := List.mem_flatMap.mp led
  split at led
  · exact leads_of_told told listed led
  · cases led

theorem reached_of_visited {plan : Plan γ} {resources primary : List Resource}
    (family : plan.family = models settings rows)
    (covers : Walk.Covers plan content spell visited resources primary) (member : place ∈ visited) :
    ∃ start ∈ content.places, Relation.ReflTransGen (Leads rows) start place := by
  rcases covers.walked.reached place member with nowhere | ⟨start, starts, _, path⟩
  · cases nowhere
  · refine ⟨start, starts, Relation.ReflTransGen.mono ?_ _ _ path⟩
    rintro one other ⟨leads, _⟩
    rw [family] at leads
    exact leads_of_walk leads

/-- Linkage of a reached row leads to rows that are reached as well, whether a request includes them or
not. -/
theorem reaches_of_named {resources primary : List Resource}
    (covers : Walk.Covers ⟨query, generator, models settings rows⟩ content
      (Walk.spelled (models settings rows) visited) visited resources primary)
    (inside : resource ∈ resources) {identifier : Identifier} (named : identifier ∈ resource.names) :
    Reaches settings rows content identifier := by
  obtain ⟨place, visits, full⟩ := Paired.exists_of_mem_right covers.full inside
  obtain ⟨start, starts, path⟩ := reached_of_visited rfl covers visits
  rcases List.mem_cons.mp named with rfl | linked
  · exact ⟨start, starts, place, path, (Walk.resource?_parts full).1⟩
  obtain ⟨member, listed, linked⟩ := List.mem_flatMap.mp linked
  -- Only an included identifier may be written as another row gives it, and that row has been visited.
  cases included : query.includes member.1 with
  | true =>
    obtain ⟨target, given, leads, tells, rfl⟩ := Walk.leads_of_linked full listed included linked
    rcases Walk.spelled_cases (models settings rows) visited given with same | ⟨other, among, tells'⟩
    · exact ⟨start, starts, target, path.tail (leads_of_walk leads), by rw [same, tells]⟩
    · obtain ⟨start', starts', path'⟩ := reached_of_visited rfl covers among
      exact ⟨start', starts', other, path', tells'⟩
  | false =>
    obtain ⟨relations, related, told, among, copied⟩ := Walk.copied_of_resource? full listed included
    have copy := List.mem_map_of_mem (f := some) linked
    rw [copied] at copy
    obtain ⟨target, led, tells⟩ := List.mem_map.mp copy
    exact ⟨start, starts, target, path.tail (leads_of_told told among led), tells⟩

/-- Whatever a request asks for, every resource of a document of rows shows exactly the columns and
relations of a row that nothing excludes, and every identifier in it is that of a row that is reached
from the content by relations that are not excluded. -/
theorem compose_exposure (settings : Settings) (generator : γ) (classes tables : List Table)
    (rows : List Row) (content : Content) (uri : String) (info : Option Members) (d : Document)
    (assembled : Table.assemble classes = .ok tables) (come : ∀ r ∈ rows, Comes tables r)
    (composed : (Document.compose settings generator (models settings rows) content uri info).result =
      .ok d) :
    (∀ resource ∈ d.resources, ∃ place r, (settled rows)[place]? = some r ∧
      Walk.identifierAt (models settings rows) place = some resource.identifier ∧
      r.Shows (Query.ofReference uri.toList) resource) ∧
    (∀ resource ∈ d.resources, ∀ identifier ∈ resource.names,
      Reaches settings rows content identifier) ∧
    ∀ r : Row, r.override? "exclude_rels" = none → ∀ relation,
      r.reveals relation = true ↔ relation.name ∉ r.table.hiddenRelations := by
  refine ⟨fun resource shown => ?_, fun resource shown identifier named => ?_,
    fun r kept => reveals_of_class kept⟩
  · obtain ⟨visited, resources, primary, covers, inside⟩ := Document.covers_of_shown composed shown
    obtain ⟨place, _, full⟩ := Paired.exists_of_mem_right covers.full inside
    have given := (Walk.resource?_parts full).1
    obtain ⟨r, standing⟩ := exists_of_lt (Walk.identifierAt_lt given)
    obtain ⟨distinct, fits⟩ := settled_fits assembled come standing
    exact ⟨place, r, standing, given, shows_of_resource? distinct fits standing full⟩
  · obtain ⟨visited, resources, primary, covers, inside⟩ := Document.covers_of_shown composed shown
    exact reaches_of_named covers inside named

def authors : Table where
  className := "Author"
  stored := "authors"
  isBare := false
  columns := [⟨"id", "id", true, none⟩, ⟨"name", "name", false, none⟩,
    ⟨"born", "born", false, none⟩, ⟨"password", "password", false, none⟩]
  relations := [⟨"books", .oneToMany, true, "Book"⟩]
  hiddenAttributes := ["password"]
  hiddenRelations := []
  delimiter := .null

def books : Table where
  className := "Book"
  stored := "books"
  isBare := false
  columns := [⟨"id", "id", true, none⟩, ⟨"title", "title", false, none⟩,
    ⟨"author_id", "author_id", false, some "authors.id"⟩]
  relations := [⟨"author", .manyToOne, false, "Author"⟩, ⟨"editor", .manyToOne, false, "Author"⟩]
  hiddenAttributes := []
  hiddenRelations := ["editor"]
  delimiter := .null

def author (place : Nat) (id : Int) (name : String) (written : List Nat) : Row :=
  ⟨authors, place, [("id", .value (.int id)), ("name", .value (.text name)),
    ("password", .value (.text "secret")), ("books", .rows written)]⟩

def book (place : Nat) (id : Int) (title : String) (author editor : Nat) : Row :=
  ⟨books, place, [("id", .value (.int id)), ("title", .value (.text title)),
    ("author", .row author), ("editor", .row editor)]⟩

theorem comes_author (place : Nat) (id : Int) (name : String) (written : List Nat) :
    Comes [authors, books] (author place id name written) := by
  have made : make authors place [("id", .int id), ("name", .text name), ("password", .text "secret")] =
      .ok ⟨authors, place, [("id", .value (.int id)), ("name", .value (.text name)),
        ("password", .value (.text "secret"))]⟩ := rfl
  have related : Row.set ⟨authors, place, [("id", .value (.int id)), ("name", .value (.text name)),
      ("password", .value (.text "secret"))]⟩ "books" (.rows written) =
      .ok (author place id name written) := rfl
  exact .set (.made List.mem_cons_self made) related

theorem comes_book (place : Nat) (id : Int) (title : String) (author editor : Nat) :
    Comes [authors, books] (book place id title author editor) := by
  have made : make books place [("id", .int id), ("title", .text title)] =
      .ok ⟨books, place, [("id", .value (.int id)), ("title", .value (.text title))]⟩ := rfl
  have written : Row.set ⟨books, place, [("id", .value (.int id)), ("title", .value (.text title))]⟩
      "author" (.row author) = .ok ⟨books, place, [("id", .value (.int id)),
        ("title", .value (.text title)), ("author", .row author)]⟩ := rfl
  have edited : Row.set ⟨books, place, [("id", .value (.int id)), ("title", .value (.text title)),
      ("author", .row author)]⟩ "editor" (.row editor) =
      .ok (book place id title author editor) := rfl
  exact .set (.set (.made (List.mem_cons_of_mem _ List.mem_cons_self) made) written) edited

def library : List Row := [author 0 1 "Thomas" [1], book 1 1 "first" 0 2, author 2 2 "Ann" []]

def libraryDocument : Outcome Document :=
  Document.compose (Settings.make none [] []) (.ok "" : Except Fault String)
    (models (Settings.make none [] []) library) (.single (.model 0))
    "/authors/1?include=books,editor&fields[authors]=name,password" none

/-- Neither passwords nor editors come to light, nor when an author was born, which nobody asks for. -/
theorem library_exposure : Table.assemble [authors, books] = .ok [authors, books] ∧
    (∀ r ∈ library, Comes [authors, books] r) ∧ ∃ d, libraryDocument.result = .ok d ∧
      d.resources.map (fun resource => (resource.identifier, resource.attributes.map Entries.keys)) =
        [(.existing (.text "authors") "1", some ["name"]),
          (.existing (.text "books") "1", some ["title"])] ∧
      (∀ resource ∈ d.resources, ∃ place r, (settled library)[place]? = some r ∧
        Walk.identifierAt (models (Settings.make none [] []) library) place =
          some resource.identifier ∧
        r.Shows (Query.ofReference
          "/authors/1?include=books,editor&fields[authors]=name,password".toList) resource) ∧
      (∀ resource ∈ d.resources, ∀ identifier ∈ resource.names,
        Reaches (Settings.make none [] []) library (.single (.model 0)) identifier) ∧
      ∀ r : Row, r.override? "exclude_rels" = none → ∀ relation,
        r.reveals relation = true ↔ relation.name ∉ r.table.hiddenRelations := by
  have assembled : Table.assemble [authors, books] = .ok [authors, books] := rfl
  have come : ∀ r ∈ library, Comes [authors, books] r := by
    simp only [library, List.forall_mem_cons]
    exact ⟨comes_author 0 1 "Thomas" [1], comes_book 1 1 "first" 0 2, comes_author 2 2 "Ann" [],
      List.forall_mem_nil _⟩
  have passes : libraryDocument.result.toOption.any (fun d =>
      d.resources.map (fun resource => (resource.identifier, resource.attributes.map Entries.keys)) =
        [(.existing (.text "authors") "1", some ["name"]),
          (.existing (.text "books") "1", some ["title"])]) = true := by
    decide +kernel
  obtain ⟨d, composed, passed⟩ := Outcome.exists_ok passes
  exact ⟨assembled, come, d, composed, of_decide_eq_true passed,
    compose_exposure _ _ _ _ library _ _ none d assembled come composed⟩

end Row

end JsonApi
