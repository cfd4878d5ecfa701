import JsonApi.Document.Basic
import JsonApi.Proofs.Value.Trees

/-!
The trees of documents. Each part of a document stands for a tree that is made of its own members, and
those that are absent leave nothing behind. Main statement: the tree of a document.
-/

namespace JsonApi

namespace Value

variable {inside : Bool} {shape : Shape} {α : Type} (f : α → Value) (name : String)

theorem treeIn_list (items : List α) :
    treeIn inside (.list (items.map f)) = .array (items.map fun item => treeIn inside (f item)) := by
  rw [treeIn, itemTrees_eq_map, List.map_map]
  rfl

theorem treeIn_open (isOpen : shape.isOpen = true) (fields extra : Members) :
    treeIn true (.record shape fields extra) =
      .object (Json.present (fields.map fun field => (plainName shape field.1, (fieldTree true field).2)) ++
        Json.present (extra.map (fieldTree true))) := by
  rw [treeIn, if_pos (Or.inl rfl), innerTree, if_pos isOpen, fieldTrees_eq_map, fieldTrees_eq_map,
    List.map_map]
  rfl

theorem fieldTree_ofOption (present : ∀ a, (f a).isNull = false) (o : Option α) :
    fieldTree inside (name, .ofOption f o) = (name, o.map fun a => treeIn inside (f a)) := by
  cases o with
  | none => rfl
  | some a => rw [fieldTree, ofOption, if_neg (by simp [present a]), Option.map_some]

theorem fieldTree_text (o : Option String) :
    fieldTree inside (name, .ofOption .text o) = (name, o.map .text) := by
  cases o <;> rfl

theorem fieldTree_list (o : Option (List α)) :
    fieldTree inside (name, .ofOption (fun items => .list (items.map f)) o) =
      (name, o.map fun items => .array (items.map fun item => treeIn inside (f item))) := by
  rw [fieldTree_ofOption _ _ fun _ => rfl]
  simp only [treeIn_list]

theorem fieldTree_links (o : Option Links) : fieldTree inside (name, .ofOption Links.toValue o) =
    (name, o.map fun links => treeIn inside links.toValue) :=
  fieldTree_ofOption _ name (fun _ => rfl) o

theorem fieldTree_members (o : Option Members) : fieldTree inside (name, .ofOption .ofMembers o) =
    (name, o.map fun members => treeIn inside (ofMembers members)) :=
  fieldTree_ofOption _ name (fun _ => rfl) o

theorem tree_ofMembers (members : Members) :
    (ofMembers members).tree = .object (members.map fun member => (member.1, member.2.tree)) :=
  treeIn_ofMembers members

end Value

open Value

theorem Identifier.tree_existing (kind : Kind) (id : String) :
    (Identifier.existing kind id).toValue.tree =
      .object [("type", kind.toValue.tree), ("id", .text id)] := by
  have type := getD_fieldTree false ("kind", kind.toValue)
  rw [tree, toValue, treeIn_record (by decide), tree, ← type]
  rfl

theorem Identifier.tree_new (kind : Kind) (lid : Option String) :
    (Identifier.new kind lid).toValue.tree =
      .object (("type", kind.toValue.tree) :: Json.present [("lid", lid.map .text)]) := by
  have type := getD_fieldTree false ("kind", kind.toValue)
  rw [tree, toValue, treeIn_record (by decide), tree, ← type]
  simp only [List.map_cons, List.map_nil, fieldTree_text]
  rfl

theorem Linkage.tree_one (identifier : Identifier) :
    (Linkage.one identifier).toValue.tree = identifier.toValue.tree := by
  have field := getD_fieldTree false ("identifier", identifier.toValue)
  rw [tree, toValue, treeIn_record (by decide), tree, ← field]
  rfl

theorem Linkage.tree_many (identifiers : List Identifier) :
    (Linkage.many identifiers).toValue.tree =
      .array (identifiers.map fun identifier => identifier.toValue.tree) :=
  treeIn_list Identifier.toValue identifiers

theorem Linkage.isNull_toValue (linkage : Linkage) : linkage.toValue.isNull = false := by
  cases linkage <;> rfl

theorem Links.tree_eq (links : Links) : links.toValue.tree =
    .object (Json.present [("self", links.self.map .text), ("related", links.related.map .text),
      ("describedby", links.describedby.map .text)]) := by
  rw [tree, toValue, treeIn_record (by decide)]
  simp only [List.map_cons, List.map_nil, fieldTree_text]
  rfl

theorem Relationship.tree_eq (relationship : Relationship) : relationship.toValue.tree =
    .object (Json.present [("links", relationship.links.map fun links => links.toValue.tree),
      ("data", relationship.data.map fun linkage => linkage.toValue.tree),
      ("meta", relationship.info.map fun members => (ofMembers members).tree)]) := by
  rw [tree, toValue, treeIn_record (by decide)]
  simp only [List.map_cons, List.map_nil, fieldTree_links, fieldTree_members,
    fieldTree_ofOption _ _ Linkage.isNull_toValue]
  rfl

theorem Resource.tree_eq (resource : Resource) : resource.toValue.tree =
    .object (resource.identifier.toValue.tree.members ++ Json.present
      [("attributes", resource.attributes.map fun members => (ofMembers members).tree),
        ("relationships", resource.relationships.map fun relationships =>
          .object (relationships.map fun member => (member.1, member.2.toValue.tree))),
        ("links", resource.links.map fun links => links.toValue.tree),
        ("meta", resource.info.map fun members => (ofMembers members).tree)]) := by
  have field := getD_fieldTree false ("identifier", resource.identifier.toValue)
  have relationships : fieldTree false ("relationships", .ofOption (fun relationships =>
      .ofMembers (relationships.map fun member => (member.1, member.2.toValue))) resource.relationships) =
      ("relationships", resource.relationships.map fun relationships =>
        .object (relationships.map fun member => (member.1, member.2.toValue.tree))) := by
    rw [fieldTree_ofOption _ _ fun _ => rfl]
    simp only [treeIn_ofMembers, List.map_map, Function.comp_def, tree]
  rw [tree, toValue, treeIn_record (by decide), tree, ← field]
  simp only [List.map_cons, List.map_nil, fieldTree_links, fieldTree_members, relationships]
  rfl

theorem Info.tree_eq (info : Info) : info.toValue.tree =
    .object (Json.present [("version", if info.version.isNull then none else some info.version.tree),
      ("ext", info.ext.map fun texts => .array (texts.map .text)),
      ("profile", info.profile.map fun texts => .array (texts.map .text)),
      ("meta", info.info.map fun members => (ofMembers members).tree)]) := by
  have listed (texts : List String) : treeIn false (.tuple (texts.map .text)) = .array (texts.map .text) :=
    treeIn_list .text texts
  rw [tree, toValue, treeIn_record (by decide)]
  simp only [List.map_cons, List.map_nil, fieldTree_members,
    fieldTree_ofOption (fun texts : List String => Value.tuple (texts.map .text)) _ fun _ => rfl, listed]
  rfl

theorem ErrorLinks.tree_eq (links : ErrorLinks) : treeIn true links.toValue =
    .object (Json.present [("about", links.about.map .text), ("type", links.type.map .text)] ++
      Json.present (links.extra.map (fieldTree true))) := by
  rw [toValue, treeIn_open rfl]
  simp only [List.map_cons, List.map_nil, fieldTree_text]
  rfl

theorem ErrorSource.tree_eq (source : ErrorSource) : treeIn true source.toValue =
    .object (Json.present [("pointer", source.pointer.map .text),
        ("parameter", source.parameter.map .text), ("header", source.header.map .text)] ++
      Json.present (source.extra.map (fieldTree true))) := by
  rw [toValue, treeIn_open rfl]
  simp only [List.map_cons, List.map_nil, fieldTree_text]
  rfl

/-- An error object stands for the same tree wherever it is. -/
theorem ErrorObject.treeIn_eq (error : ErrorObject) :
    treeIn false error.toValue = treeIn true error.toValue := by
  rw [toValue, treeIn, treeIn, if_pos (Or.inr rfl), if_pos (Or.inl rfl)]

theorem ErrorObject.tree_eq (error : ErrorObject) : error.toValue.tree =
    .object (Json.present [("id", error.id.map .text),
        ("links", error.links.map fun links => treeIn true links.toValue),
        ("status", error.status.map .text), ("code", error.code.map .text),
        ("title", error.title.map .text), ("detail", error.detail.map .text),
        ("source", error.source.map fun source => treeIn true source.toValue),
        ("meta", error.info.map fun members => treeIn true (ofMembers members))] ++
      Json.present (error.extra.map (fieldTree true))) := by
  rw [tree, treeIn_eq, toValue, treeIn_open rfl, fields]
  simp only [List.map_cons, List.map_nil, fieldTree_text, fieldTree_members,
    fieldTree_ofOption ErrorLinks.toValue _ fun _ => rfl,
    fieldTree_ofOption ErrorSource.toValue _ fun _ => rfl]
  rfl

theorem PrimaryData.tree_many (resources : List Resource) :
    (PrimaryData.many resources).toValue.tree =
      .array (resources.map fun resource => resource.toValue.tree) :=
  treeIn_list Resource.toValue resources

/-- A document has its errors or its data, and then what goes with them. -/
theorem Document.tree_eq (d : Document) : d.toValue.tree =
    .object ((match d.errors with
        | some errors => ("errors", .array (errors.map fun error => error.toValue.tree))
        | none => ("data", d.data.toValue.tree)) ::
      Json.present [("included", d.included.map fun resources =>
          .array (resources.map fun resource => resource.toValue.tree)),
        ("links", d.links.map fun links => links.toValue.tree),
        ("jsonapi", d.jsonapi.map fun info => info.toValue.tree),
        ("meta", d.info.map fun members => (ofMembers members).tree)]) := by
  have data := getD_fieldTree false ("data", d.data.toValue)
  rw [tree, toValue, treeIn_record (by decide), tree, ← data]
  simp only [List.map_cons, List.map_nil, fieldTree_list, fieldTree_links, fieldTree_members,
    fieldTree_ofOption Info.toValue _ fun _ => rfl]
  cases d.errors <;> rfl

end JsonApi
