import JsonApi.Document.Composition
import JsonApi.Proofs.Document.Tree

/-!
The text of a document. Main statement: a document whose values are nested out of what documents can show
has a text, which is all ASCII and reads as the tree that the document stands for.
-/

namespace JsonApi

namespace Value

/-- Values nested out of null, truth values, integers of no more digits than can be written, texts, bytes,
identifiers that are universal, dates and times, lists, tuples, dictionaries under texts, and the parts
of documents. -/
inductive IsPlain : Value → Prop where
  | null : IsPlain .null
  | bool (b : Bool) : IsPlain (.bool b)
  | int {i : Int} (short : Text.isWritable i = true) : IsPlain (.int i)
  | text (s : String) : IsPlain (.text s)
  | bytes (content : List UInt8) : IsPlain (.bytes content)
  | uuid (n : Nat) : IsPlain (.uuid n)
  | date (d : Date) : IsPlain (.date d)
  | clock (c : Clock) : IsPlain (.clock c)
  | moment (m : Moment) : IsPlain (.moment m)
  | span (s : Span) : IsPlain (.span s)
  | list {items : List Value} (parts : ∀ item ∈ items, IsPlain item) : IsPlain (.list items)
  | tuple {items : List Value} (parts : ∀ item ∈ items, IsPlain item) : IsPlain (.tuple items)
  | dict {members : Members} (parts : ∀ member ∈ members, IsPlain member.2) :
    IsPlain (ofMembers members)
  | identifier {identifier : Identifier} (kind : IsPlain identifier.kind.toValue) :
    IsPlain identifier.toValue
  | linkage {linkage : Linkage}
    (identifiers : ∀ identifier ∈ linkage.identifiers, IsPlain identifier.toValue) :
    IsPlain linkage.toValue
  | links (links : Links) : IsPlain links.toValue
  | relationship {relationship : Relationship}
    (data : ∀ linkage ∈ relationship.data, IsPlain linkage.toValue)
    (info : ∀ members ∈ relationship.info, IsPlain (ofMembers members)) :
    IsPlain relationship.toValue
  | resource {resource : Resource} (identifier : IsPlain resource.identifier.toValue)
    (attributes : ∀ members ∈ resource.attributes, IsPlain (ofMembers members))
    (relationships : ∀ members ∈ resource.relationships, ∀ member ∈ members,
      IsPlain member.2.toValue)
    (info : ∀ members ∈ resource.info, IsPlain (ofMembers members)) : IsPlain resource.toValue
  | info {info : Info} (version : IsPlain info.version)
    (members : ∀ members ∈ info.info, IsPlain (ofMembers members)) : IsPlain info.toValue
  | document {d : Document} (data : ∀ resource ∈ d.data.resources, IsPlain resource.toValue)
    (errors : ∀ errors ∈ d.errors, ∀ error ∈ errors, IsPlain error.toValue)
    (included : ∀ resources ∈ d.included, ∀ resource ∈ resources, IsPlain resource.toValue)
    (jsonapi : ∀ info ∈ d.jsonapi, IsPlain info.toValue)
    (info : ∀ members ∈ d.info, IsPlain (ofMembers members)) : IsPlain d.toValue
  | error {error : ErrorObject}
    (links : ∀ links ∈ error.links, ∀ member ∈ links.extra, IsPlain member.2)
    (source : ∀ source ∈ error.source, ∀ member ∈ source.extra, IsPlain member.2)
    (info : ∀ members ∈ error.info, IsPlain (ofMembers members))
    (extra : ∀ member ∈ error.extra, IsPlain member.2) : IsPlain error.toValue

variable {debug : Bool}

theorem encodeMembers_shown (debug : Bool) (members : List (String × Json)) (fields : Members) :
    encodeMembers ⟨debug, false⟩
        ((members.map fun member => (.text member.1, pure member.2)) ++
          presentParts (fields.map shownPart)) =
      pure (.object (members ++ Json.present (fields.map (fieldTree false)))) := by
  rw [presentParts_shown, ← List.map_append, encodeMembers_pure rfl]

theorem written_identifier {identifier : Identifier} (kind : Written debug identifier.kind.toValue) :
    Written debug identifier.toValue := by
  cases identifier with
  | existing name id =>
    have field := getD_fieldTree false ("kind", name.toValue)
    refine written_record rfl rfl ?_ ?_
    · simp only [List.forall_mem_cons]
      exact ⟨kind, written_text id, List.forall_mem_nil _⟩
    · have shown := encodeMembers_shown debug
        [("type", treeIn false name.toValue), ("id", .text id)] []
      refine shown.trans ?_
      rw [← field]
      rfl
  | new name lid =>
    have field := getD_fieldTree false ("kind", name.toValue)
    refine written_record rfl rfl ?_ ?_
    · simp only [List.forall_mem_cons]
      exact ⟨kind, written_ofOption fun s _ => written_text s, List.forall_mem_nil _⟩
    · have shown := encodeMembers_shown debug
        [("type", treeIn false name.toValue)] [("lid", .ofOption .text lid)]
      refine shown.trans ?_
      rw [← field]
      rfl

theorem written_links (links : Links) : Written debug links.toValue := by
  refine written_record rfl rfl ?_ ?_
  · simp only [List.forall_mem_cons]
    exact ⟨written_ofOption fun s _ => written_text s, written_ofOption fun s _ => written_text s,
      written_ofOption fun s _ => written_text s, List.forall_mem_nil _⟩
  · exact encodeMembers_shown debug [] [("self", .ofOption .text links.self),
      ("related", .ofOption .text links.related), ("describedby", .ofOption .text links.describedby)]

theorem written_linkage {linkage : Linkage}
    (identifiers : ∀ identifier ∈ linkage.identifiers, Written debug identifier.toValue) :
    Written debug linkage.toValue := by
  cases linkage with
  | empty => exact written_record rfl rfl (List.forall_mem_nil _) rfl
  | one identifier =>
    have written := identifiers identifier (List.mem_singleton_self identifier)
    have field := getD_fieldTree false ("identifier", identifier.toValue)
    refine written_record rfl rfl ?_ ?_
    · exact List.forall_mem_singleton.mpr written
    · exact congrArg pure field.symm
  | many identifiers' =>
    refine written_record rfl rfl ?_ rfl
    refine List.forall_mem_singleton.mpr (written_tuple ?_)
    rw [List.forall_mem_map]
    exact identifiers

theorem written_relationship {relationship : Relationship}
    (data : ∀ linkage ∈ relationship.data, Written debug linkage.toValue)
    (info : ∀ members ∈ relationship.info, Written debug (ofMembers members)) :
    Written debug relationship.toValue := by
  refine written_record rfl rfl ?_ (encodeMembers_shown debug [] _)
  simp only [List.forall_mem_cons]
  exact ⟨written_ofOption fun links _ => written_links links, written_ofOption data,
    written_ofOption info, List.forall_mem_nil _⟩

theorem written_info {info : Info} (version : Written debug info.version)
    (members : ∀ members ∈ info.info, Written debug (ofMembers members)) :
    Written debug info.toValue := by
  have texts (texts : List String) : Written debug (.tuple (texts.map .text)) := by
    refine written_tuple ?_
    rw [List.forall_mem_map]
    exact fun s _ => written_text s
  refine written_record rfl rfl ?_ (encodeMembers_shown debug [] _)
  simp only [List.forall_mem_cons]
  exact ⟨version, written_ofOption fun names _ => texts names, written_ofOption fun names _ => texts names,
    written_ofOption members, List.forall_mem_nil _⟩

theorem splicedMembers_object (members : List (String × Json)) :
    splicedMembers (pure (.object members)) =
      members.map fun member => (.text member.1, pure member.2) := by
  refine List.map_congr_left fun member _ => ?_
  split <;> rfl

theorem object_identifier (identifier : Identifier) :
    .object (treeIn false identifier.toValue).members = treeIn false identifier.toValue := by
  cases identifier <;> rfl

theorem written_resource {resource : Resource} (identifier : Written debug resource.identifier.toValue)
    (attributes : ∀ members ∈ resource.attributes, Written debug (ofMembers members))
    (relationships : ∀ members ∈ resource.relationships, ∀ member ∈ members,
      Written debug member.2.toValue)
    (info : ∀ members ∈ resource.info, Written debug (ofMembers members)) :
    Written debug resource.toValue := by
  refine written_record rfl rfl ?_ ?_
  · simp only [List.forall_mem_cons]
    refine ⟨identifier, written_ofOption attributes, written_ofOption fun members given => ?_,
      written_ofOption fun links _ => written_links links, written_ofOption info, List.forall_mem_nil _⟩
    refine written_ofMembers ?_
    rw [List.forall_mem_map]
    exact relationships members given
  · have field := getD_fieldTree false ("identifier", resource.identifier.toValue)
    have spliced := splicedMembers_object (treeIn false resource.identifier.toValue).members
    rw [object_identifier] at spliced
    have shown := encodeMembers_shown debug (treeIn false resource.identifier.toValue).members
      [("attributes", .ofOption .ofMembers resource.attributes),
        ("relationships", .ofOption (fun relationships => .ofMembers (relationships.map fun member =>
          (member.1, member.2.toValue))) resource.relationships),
        ("links", .ofOption Links.toValue resource.links),
        ("meta", .ofOption .ofMembers resource.info)]
    rw [← spliced] at shown
    refine shown.trans ?_
    rw [← field]
    rfl

theorem expand_error {error : ErrorObject} (form : hasPlainForm error.toValue = true) :
    expand error.toValue = dump error.toValue := by
  rw [ErrorObject.toValue, expand_errorObject]
  exact if_pos form

theorem dumped_error {error : ErrorObject}
    (links : ∀ links ∈ error.links, ∀ member ∈ links.extra, Dumped debug member.2)
    (source : ∀ source ∈ error.source, ∀ member ∈ source.extra, Dumped debug member.2)
    (info : ∀ members ∈ error.info, Dumped debug (ofMembers members))
    (extra : ∀ member ∈ error.extra, Dumped debug member.2) : Dumped debug error.toValue := by
  have text (o : Option String) : Dumped debug (.ofOption .text o) :=
    dumped_ofOption fun s _ => (written_text s).dumped
  have linked : Dumped debug (.ofOption ErrorLinks.toValue error.links) := by
    refine dumped_ofOption fun given member => dumped_record ?_ (links given member)
    simp only [List.forall_mem_cons]
    exact ⟨text _, text _, List.forall_mem_nil _⟩
  have sourced : Dumped debug (.ofOption ErrorSource.toValue error.source) := by
    refine dumped_ofOption fun given member => dumped_record ?_ (source given member)
    simp only [List.forall_mem_cons]
    exact ⟨text _, text _, text _, List.forall_mem_nil _⟩
  refine dumped_record ?_ extra
  simp only [ErrorObject.fields, List.forall_mem_cons]
  exact ⟨text _, linked, text _, text _, text _, text _, sourced, dumped_ofOption info,
    List.forall_mem_nil _⟩

theorem written_error {error : ErrorObject} (dumped : Dumped debug error.toValue) :
    Written debug error.toValue := by
  have same := error.treeIn_eq
  refine ⟨dumped, ?_, ?_⟩
  · rw [expand_error dumped.form, same]
    exact dumped.written
  · rw [same]
    exact dumped.exact

/-- No error object is left without a plain form. -/
theorem hasLeftError_expand {d : Document}
    (errors : ∀ errors ∈ d.errors, ∀ error ∈ errors, Written debug error.toValue) :
    hasLeftError .document (expandFields
      [("data", d.data.toValue),
        ("errors", .ofOption (fun errors => .list (errors.map ErrorObject.toValue)) d.errors),
        ("included", .ofOption (fun included => .list (included.map Resource.toValue)) d.included),
        ("links", .ofOption Links.toValue d.links), ("jsonapi", .ofOption Info.toValue d.jsonapi),
        ("meta", .ofOption .ofMembers d.info)]) = false := by
  cases given : d.errors with
  | none => rfl
  | some objects =>
    have plain : ((objects.map ErrorObject.toValue).map expand).any isLeftError = false := by
      rw [List.map_map, List.any_map, List.any_eq_false]
      intro error member
      simp only [Function.comp_apply, expand_error (errors objects given error member).dumped.form]
      exact Bool.false_ne_true
    rw [← expandItems_eq_map] at plain
    exact plain

theorem written_document {d : Document}
    (data : ∀ resource ∈ d.data.resources, Written debug resource.toValue)
    (errors : ∀ errors ∈ d.errors, ∀ error ∈ errors, Written debug error.toValue)
    (included : ∀ resources ∈ d.included, ∀ resource ∈ resources, Written debug resource.toValue)
    (jsonapi : ∀ info ∈ d.jsonapi, Written debug info.toValue)
    (info : ∀ members ∈ d.info, Written debug (ofMembers members)) : Written debug d.toValue := by
  have resources (listed : List Resource) (written : ∀ resource ∈ listed, Written debug resource.toValue) :
      Written debug (.list (listed.map Resource.toValue)) := by
    refine written_list ?_
    rw [List.forall_mem_map]
    exact written
  have primary : Written debug d.data.toValue := by
    cases given : d.data with
    | absent => exact written_null
    | one resource =>
      rw [given] at data
      exact data resource (List.mem_singleton_self resource)
    | many listed =>
      rw [given] at data
      exact resources listed data
  refine written_record rfl (hasLeftError_expand errors) ?_ ?_
  · simp only [List.forall_mem_cons]
    refine ⟨primary, written_ofOption fun objects given => ?_,
      written_ofOption fun listed given => resources listed (included listed given),
      written_ofOption fun links _ => written_links links, written_ofOption jsonapi,
      written_ofOption info, List.forall_mem_nil _⟩
    refine written_list ?_
    rw [List.forall_mem_map]
    exact errors objects given
  · have field := getD_fieldTree false ("data", d.data.toValue)
    have shown (main : String × Json) := encodeMembers_shown debug [main]
      [("included", .ofOption (fun included => .list (included.map Resource.toValue)) d.included),
        ("links", .ofOption Links.toValue d.links), ("jsonapi", .ofOption Info.toValue d.jsonapi),
        ("meta", .ofOption .ofMembers d.info)]
    cases d.errors with
    | none =>
      refine (shown ("data", treeIn false d.data.toValue)).trans ?_
      rw [← field]
      rfl
    | some objects => exact shown ("errors", treeIn false (.list (objects.map ErrorObject.toValue)))

/-- Whatever a document can show is written as its tree. -/
theorem IsPlain.written {v : Value} (plain : v.IsPlain) : Written debug v := by
  induction plain with
  | null => exact written_null
  | bool b => exact written_of_plain rfl rfl rfl rfl rfl (.bool b)
  | @int i short =>
    refine written_of_plain rfl rfl rfl rfl ?_ (.int i)
    rw [encodePlain, encodeInt, if_pos short]
    rfl
  | text s => exact written_text s
  | bytes content => exact written_bytes content
  | uuid n => exact written_of_plain rfl rfl rfl rfl rfl (.text _)
  | date d => exact written_of_plain rfl rfl rfl rfl rfl (.text _)
  | clock c => exact written_of_plain rfl rfl rfl rfl rfl (.text _)
  | moment m => exact written_of_plain rfl rfl rfl rfl rfl (.text _)
  | span s => exact written_of_plain rfl rfl rfl rfl rfl (.text _)
  | list _ ih => exact written_list ih
  | tuple _ ih => exact written_tuple ih
  | dict _ ih => exact written_ofMembers ih
  | identifier _ ih => exact written_identifier ih
  | linkage _ ih => exact written_linkage ih
  | links links => exact written_links links
  | relationship _ _ data info => exact written_relationship data info
  | resource _ _ _ _ identifier attributes relationships info =>
    exact written_resource identifier attributes relationships info
  | info _ _ version members => exact written_info version members
  | document _ _ _ _ _ data errors included jsonapi info =>
    exact written_document data errors included jsonapi info
  | error _ _ _ _ links source info extra =>
    exact written_error (dumped_error (fun given member further inside =>
      (links given member further inside).dumped) (fun given member further inside =>
      (source given member further inside).dumped) (fun given member => (info given member).dumped)
      fun member inside => (extra member inside).dumped)

end Value

def valuesOf (members : Option Members) : List Value := (members.getD []).map (·.2)

namespace Relationship

def values (relationship : Relationship) : List Value :=
  relationship.targets.map (·.kind.toValue) ++ valuesOf relationship.info

end Relationship

namespace Resource

def values (resource : Resource) : List Value :=
  resource.identifier.kind.toValue :: (valuesOf resource.attributes ++
    (resource.relationships.getD []).flatMap (fun member => member.2.values) ++ valuesOf resource.info)

end Resource

namespace ErrorObject

def values (error : ErrorObject) : List Value :=
  valuesOf (error.links.map (·.extra)) ++ valuesOf (error.source.map (·.extra)) ++
    valuesOf error.info ++ valuesOf (some error.extra)

end ErrorObject

namespace Document

/-- The values that a document is made from: those of attributes, metadata and errors, the types of
identifiers, and the version. -/
def values (d : Document) : List Value :=
  (d.data.resources ++ d.included.getD []).flatMap Resource.values ++
    (d.errors.getD []).flatMap ErrorObject.values ++
    d.jsonapi.toList.flatMap (fun info => info.version :: valuesOf info.info) ++ valuesOf d.info

end Document

namespace Value

theorem isPlain_ofMembers {given : Option Members} (plain : ∀ v ∈ valuesOf given, v.IsPlain) :
    ∀ members ∈ given, (ofMembers members).IsPlain := by
  rintro members ⟨⟩
  exact .dict (List.forall_mem_map.mp plain)

theorem isPlain_relationship {relationship : Relationship}
    (plain : ∀ v ∈ relationship.values, v.IsPlain) : relationship.toValue.IsPlain := by
  obtain ⟨targets, info⟩ := List.forall_mem_append.mp plain
  rw [List.forall_mem_map, Relationship.targets] at targets
  refine .relationship (fun linkage given => .linkage ?_) (isPlain_ofMembers info)
  rw [Option.mem_def.mp given] at targets
  exact fun identifier member => .identifier (targets identifier member)

theorem isPlain_resource {resource : Resource} (plain : ∀ v ∈ resource.values, v.IsPlain) :
    resource.toValue.IsPlain := by
  simp only [Resource.values, List.forall_mem_cons, List.forall_mem_append, List.forall_mem_flatMap] at plain
  obtain ⟨kind, ⟨attributes, relationships⟩, info⟩ := plain
  refine .resource (.identifier kind) (isPlain_ofMembers attributes) ?_ (isPlain_ofMembers info)
  intro members given member inside
  rw [Option.mem_def.mp given] at relationships
  exact isPlain_relationship (relationships member inside)

theorem isPlain_error {error : ErrorObject} (plain : ∀ v ∈ error.values, v.IsPlain) :
    error.toValue.IsPlain := by
  simp only [ErrorObject.values, List.forall_mem_append] at plain
  obtain ⟨⟨⟨links, source⟩, info⟩, extra⟩ := plain
  refine .error (fun given member => ?_) (fun given member => ?_) (isPlain_ofMembers info)
    (List.forall_mem_map.mp extra)
  · rw [Option.mem_def.mp member] at links
    exact List.forall_mem_map.mp links
  · rw [Option.mem_def.mp member] at source
    exact List.forall_mem_map.mp source

theorem isPlain_document {d : Document} (plain : ∀ v ∈ d.values, v.IsPlain) : d.toValue.IsPlain := by
  simp only [Document.values, List.forall_mem_append, List.forall_mem_flatMap] at plain
  obtain ⟨⟨⟨⟨primary, included⟩, errors⟩, jsonapi⟩, info⟩ := plain
  refine .document (fun resource member => isPlain_resource (primary resource member)) ?_ ?_ ?_
    (isPlain_ofMembers info)
  · intro objects given error member
    rw [Option.mem_def.mp given] at errors
    exact isPlain_error (errors error member)
  · intro listed given resource member
    rw [Option.mem_def.mp given] at included
    exact isPlain_resource (included resource member)
  · intro implementation given
    obtain ⟨version, members⟩ := List.forall_mem_cons.mp (jsonapi implementation (Option.mem_toList.mpr given))
    exact .info version (isPlain_ofMembers members)

end Value

namespace Document

/-- A document of such values has a text, with details or without. It is all ASCII, and whoever reads it
finds the tree of the document, whatever names, identifiers and texts there are in it. -/
theorem jsonText_reads (debug : Bool) (d : Document) (plain : ∀ v ∈ d.values, v.IsPlain) :
    ∃ text, (d.jsonText debug).result = .ok text ∧ (∀ c ∈ text.toList, Text.isAscii c = true) ∧
      Json.parse? text.toList = some d.toValue.tree := by
  have written : Value.Written debug d.toValue := (Value.isPlain_document plain).written
  refine ⟨Json.render .spaced d.toValue.tree, ?_, ?_, ?_⟩
  · rw [jsonText, Value.jsonText, Outcome.result_bind, Value.encode, written.written]
    rfl
  · rw [Json.render, String.toList_ofList]
    exact Json.isAscii_chars Json.Layout.isPlain_spaced written.exact 0
  · rw [Json.render, String.toList_ofList]
    exact Json.parse?_chars Json.Layout.isPlain_spaced written.exact

/-- A note whose texts hold quotes, backslashes, a line break and a character beyond the basic plane. -/
def note : Document where
  data := .one {
    identifier := .existing (.text "no\"tes") "7\\"
    attributes := some [
      ("\x7d, \"data\": [", .text "\n\\\"\u001F"),
      ("face", .text (String.singleton (Char.ofNat 0x1f600))),
      ("parts", .tuple [.null, .bool true, .int (-12), .list [], .bytes [0, 255]]),
      ("due", .moment ⟨⟨2024, 2, 29⟩, ⟨23, 5, 0, 7, some (-90)⟩⟩),
      ("copy", Resource.toValue ⟨.new (.text "notes") none, none, none, some ⟨none, some "/", none⟩, none⟩)]
    relationships := some [("author", ⟨none, some (.many [.existing (.text "people") "1"]), none⟩)]
    links := none
    info := some [("seen", .span ⟨-1⟩)] }
  errors := none
  included := none
  links := some ⟨some "/notes/7", none, none⟩
  jsonapi := some (Info.ofVersion (.text "1.1"))
  info := none

theorem plain_note : ∀ v ∈ note.values, v.IsPlain := by
  have parts : ∀ item ∈ [Value.null, .bool true, .int (-12), .list [], .bytes [0, 255]], item.IsPlain := by
    simp only [List.forall_mem_cons]
    exact ⟨.null, .bool true, .int (by decide), .list (List.forall_mem_nil _), .bytes _,
      List.forall_mem_nil _⟩
  have copy : (Resource.toValue
      ⟨.new (.text "notes") none, none, none, some ⟨none, some "/", none⟩, none⟩).IsPlain :=
    .resource (.identifier (.text _)) (fun _ absent => nomatch absent) (fun _ absent => nomatch absent)
      fun _ absent => nomatch absent
  exact List.forall_mem_cons.mpr ⟨.text _, List.forall_mem_cons.mpr ⟨.text _,
    List.forall_mem_cons.mpr ⟨.text _, List.forall_mem_cons.mpr ⟨.tuple parts,
    List.forall_mem_cons.mpr ⟨.moment _, List.forall_mem_cons.mpr ⟨copy,
    List.forall_mem_cons.mpr ⟨.text _, List.forall_mem_cons.mpr ⟨.span _,
    List.forall_mem_cons.mpr ⟨.text _, List.forall_mem_nil _⟩⟩⟩⟩⟩⟩⟩⟩⟩

def noteTree : Json :=
  .object [
    ("data", .object [
      ("type", .text "no\"tes"), ("id", .text "7\\"),
      ("attributes", .object [
        ("\x7d, \"data\": [", .text "\n\\\"\u001F"),
        ("face", .text (String.singleton (Char.ofNat 0x1f600))),
        ("parts", .array [.null, .bool true, .int (-12), .array [], .text "00ff"]),
        ("due", .text "2024-02-29 23:05:00.000007-01:30"),
        ("copy", .object [("type", .text "notes"), ("links", .object [("related", .text "/")])])]),
      ("relationships", .object [("author", .object
        [("data", .array [.object [("type", .text "people"), ("id", .text "1")]])])]),
      ("meta", .object [("seen", .text "-1 day, 23:59:59.999999")])]),
    ("links", .object [("self", .text "/notes/7")]),
    ("jsonapi", .object [("version", .text "1.1")])]

theorem tree_note : note.toValue.tree = noteTree := by
  rfl

/-- Even names that look like the end of an object are read as names. -/
theorem note_reads : (∀ v ∈ note.values, v.IsPlain) ∧
    (∃ text, (note.jsonText false).result = .ok text ∧ (∀ c ∈ text.toList, Text.isAscii c = true) ∧
      Json.parse? text.toList = some note.toValue.tree) ∧
    note.toValue.tree = noteTree :=
  ⟨plain_note, jsonText_reads false note plain_note, tree_note⟩

end Document

end JsonApi
