import JsonApi.Proofs.Entries
import JsonApi.Proofs.Json.RoundTrip
import JsonApi.Proofs.Value.Parts
import JsonApi.Proofs.Value.Results

/-!
Values that are written as their trees. Whether a structured value is depends on its fields, and inside of
an error object on nothing else.
-/

namespace JsonApi

namespace Json

theorem isExact_present {members : List (String × Option Json)}
    (exact : ∀ member ∈ members, ∀ json ∈ member.2, json.IsExact) :
    ∀ member ∈ present members, member.2.IsExact := by
  intro member inside
  obtain ⟨may, listed, shown⟩ := List.mem_filterMap.mp inside
  obtain ⟨json, given, rfl⟩ := Option.map_eq_some_iff.mp shown
  exact exact may listed json given

theorem IsExact.of_mem_members {json : Json} (exact : json.IsExact) :
    ∀ member ∈ json.members, member.2.IsExact := by
  cases exact with
  | object exact => exact exact
  | _ => exact fun _ member => nomatch member

end Json

namespace Value

variable {debug inside : Bool} {shape : Shape} {fields extra : Members} {v : Value}

/-- A value that is written as its tree inside of an error object. -/
structure Dumped (debug : Bool) (v : Value) : Prop where
  form : hasPlainForm v = true
  written : (encodePlain ⟨debug, false⟩ (dump v)).result = .ok (treeIn true v)
  exact : (treeIn true v).IsExact

/-- A value that is written as its tree wherever it stands. -/
structure Written (debug : Bool) (v : Value) : Prop where
  dumped : Dumped debug v
  written : (encodePlain ⟨debug, false⟩ (expand v)).result = .ok (treeIn false v)
  exact : (treeIn false v).IsExact

theorem result_items {items : List Value} {form : Value → Value} {tree : Value → Json}
    (written : ∀ item ∈ items, (encodePlain ⟨debug, false⟩ (form item)).result = .ok (tree item)) :
    (Outcome.sequence (encodeItems ⟨debug, false⟩ (items.map form))).result = .ok (items.map tree) := by
  have each : (items.map (encodePlain ⟨debug, false⟩ ∘ form)).map Outcome.silent =
      (items.map tree).map pure := by
    rw [List.map_map, List.map_map]
    exact List.map_congr_left fun item member => Outcome.silent_of_ok (written item member)
  rw [encodeItems_eq_map, List.map_map, ← Outcome.result_sequence_silent, each, Outcome.sequence_pure]
  rfl

theorem result_members {members : Members} {form : Value → Value} {tree : Value → Json}
    (written : ∀ member ∈ members,
      (encodePlain ⟨debug, false⟩ (form member.2)).result = .ok (tree member.2)) :
    (encodePlain ⟨debug, false⟩ (ofMembers (members.map fun member => (member.1, form member.2)))).result =
      .ok (.object (members.map fun member => (member.1, tree member.2))) := by
  have each : ((members.map fun member => (member.1, form member.2)).map fun member =>
        (Value.text member.1, encodePlain ⟨debug, false⟩ member.2)).map silentMember =
      (members.map fun member => (member.1, tree member.2)).map fun member =>
        (.text member.1, pure member.2) := by
    rw [List.map_map, List.map_map, List.map_map]
    exact List.map_congr_left fun member inside =>
      congrArg (Prod.mk _) (Outcome.silent_of_ok (written member inside))
  rw [encodePlain_ofMembers, ← result_encodeMembers_silent rfl, each, encodeMembers_pure rfl]
  rfl

theorem isExact_array {items : List Value} (exact : ∀ item ∈ items, (treeIn inside item).IsExact) :
    (Json.array (itemTrees inside items)).IsExact := by
  refine .array ?_
  rw [itemTrees_eq_map, List.forall_mem_map]
  exact exact

theorem isExact_ofMembers {members : Members}
    (exact : ∀ member ∈ members, (treeIn inside member.2).IsExact) :
    (treeIn inside (ofMembers members)).IsExact := by
  rw [treeIn_ofMembers]
  refine .object ?_
  rw [List.forall_mem_map]
  exact exact

theorem dumped_ofMembers {members : Members} (dumped : ∀ member ∈ members, Dumped debug member.2) :
    Dumped debug (ofMembers members) where
  form := (hasPlainForm_ofMembers members).mpr fun member inside => (dumped member inside).form
  written := by
    rw [dump_ofMembers, treeIn_ofMembers]
    exact result_members fun member inside => (dumped member inside).written
  exact := isExact_ofMembers fun member inside => (dumped member inside).exact

theorem written_ofMembers {members : Members} (written : ∀ member ∈ members, Written debug member.2) :
    Written debug (ofMembers members) where
  dumped := dumped_ofMembers fun member inside => (written member inside).dumped
  written := by
    rw [expand_ofMembers, treeIn_ofMembers]
    exact result_members fun member inside => (written member inside).written
  exact := isExact_ofMembers fun member inside => (written member inside).exact

theorem written_list {items : List Value} (written : ∀ item ∈ items, Written debug item) :
    Written debug (.list items) where
  dumped := {
    form := itemsHavePlainForm_iff.mpr fun item member => (written item member).dumped.form
    written := by
      rw [dump, dumpItems_eq_map, encodePlain, Outcome.result_bind,
        result_items fun item member => (written item member).dumped.written, treeIn, itemTrees_eq_map]
      rfl
    exact := isExact_array fun item member => (written item member).dumped.exact }
  written := by
    rw [expand, expandItems_eq_map, encodePlain, Outcome.result_bind,
      result_items fun item member => (written item member).written, treeIn, itemTrees_eq_map]
    rfl
  exact := isExact_array fun item member => (written item member).exact

theorem written_tuple {items : List Value} (written : ∀ item ∈ items, Written debug item) :
    Written debug (.tuple items) := by
  have listed := written_list written
  exact ⟨⟨listed.dumped.form, listed.dumped.written, listed.dumped.exact⟩, listed.written, listed.exact⟩

theorem written_of_plain (dumps : dump v = v) (expands : expand v = v) (form : hasPlainForm v = true)
    (same : treeIn true v = treeIn false v)
    (written : (encodePlain ⟨debug, false⟩ v).result = .ok (treeIn false v))
    (exact : (treeIn false v).IsExact) : Written debug v where
  dumped := ⟨form, by rw [dumps, same]; exact written, by rw [same]; exact exact⟩
  written := by rw [expands]; exact written
  exact := exact

theorem written_null : Written debug .null := written_of_plain rfl rfl rfl rfl rfl .null

theorem written_text (s : String) : Written debug (.text s) :=
  written_of_plain rfl rfl rfl rfl rfl (.text s)

theorem written_bytes (content : List UInt8) : Written debug (.bytes content) := by
  refine written_of_plain rfl rfl rfl rfl ?_ (.text _)
  rw [encodePlain, encodeBytes]
  split
  · next empty =>
    rw [empty]
    rfl
  · rfl

theorem written_ofOption {α : Type} {f : α → Value} {o : Option α}
    (written : ∀ a ∈ o, Written debug (f a)) : Written debug (.ofOption f o) := by
  cases o with
  | none => exact written_null
  | some a => exact written a rfl

theorem dumped_ofOption {α : Type} {f : α → Value} {o : Option α}
    (dumped : ∀ a ∈ o, Dumped debug (f a)) : Dumped debug (.ofOption f o) := by
  cases o with
  | none => exact written_null.dumped
  | some a => exact dumped a rfl

def shownPart (field : String × Value) : Part :=
  ⟨field.1, field.2.isNull, pure (treeIn false field.2)⟩

theorem present_fieldTree (fields : Members) :
    Json.present (fields.map (fieldTree inside)) =
      (fields.filter fun field => !field.2.isNull).map fun field => (field.1, treeIn inside field.2) := by
  induction fields with
  | nil => rfl
  | cons field rest ih =>
    rw [Json.present, List.filterMap_map] at ih ⊢
    cases null : field.2.isNull with
    | true =>
      rw [List.filterMap_cons_none (by simp [fieldTree, null]), List.filter_cons_of_neg (by simp [null]), ih]
    | false =>
      rw [List.filterMap_cons_some (b := (field.1, treeIn inside field.2)) (by simp [fieldTree, null]),
        List.filter_cons_of_pos (by simp [null]), List.map_cons, ih]

theorem presentParts_shown (fields : Members) :
    presentParts (fields.map shownPart) =
      (Json.present (fields.map (fieldTree false))).map fun member => (.text member.1, pure member.2) := by
  rw [present_fieldTree, presentParts, List.filter_map, List.map_map, List.map_map]
  rfl

theorem isExact_fieldTree (exact : ∀ field ∈ fields, (treeIn inside field.2).IsExact) :
    ∀ member ∈ fields.map (fieldTree inside), ∀ json ∈ member.2, json.IsExact := by
  rw [List.forall_mem_map]
  intro field member json given
  rw [fieldTree] at given
  split at given
  · cases given
  · cases given
    exact exact field member

theorem treeIn_of_isNull (null : v.isNull = true) : treeIn inside v = .null := by
  cases v with
  | null => rw [treeIn]
  | _ => cases null

theorem getD_fieldTree (inside : Bool) (field : String × Value) :
    (fieldTree inside field).2.getD .null = treeIn inside field.2 := by
  rw [fieldTree]
  split
  · next null => exact (treeIn_of_isNull null).symm
  · rfl

theorem innerTree_open (isOpen : shape.isOpen = true) (fields extra : Members) :
    innerTree shape (fieldTrees true fields) (fieldTrees true extra) =
      .object ((presentMembers shape fields extra).map fun member => (member.1, treeIn true member.2)) := by
  have named : (fields.map (fieldTree true)).map (fun field => (plainName shape field.1, field.2)) =
      (fields.map fun field => (plainName shape field.1, field.2)).map (fieldTree true) := by
    rw [List.map_map, List.map_map]
    rfl
  rw [innerTree, if_pos isOpen, fieldTrees_eq_map, fieldTrees_eq_map, named, present_fieldTree,
    present_fieldTree, presentMembers, List.map_append]

theorem innerTree_closed (closed : shape.isOpen = false) (fields extra : Members) :
    innerTree shape (fieldTrees true fields) (fieldTrees true extra) =
      .object (fields.map fun field => (field.1, treeIn true field.2)) := by
  rw [innerTree, if_neg (by rw [closed]; exact Bool.false_ne_true), fieldTrees_eq_map, List.map_map]
  refine congrArg Json.object (List.map_congr_left fun field _ => ?_)
  exact congrArg (Prod.mk _) (getD_fieldTree true field)

/-- Inside of an error object a structured value is written as its fields. -/
theorem dumped_record (fields' : ∀ field ∈ fields, Dumped debug field.2)
    (extra' : ∀ field ∈ extra, Dumped debug field.2) : Dumped debug (.record shape fields extra) := by
  have form : hasPlainForm (.record shape fields extra) = true := by
    rw [hasPlainForm, Bool.and_eq_true, fieldsHavePlainForm_iff, fieldsHavePlainForm_iff]
    exact ⟨fun field member => (fields' field member).form, fun field member => (extra' field member).form⟩
  have shown : treeIn true (.record shape fields extra) =
      innerTree shape (fieldTrees true fields) (fieldTrees true extra) := by
    rw [treeIn, if_pos (Or.inl rfl)]
  cases isOpen : shape.isOpen with
  | true =>
    have members : ∀ member ∈ presentMembers shape fields extra, Dumped debug member.2 := by
      intro member inside
      rcases mem_presentMembers inside with ⟨field, listed, same⟩ | further
      · rw [← same]
        exact fields' field listed
      · exact extra' member further
    rw [innerTree_open isOpen] at shown
    refine ⟨form, ?_, ?_⟩
    · rw [shown, dump, if_pos isOpen, dumpFields_eq_map, dumpFields_eq_map,
        presentMembers_map isNull_dump]
      exact result_members fun member inside => (members member inside).written
    · rw [shown, ← treeIn_ofMembers]
      exact isExact_ofMembers fun member inside => (members member inside).exact
  | false =>
    rw [innerTree_closed isOpen] at shown
    refine ⟨form, ?_, ?_⟩
    · rw [shown, dump, if_neg (by rw [isOpen]; exact Bool.false_ne_true), dumpFields_eq_map]
      exact result_members fun field member => (fields' field member).written
    · rw [shown, ← treeIn_ofMembers]
      exact isExact_ofMembers fun field member => (fields' field member).exact

theorem isExact_shapeTree {fields : List (String × Option Json)}
    (exact : ∀ member ∈ fields, ∀ json ∈ member.2, json.IsExact) (shape : Shape) :
    (shapeTree shape fields).IsExact := by
  have there (name : String) : ∀ json ∈ (Entries.get? fields name).join, json.IsExact := by
    intro json given
    exact exact _ (Entries.mem_of_get? (Option.join_eq_some_iff.mp given)) json rfl
  have field (name : String) : (((Entries.get? fields name).join).getD .null).IsExact := by
    cases given : (Entries.get? fields name).join with
    | none => exact .null
    | some json => exact there name json given
  have present (names : List (String × String)) : ∀ member ∈
      Json.present (names.map fun name => (name.1, (Entries.get? fields name.2).join)),
      member.2.IsExact := by
    refine Json.isExact_present ?_
    rw [List.forall_mem_map]
    exact fun name _ => there name.2
  have objects {first : String × Json} {rest : List (String × Json)} (here : first.2.IsExact)
      (further : ∀ member ∈ rest, member.2.IsExact) : (Json.object (first :: rest)).IsExact :=
    .object (List.forall_mem_cons.mpr ⟨here, further⟩)
  cases shape with
  | existing => exact objects (field "kind") (List.forall_mem_singleton.mpr (field "id"))
  | new => exact objects (field "kind") (present [("lid", "lid")])
  | emptyLinkage => exact .null
  | toOne => exact field "identifier"
  | toMany => exact field "identifiers"
  | links =>
    exact .object (present [("self", "self_"), ("related", "related"), ("describedby", "describedby")])
  | relationship => exact .object (present [("links", "links"), ("data", "data"), ("meta", "meta")])
  | resource =>
    refine .object (List.forall_mem_append.mpr ⟨(field "identifier").of_mem_members, ?_⟩)
    exact present [("attributes", "attributes"), ("relationships", "relationships"),
      ("links", "links"), ("meta", "meta")]
  | info =>
    exact .object (present [("version", "version"), ("ext", "ext"), ("profile", "profile"),
      ("meta", "meta")])
  | document =>
    refine objects ?_ (present [("included", "included"), ("links", "links"),
      ("jsonapi", "jsonapi"), ("meta", "meta")])
    split
    · next errors given => exact there "errors" errors given
    · exact field "data"
  | errorObject => exact .null
  | errorLinks => exact .null
  | errorSource => exact .null

theorem treeIn_record (other : shape ≠ .errorObject) (fields extra : Members) :
    treeIn false (.record shape fields extra) = shapeTree shape (fields.map (fieldTree false)) := by
  rw [treeIn, if_neg (by simp [other]), fieldTrees_eq_map]

/-- A structured value is written as what documents show of it. -/
theorem written_record (closed : shape.isOpen = false)
    (whole : hasLeftError shape (expandFields fields) = false)
    (written : ∀ field ∈ fields, Written debug field.2)
    (shown : encodeShape ⟨debug, false⟩ shape (fields.map shownPart) =
      pure (shapeTree shape (fields.map (fieldTree false)))) :
    Written debug (.record shape fields []) := by
  have other : shape ≠ .errorObject := by
    rintro rfl
    cases closed
  have tree := treeIn_record other fields []
  have parts : ((expandFields fields).map (part ⟨debug, false⟩)).map Part.silent = fields.map shownPart := by
    rw [expandFields_eq_map, List.map_map, List.map_map]
    refine List.map_congr_left fun field member => ?_
    have json : (encodePlain ⟨debug, false⟩ (expand field.2)).silent = pure (treeIn false field.2) :=
      Outcome.silent_of_ok (written field member).written
    simp only [Function.comp_apply, Part.silent, part, json, isNull_expand, shownPart]
  have dumped : Dumped debug (.record shape fields []) :=
    dumped_record (fun field member => (written field member).dumped) (List.forall_mem_nil _)
  refine ⟨dumped, ?_, ?_⟩
  · rw [tree, expand, if_neg (by simp [other]), if_neg (by simp [closed]), encodePlain,
      if_neg (by simp [other, whole]), if_neg (by simp [closed]), encodeFields_eq_map,
      ← result_encodeShape_silent rfl, parts, shown]
    rfl
  · rw [tree]
    exact isExact_shapeTree (isExact_fieldTree fun field member => (written field member).exact) shape

end Value

end JsonApi
