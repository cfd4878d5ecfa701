import JsonApi.Proofs.Entries
import JsonApi.Proofs.Value.Parts
import JsonApi.Proofs.Value.Results
import JsonApi.Value.Outline

/-!
What the text of a value gives away. Main statement: while details are hidden, a value is written in the
same way as its outline, so nothing shows of what documents have no form for.
-/

namespace JsonApi

theorem Entries.get?_map {κ β δ : Type} [DecidableEq κ] (f : β → δ) (entries : List (κ × β)) (key : κ) :
    get? (entries.map fun entry => (entry.1, f entry.2)) key = (get? entries key).map f := by
  induction entries with
  | nil => rfl
  | cons entry rest ih =>
    obtain ⟨k, v⟩ := entry
    rw [List.map_cons, get?, get?]
    split
    · rfl
    · exact ih

namespace Value

variable {encoding : Encoding} {inside : Bool}

section Congruence

variable {f g : Value → Value}

theorem result_items_congr {items : List Value}
    (same : ∀ item ∈ items, (encodePlain encoding (f item)).result = (encodePlain encoding (g item)).result) :
    (Outcome.sequence (encodeItems encoding (items.map f))).result =
      (Outcome.sequence (encodeItems encoding (items.map g))).result := by
  have silent : (encodeItems encoding (items.map f)).map Outcome.silent =
      (encodeItems encoding (items.map g)).map Outcome.silent := by
    rw [encodeItems_eq_map, encodeItems_eq_map, List.map_map, List.map_map, List.map_map, List.map_map]
    exact List.map_congr_left fun item member => Outcome.silent_eq_iff.mpr (same item member)
  rw [← Outcome.result_sequence_silent, silent, Outcome.result_sequence_silent]

theorem result_list_congr {items : List Value}
    (same : ∀ item ∈ items, (encodePlain encoding (f item)).result = (encodePlain encoding (g item)).result) :
    (encodePlain encoding (.list (items.map f))).result =
      (encodePlain encoding (.list (items.map g))).result := by
  rw [encodePlain, encodePlain]
  exact Outcome.result_bind_congr (result_items_congr same) fun _ _ => rfl

theorem result_dict_congr (unsorted : encoding.sorted = false) {entries : List (Value × Value)}
    (same : ∀ entry ∈ entries,
      (encodePlain encoding (f entry.2)).result = (encodePlain encoding (g entry.2)).result) :
    (encodePlain encoding (.dict (entries.map fun entry => (entry.1, f entry.2)))).result =
      (encodePlain encoding (.dict (entries.map fun entry => (entry.1, g entry.2)))).result := by
  rw [encodePlain, encodePlain, encodeEntries_eq_map, encodeEntries_eq_map]
  refine result_encodeMembers_congr unsorted ?_
  rw [List.map_map, List.map_map, List.map_map, List.map_map]
  exact List.map_congr_left fun entry member =>
    congrArg (Prod.mk _) (Outcome.silent_eq_iff.mpr (same entry member))

theorem result_ofMembers_congr (unsorted : encoding.sorted = false) {members : Members}
    (same : ∀ member ∈ members,
      (encodePlain encoding (f member.2)).result = (encodePlain encoding (g member.2)).result) :
    (encodePlain encoding (ofMembers (members.map fun member => (member.1, f member.2)))).result =
      (encodePlain encoding (ofMembers (members.map fun member => (member.1, g member.2)))).result := by
  have entries : ∀ entry ∈ members.map fun member => (Value.text member.1, member.2),
      (encodePlain encoding (f entry.2)).result = (encodePlain encoding (g entry.2)).result := by
    rw [List.forall_mem_map]
    exact same
  have written := result_dict_congr unsorted entries
  rw [List.map_map, List.map_map] at written
  rw [ofMembers, ofMembers, List.map_map, List.map_map]
  exact written

theorem result_encodeShape_congr (unsorted : encoding.sorted = false) (shape : Shape) {fields : Members}
    (null : ∀ field ∈ fields, (f field.2).isNull = (g field.2).isNull)
    (same : ∀ field ∈ fields,
      (encodePlain encoding (f field.2)).result = (encodePlain encoding (g field.2)).result) :
    (encodeShape encoding shape (encodeFields encoding (fields.map fun field => (field.1, f field.2)))).result =
      (encodeShape encoding shape
        (encodeFields encoding (fields.map fun field => (field.1, g field.2)))).result := by
  have silent : (encodeFields encoding (fields.map fun field => (field.1, f field.2))).map Part.silent =
      (encodeFields encoding (fields.map fun field => (field.1, g field.2))).map Part.silent := by
    rw [encodeFields_eq_map, encodeFields_eq_map, List.map_map, List.map_map, List.map_map, List.map_map]
    refine List.map_congr_left fun field member => ?_
    have json := Outcome.silent_eq_iff.mpr (same field member)
    simp only [Function.comp_apply, Part.silent, part, null field member, json]
  rw [← result_encodeShape_silent unsorted, silent, result_encodeShape_silent unsorted]

end Congruence

theorem outlineItems_eq_map (items : List Value) :
    outlineItems inside items = items.map (outlineIn inside) := by
  induction items with
  | nil => rw [outlineItems, List.map_nil]
  | cons item rest ih => rw [outlineItems, ih, List.map_cons]

theorem outlineEntries_eq_map (entries : List (Value × Value)) :
    outlineEntries inside entries = entries.map fun entry => (entry.1, outlineIn inside entry.2) := by
  induction entries with
  | nil => rw [outlineEntries, List.map_nil]
  | cons entry rest ih => rw [outlineEntries, ih, List.map_cons]

theorem outlineFields_eq_map (fields : Members) :
    outlineFields inside fields = fields.map fun field => (field.1, outlineIn inside field.2) := by
  induction fields with
  | nil => rw [outlineFields, List.map_nil]
  | cons field rest ih => rw [outlineFields, ih, List.map_cons]

theorem isNull_outlineIn (v : Value) : (outlineIn inside v).isNull = v.isNull := by
  cases v with
  | record shape fields extra =>
    rw [outlineIn]
    split
    · rfl
    split <;> rfl
  | _ => rfl

def reticent : Encoding := ⟨false, false⟩

theorem result_unknownForm (v : Value) : (unknownForm reticent v).result =
    .ok (.object [("error", .text "JADocJSONEncoder invalid object")]) := rfl

theorem result_unknownForm_congr (v w : Value) :
    (unknownForm reticent v).result = (unknownForm reticent w).result :=
  (result_unknownForm v).trans (result_unknownForm w).symm

def hasLeftItem : Value → Bool
  | .list errors => errors.any isLeftError
  | _ => false

theorem hasLeftError_eq (shape : Shape) (fields : Members) :
    hasLeftError shape fields =
      (shape = .document && ((Entries.get? fields "errors").map hasLeftItem).getD false) := by
  unfold hasLeftError
  congr 1
  cases Entries.get? fields "errors" with
  | none => rfl
  | some v => cases v <;> rfl

/-- Values that are written alike outside of error objects. -/
structure SameOutside (v w : Value) : Prop where
  left : isLeftError (expand v) = isLeftError (expand w)
  leftItem : hasLeftItem (expand v) = hasLeftItem (expand w)
  written : (encodePlain reticent (expand v)).result = (encodePlain reticent (expand w)).result

/-- A value that is written like its outline, inside and outside of error objects. -/
structure Outlined (v : Value) : Prop where
  hashable : isHashable (dump (outlineIn true v)) = isHashable (dump v)
  form : hasPlainForm (outlineIn true v) = hasPlainForm v
  dumped : (encodePlain reticent (dump (outlineIn true v))).result =
    (encodePlain reticent (dump v)).result
  outside : SameOutside (outlineIn false v) v

theorem outlined_single {v : Value} (single : v.isSingle = true) : Outlined v := by
  cases v
  case list | tuple | set | dict | record => cases single
  case complex | breach | foreign =>
    exact ⟨rfl, rfl, result_unknownForm_congr _ _, rfl, rfl, result_unknownForm_congr _ _⟩
  all_goals exact ⟨rfl, rfl, rfl, rfl, rfl, rfl⟩

theorem itemsHavePlainForm_outline {items : List Value} (outlined : ∀ item ∈ items, Outlined item) :
    itemsHavePlainForm (outlineItems true items) = itemsHavePlainForm items := by
  rw [Bool.eq_iff_iff, itemsHavePlainForm_iff, itemsHavePlainForm_iff, outlineItems_eq_map,
    List.forall_mem_map]
  exact forall₂_congr fun item member => by rw [(outlined item member).form]

theorem fieldsHavePlainForm_outline {fields : Members} (outlined : ∀ field ∈ fields, Outlined field.2) :
    fieldsHavePlainForm (outlineFields true fields) = fieldsHavePlainForm fields := by
  rw [Bool.eq_iff_iff, fieldsHavePlainForm_iff, fieldsHavePlainForm_iff, outlineFields_eq_map,
    List.forall_mem_map]
  exact forall₂_congr fun field member => by rw [(outlined field member).form]

theorem hashableItems_iff {items : List Value} :
    hashableItems items = true ↔ ∀ item ∈ items, isHashable item = true := by
  induction items with
  | nil => simp [hashableItems]
  | cons item rest ih => rw [hashableItems, Bool.and_eq_true, ih, List.forall_mem_cons]

theorem sameOutside_list {items : List Value} (outlined : ∀ item ∈ items, Outlined item) :
    SameOutside (outlineIn false (.list items)) (.list items) := by
  rw [outlineIn, outlineItems_eq_map]
  constructor
  · rfl
  · have each : items.map (isLeftError ∘ expand ∘ outlineIn false) = items.map (isLeftError ∘ expand) :=
      List.map_congr_left fun item member => (outlined item member).outside.left
    have any := congrArg (List.any · id) each
    rw [List.any_map, List.any_map] at any
    rw [expand, expand, expandItems_eq_map, expandItems_eq_map, hasLeftItem, hasLeftItem, List.any_map,
      List.any_map, List.any_map]
    exact any
  · rw [expand, expand, expandItems_eq_map, expandItems_eq_map, List.map_map]
    exact result_list_congr fun item member => (outlined item member).outside.written

theorem outlined_list {items : List Value} (outlined : ∀ item ∈ items, Outlined item) :
    Outlined (.list items) where
  hashable := rfl
  form := itemsHavePlainForm_outline outlined
  dumped := by
    rw [outlineIn, outlineItems_eq_map, dump, dump, dumpItems_eq_map, dumpItems_eq_map, List.map_map]
    exact result_list_congr fun item member => (outlined item member).dumped
  outside := sameOutside_list outlined

/-- Tuples are written like lists, but they may be hashable. -/
theorem outlined_tuple {items : List Value} (outlined : ∀ item ∈ items, Outlined item) :
    Outlined (.tuple items) where
  hashable := by
    rw [outlineIn, outlineItems_eq_map, dump, dump, isHashable, isHashable, Bool.eq_iff_iff,
      hashableItems_iff, hashableItems_iff, dumpItems_eq_map, dumpItems_eq_map, List.forall_mem_map,
      List.forall_mem_map, List.forall_mem_map]
    exact forall₂_congr fun item member => by rw [(outlined item member).hashable]
  form := itemsHavePlainForm_outline outlined
  dumped := (outlined_list outlined).dumped
  outside := ⟨rfl, rfl, (sameOutside_list outlined).written⟩

theorem outlined_set {frozen : Bool} {items : List Value} (outlined : ∀ item ∈ items, Outlined item) :
    Outlined (.set frozen items) where
  hashable := rfl
  form := by
    have each : items.map (isHashable ∘ dump ∘ outlineIn true) = items.map (isHashable ∘ dump) :=
      List.map_congr_left fun item member => (outlined item member).hashable
    have all := congrArg (List.all · id) each
    rw [List.all_map, List.all_map] at all
    rw [outlineIn, hasPlainForm, hasPlainForm, itemsHavePlainForm_outline outlined, outlineItems_eq_map,
      List.all_map]
    exact congrArg _ all
  dumped := (outlined_list outlined).dumped
  outside := ⟨rfl, rfl, (sameOutside_list outlined).written⟩

theorem outlined_dict {entries : List (Value × Value)} (outlined : ∀ entry ∈ entries, Outlined entry.2) :
    Outlined (.dict entries) where
  hashable := rfl
  form := by
    rw [outlineIn, hasPlainForm, hasPlainForm, Bool.eq_iff_iff, entriesHavePlainForm_iff,
      entriesHavePlainForm_iff, outlineEntries_eq_map, List.forall_mem_map]
    exact forall₂_congr fun entry member => by rw [(outlined entry member).form]
  dumped := by
    rw [outlineIn, outlineEntries_eq_map, dump, dump, dumpEntries_eq_map, dumpEntries_eq_map, List.map_map]
    exact result_dict_congr (f := dump ∘ outlineIn true) (g := dump) rfl fun entry member =>
      (outlined entry member).dumped
  outside := by
    refine ⟨rfl, rfl, ?_⟩
    rw [outlineIn, outlineEntries_eq_map, expand, expand, expandEntries_eq_map, expandEntries_eq_map,
      List.map_map]
    exact result_dict_congr (f := expand ∘ outlineIn false) (g := expand) rfl fun entry member =>
      (outlined entry member).outside.written

section Record

variable {shape : Shape} {fields extra : Members}

theorem dumped_outline (fields' : ∀ field ∈ fields, Outlined field.2)
    (extra' : ∀ field ∈ extra, Outlined field.2) :
    (encodePlain reticent
        (dump (.record shape (outlineFields true fields) (outlineFields true extra)))).result =
      (encodePlain reticent (dump (.record shape fields extra))).result := by
  rw [dump, dump, outlineFields_eq_map, outlineFields_eq_map, dumpFields_eq_map, dumpFields_eq_map,
    dumpFields_eq_map, dumpFields_eq_map]
  split
  · rw [presentMembers_map isNull_dump, presentMembers_map isNull_dump, presentMembers_map isNull_outlineIn,
      List.map_map]
    refine result_ofMembers_congr (f := dump ∘ outlineIn true) (g := dump) rfl fun member inside => ?_
    rcases mem_presentMembers inside with ⟨field, listed, same⟩ | further
    · rw [← same]
      exact (fields' field listed).dumped
    · exact (extra' member further).dumped
  · rw [List.map_map]
    exact result_ofMembers_congr (f := dump ∘ outlineIn true) (g := dump) rfl fun field member =>
      (fields' field member).dumped

theorem isHashable_dump_record : isHashable (dump (.record shape fields extra)) = false := by
  rw [dump]
  split <;> rfl

theorem leftovers_dump_record : isLeftError (dump (.record shape fields extra)) = false ∧
    hasLeftItem (dump (.record shape fields extra)) = false := by
  rw [dump]
  split <;> exact ⟨rfl, rfl⟩

theorem hasLeftError_outline (outlined : ∀ field ∈ fields, Outlined field.2) :
    hasLeftError shape (expandFields (outlineFields false fields)) =
      hasLeftError shape (expandFields fields) := by
  have errors := Entries.get?_map expand fields "errors"
  have errors' := Entries.get?_map (expand ∘ outlineIn false) fields "errors"
  have both : expandFields (outlineFields false fields) =
      fields.map fun field => (field.1, (expand ∘ outlineIn false) field.2) := by
    rw [outlineFields_eq_map, expandFields_eq_map, List.map_map]
    rfl
  rw [hasLeftError_eq, hasLeftError_eq, both, expandFields_eq_map, errors, errors']
  cases given : Entries.get? fields "errors" with
  | none => rfl
  | some v => exact congrArg _ (outlined _ (Entries.mem_of_get? given)).outside.leftItem

theorem expanded_outline (outlined : ∀ field ∈ fields, Outlined field.2) :
    (encodePlain reticent (.record shape (expandFields (outlineFields false fields)) extra)).result =
      (encodePlain reticent (.record shape (expandFields fields) extra)).result := by
  rw [encodePlain, encodePlain, hasLeftError_outline outlined]
  split
  · rfl
  split
  · exact result_unknownForm_congr _ _
  · rw [outlineFields_eq_map, expandFields_eq_map, expandFields_eq_map, List.map_map]
    refine result_encodeShape_congr (f := expand ∘ outlineIn false) (g := expand) rfl shape ?_ ?_
    · intro field _
      rw [Function.comp_apply, isNull_expand, isNull_expand, isNull_outlineIn]
    · exact fun field member => (outlined field member).outside.written

/-- An error object has a plain form if its outline has one. -/
theorem sameOutside_error
    (form : hasPlainForm (.record .errorObject (outlineFields true fields) (outlineFields true extra)) =
      hasPlainForm (.record .errorObject fields extra))
    (dumped : (encodePlain reticent (dump (.record .errorObject (outlineFields true fields)
      (outlineFields true extra)))).result =
      (encodePlain reticent (dump (.record .errorObject fields extra))).result) :
    SameOutside (outlineIn false (.record .errorObject fields extra)) (.record .errorObject fields extra) := by
  have outer : outlineIn false (.record .errorObject fields extra) =
      .record .errorObject (outlineFields true fields) (outlineFields true extra) := by
    rw [outlineIn, if_pos (Or.inr rfl)]
  rw [outer]
  by_cases plain : hasPlainForm (.record .errorObject fields extra) = true
  · have plain' := form.trans plain
    constructor
    all_goals rw [expand_errorObject, expand_errorObject, if_pos plain, if_pos plain']
    · rw [leftovers_dump_record.1, leftovers_dump_record.1]
    · rw [leftovers_dump_record.2, leftovers_dump_record.2]
    · exact dumped
  · have plain' : ¬hasPlainForm (.record .errorObject (outlineFields true fields)
        (outlineFields true extra)) = true := by rwa [form]
    constructor
    all_goals rw [expand_errorObject, expand_errorObject, if_neg plain, if_neg plain']
    · rfl
    · rfl
    · rw [encodePlain, encodePlain, if_pos (Or.inl rfl), if_pos (Or.inl rfl)]

/-- The other parts of error objects have no form outside of them. -/
theorem sameOutside_open (other : shape ≠ .errorObject) (isOpen : shape.isOpen = true) :
    SameOutside (outlineIn false (.record shape fields extra)) (.record shape fields extra) := by
  have whole : hasLeftError shape fields = false := by
    cases shape <;> first | rfl | cases isOpen
  have outer : outlineIn false (.record shape fields extra) = standIn := by
    rw [outlineIn, if_neg (by simp [other]), if_pos isOpen]
  have expands : expand (.record shape fields extra) = .record shape fields extra := by
    rw [expand, if_neg (by simp [other]), if_pos isOpen]
  have unknown : encodePlain reticent (.record shape fields extra) =
      unknownForm reticent (.record shape fields extra) := by
    rw [encodePlain, if_neg (by simp [other, whole]), if_pos isOpen]
  rw [outer]
  constructor
  all_goals rw [expands]
  · exact (decide_eq_false other).symm
  · rfl
  · rw [unknown]
    exact result_unknownForm_congr standIn _

theorem sameOutside_closed (closed : shape.isOpen = false) (outlined : ∀ field ∈ fields, Outlined field.2) :
    SameOutside (outlineIn false (.record shape fields extra)) (.record shape fields extra) := by
  have other : shape ≠ .errorObject := by
    rintro rfl
    cases closed
  have outer : outlineIn false (.record shape fields extra) =
      .record shape (outlineFields false fields) extra := by
    rw [outlineIn, if_neg (by simp [other]), if_neg (by simp [closed])]
  have expands (fields : Members) :
      expand (.record shape fields extra) = .record shape (expandFields fields) extra := by
    rw [expand, if_neg (by simp [other]), if_neg (by simp [closed])]
  rw [outer]
  constructor
  all_goals rw [expands, expands]
  · rfl
  · rfl
  · exact expanded_outline outlined

theorem outlined_record (fields' : ∀ field ∈ fields, Outlined field.2)
    (extra' : ∀ field ∈ extra, Outlined field.2) : Outlined (.record shape fields extra) := by
  have inner : outlineIn true (.record shape fields extra) =
      .record shape (outlineFields true fields) (outlineFields true extra) := by
    rw [outlineIn, if_pos (Or.inl rfl)]
  have form : hasPlainForm (.record shape (outlineFields true fields) (outlineFields true extra)) =
      hasPlainForm (.record shape fields extra) := by
    rw [hasPlainForm, hasPlainForm, fieldsHavePlainForm_outline fields', fieldsHavePlainForm_outline extra']
  have dumped : (encodePlain reticent
        (dump (.record shape (outlineFields true fields) (outlineFields true extra)))).result =
      (encodePlain reticent (dump (.record shape fields extra))).result := dumped_outline fields' extra'
  have outside : SameOutside (outlineIn false (.record shape fields extra)) (.record shape fields extra) := by
    by_cases error : shape = .errorObject
    · subst error
      exact sameOutside_error form dumped
    cases isOpen : shape.isOpen with
    | true => exact sameOutside_open error isOpen
    | false => exact sameOutside_closed isOpen fields'
  constructor
  · rw [inner, isHashable_dump_record, isHashable_dump_record]
  · rw [inner, form]
  · rw [inner, dumped]
  · exact outside

end Record

theorem outlined (v : Value) : Outlined v := by
  induction v using byParts with
  | single v single => exact outlined_single single
  | list items ih => exact outlined_list ih
  | tuple items ih => exact outlined_tuple ih
  | set frozen items ih => exact outlined_set ih
  | dict entries ih => exact outlined_dict ih
  | record shape fields extra fields' extra' => exact outlined_record fields' extra'

/-- Values with the same outline have the same text. -/
theorem jsonText_congr {v w : Value} (same : v.outline = w.outline) (layout : Json.Layout) :
    (v.jsonText reticent layout).result = (w.jsonText reticent layout).result := by
  refine Outcome.result_bind_congr ?_ fun _ _ => rfl
  rw [encode, encode, ← (outlined v).outside.written, ← (outlined w).outside.written]
  exact congrArg (fun v => (encodePlain reticent (expand v)).result) same

end Value

end JsonApi
