import JsonApi.Value.Encode
import JsonApi.Value.Tree

/-!
Functions on values and their parts. Whatever is done to a value is done to each of its parts, so each
function on lists of parts is a map.
-/

namespace JsonApi.Value

def isSingle : Value → Bool
  | .list _ => false
  | .tuple _ => false
  | .set .. => false
  | .dict _ => false
  | .record .. => false
  | _ => true

/-- What holds of a value whenever it holds of the parts, holds of every value. -/
theorem byParts {motive : Value → Prop} (single : ∀ v, v.isSingle = true → motive v)
    (list : ∀ items, (∀ item ∈ items, motive item) → motive (.list items))
    (tuple : ∀ items, (∀ item ∈ items, motive item) → motive (.tuple items))
    (set : ∀ frozen items, (∀ item ∈ items, motive item) → motive (.set frozen items))
    (dict : ∀ entries, (∀ entry ∈ entries, motive entry.2) → motive (.dict entries))
    (record : ∀ shape fields extra, (∀ field ∈ fields, motive field.2) →
      (∀ field ∈ extra, motive field.2) → motive (.record shape fields extra)) : ∀ v, motive v
  | .list items => list items fun item _member => byParts single list tuple set dict record item
  | .tuple items => tuple items fun item _member => byParts single list tuple set dict record item
  | .set frozen items =>
    set frozen items fun item _member => byParts single list tuple set dict record item
  | .dict entries =>
    dict entries fun entry _member => byParts single list tuple set dict record entry.2
  | .record shape fields extra =>
    record shape fields extra (fun field _member => byParts single list tuple set dict record field.2)
      fun field _member => byParts single list tuple set dict record field.2
  | .null => single _ rfl
  | .bool _ => single _ rfl
  | .int _ => single _ rfl
  | .double _ => single _ rfl
  | .text _ => single _ rfl
  | .bytes _ => single _ rfl
  | .decimal _ => single _ rfl
  | .uuid _ => single _ rfl
  | .date _ => single _ rfl
  | .clock _ => single _ rfl
  | .moment _ => single _ rfl
  | .span _ => single _ rfl
  | .complex .. => single _ rfl
  | .problem .. => single _ rfl
  | .breach .. => single _ rfl
  | .foreign _ => single _ rfl
termination_by v => sizeOf v
decreasing_by
  all_goals have smaller := List.sizeOf_lt_of_mem _member
  · simp only [Value.list.sizeOf_spec]
    omega
  · simp only [Value.tuple.sizeOf_spec]
    omega
  · simp only [Value.set.sizeOf_spec]
    omega
  · obtain ⟨key, value⟩ := entry
    simp only [Value.dict.sizeOf_spec, Prod.mk.sizeOf_spec] at smaller ⊢
    omega
  all_goals
    obtain ⟨name, value⟩ := field
    simp only [Value.record.sizeOf_spec, Prod.mk.sizeOf_spec] at smaller ⊢
    omega

variable {encoding : Encoding} {inside : Bool}

def part (encoding : Encoding) (field : String × Value) : Part :=
  ⟨field.1, field.2.isNull, encodePlain encoding field.2⟩

def fieldTree (inside : Bool) (field : String × Value) : String × Option Json :=
  (field.1, if field.2.isNull then none else some (treeIn inside field.2))

theorem encodeItems_eq_map (items : List Value) :
    encodeItems encoding items = items.map (encodePlain encoding) := by
  induction items with
  | nil => rw [encodeItems, List.map_nil]
  | cons item rest ih => rw [encodeItems, ih, List.map_cons]

theorem encodeEntries_eq_map (entries : List (Value × Value)) :
    encodeEntries encoding entries = entries.map fun entry => (entry.1, encodePlain encoding entry.2) := by
  induction entries with
  | nil => rw [encodeEntries, List.map_nil]
  | cons entry rest ih => rw [encodeEntries, ih, List.map_cons]

theorem encodeFields_eq_map (fields : Members) :
    encodeFields encoding fields = fields.map (part encoding) := by
  induction fields with
  | nil => rw [encodeFields, List.map_nil]
  | cons field rest ih => rw [encodeFields, ih, List.map_cons, part]

theorem expandItems_eq_map (items : List Value) : expandItems items = items.map expand := by
  induction items with
  | nil => rw [expandItems, List.map_nil]
  | cons item rest ih => rw [expandItems, ih, List.map_cons]

theorem expandEntries_eq_map (entries : List (Value × Value)) :
    expandEntries entries = entries.map fun entry => (entry.1, expand entry.2) := by
  induction entries with
  | nil => rw [expandEntries, List.map_nil]
  | cons entry rest ih => rw [expandEntries, ih, List.map_cons]

theorem expandFields_eq_map (fields : Members) :
    expandFields fields = fields.map fun field => (field.1, expand field.2) := by
  induction fields with
  | nil => rw [expandFields, List.map_nil]
  | cons field rest ih => rw [expandFields, ih, List.map_cons]

theorem dumpItems_eq_map (items : List Value) : dumpItems items = items.map dump := by
  induction items with
  | nil => rw [dumpItems, List.map_nil]
  | cons item rest ih => rw [dumpItems, ih, List.map_cons]

theorem dumpEntries_eq_map (entries : List (Value × Value)) :
    dumpEntries entries = entries.map fun entry => (entry.1, dump entry.2) := by
  induction entries with
  | nil => rw [dumpEntries, List.map_nil]
  | cons entry rest ih => rw [dumpEntries, ih, List.map_cons]

theorem dumpFields_eq_map (fields : Members) :
    dumpFields fields = fields.map fun field => (field.1, dump field.2) := by
  induction fields with
  | nil => rw [dumpFields, List.map_nil]
  | cons field rest ih => rw [dumpFields, ih, List.map_cons]

theorem itemsHavePlainForm_iff {items : List Value} :
    itemsHavePlainForm items = true ↔ ∀ item ∈ items, hasPlainForm item = true := by
  induction items with
  | nil => simp [itemsHavePlainForm]
  | cons item rest ih => rw [itemsHavePlainForm, Bool.and_eq_true, ih, List.forall_mem_cons]

theorem entriesHavePlainForm_iff {entries : List (Value × Value)} :
    entriesHavePlainForm entries = true ↔ ∀ entry ∈ entries, hasPlainForm entry.2 = true := by
  induction entries with
  | nil => simp [entriesHavePlainForm]
  | cons entry rest ih => rw [entriesHavePlainForm, Bool.and_eq_true, ih, List.forall_mem_cons]

theorem fieldsHavePlainForm_iff {fields : Members} :
    fieldsHavePlainForm fields = true ↔ ∀ field ∈ fields, hasPlainForm field.2 = true := by
  induction fields with
  | nil => simp [fieldsHavePlainForm]
  | cons field rest ih => rw [fieldsHavePlainForm, Bool.and_eq_true, ih, List.forall_mem_cons]

theorem itemTrees_eq_map (items : List Value) : itemTrees inside items = items.map (treeIn inside) := by
  induction items with
  | nil => rw [itemTrees, List.map_nil]
  | cons item rest ih => rw [itemTrees, ih, List.map_cons]

theorem fieldTrees_eq_map (fields : Members) :
    fieldTrees inside fields = fields.map (fieldTree inside) := by
  induction fields with
  | nil => rw [fieldTrees, List.map_nil]
  | cons field rest ih => rw [fieldTrees, ih, List.map_cons, fieldTree]

section Members

variable (members : Members)

theorem encodePlain_ofMembers : encodePlain encoding (ofMembers members) =
    encodeMembers encoding (members.map fun member => (.text member.1, encodePlain encoding member.2)) := by
  rw [ofMembers, encodePlain, encodeEntries_eq_map, List.map_map]
  rfl

theorem expand_ofMembers : expand (ofMembers members) =
    ofMembers (members.map fun member => (member.1, expand member.2)) := by
  rw [ofMembers, ofMembers, expand, expandEntries_eq_map, List.map_map, List.map_map]
  rfl

theorem dump_ofMembers : dump (ofMembers members) =
    ofMembers (members.map fun member => (member.1, dump member.2)) := by
  rw [ofMembers, ofMembers, dump, dumpEntries_eq_map, List.map_map, List.map_map]
  rfl

theorem treeIn_ofMembers : treeIn inside (ofMembers members) =
    .object (members.map fun member => (member.1, treeIn inside member.2)) := by
  rw [ofMembers, treeIn]
  congr 1
  induction members with
  | nil => rw [List.map_nil, List.map_nil, entryTrees]
  | cons member rest ih => rw [List.map_cons, entryTrees, ih, List.map_cons]

theorem hasPlainForm_ofMembers : hasPlainForm (ofMembers members) = true ↔
    ∀ member ∈ members, hasPlainForm member.2 = true := by
  rw [ofMembers, hasPlainForm, entriesHavePlainForm_iff, List.forall_mem_map]

end Members

theorem isNull_dump (v : Value) : (dump v).isNull = v.isNull := by
  cases v with
  | record shape fields extra =>
    rw [dump]
    split <;> rfl
  | _ => rfl

theorem isNull_expand (v : Value) : (expand v).isNull = v.isNull := by
  cases v with
  | record shape fields extra =>
    rw [expand]
    split
    · rw [isNull_dump]
    split <;> rfl
  | _ => rfl

theorem expand_errorObject (fields extra : Members) : expand (.record .errorObject fields extra) =
    if hasPlainForm (.record .errorObject fields extra) then dump (.record .errorObject fields extra)
    else .record .errorObject fields extra := by
  rw [expand]
  split
  · next plain => rw [if_pos plain.2]
  · next other =>
    rw [if_neg fun plain => other ⟨rfl, plain⟩]
    rfl

section Present

variable {shape : Shape} {fields extra : Members}

theorem presentMembers_map {f : Value → Value} (null : ∀ v, (f v).isNull = v.isNull) :
    presentMembers shape (fields.map fun field => (field.1, f field.2))
        (extra.map fun field => (field.1, f field.2)) =
      (presentMembers shape fields extra).map fun member => (member.1, f member.2) := by
  simp only [presentMembers, List.map_map, List.filter_map, List.map_append, Function.comp_def, null]

theorem mem_presentMembers {member : String × Value}
    (inside : member ∈ presentMembers shape fields extra) :
    (∃ field ∈ fields, field.2 = member.2) ∨ member ∈ extra := by
  rcases List.mem_append.mp inside with declared | further
  · obtain ⟨field, listed, rfl⟩ := List.mem_map.mp (List.mem_filter.mp declared).1
    exact Or.inl ⟨field, listed, rfl⟩
  · exact Or.inr (List.mem_filter.mp further).1

end Present

end JsonApi.Value
