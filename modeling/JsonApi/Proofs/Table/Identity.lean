import JsonApi.Proofs.Json.Integer
import JsonApi.Proofs.Text.Joining
import JsonApi.Table.Row
import JsonApi.Store

/-!
Identity of rows. Main statement: rows of one table have the same identifier only if they have the same
key, as long as what stands between the parts of a key can be told from the parts. Parts that are texts
may hold it, and then two rows pass for one resource.
-/

namespace JsonApi

theorem Value.toList_joined (separator : String) (parts : List String) :
    (Value.joined separator parts).toList =
      Text.joinWith separator.toList (parts.map String.toList) := by
  induction parts with
  | nil => rfl
  | cons part more ih =>
    cases more with
    | nil => rfl
    | cons next more =>
      simp only [Value.joined, String.toList_append, ih, List.map_cons, Text.joinWith]

inductive KeySort where
  | integer
  | text
deriving DecidableEq, Repr

namespace KeySort

inductive Holds : KeySort → Value → Prop where
  | integer (i : Int) : Holds .integer (.int i)
  | text (s : String) : Holds .text (.text s)

variable {sort : KeySort} {v w : Value}

theorem Holds.isNull (holds : sort.Holds v) : v.isNull = false := by cases holds <;> rfl

theorem display_int (i : Int) : (Value.int i).display.toList = Json.intChars i :=
  Json.toList_toString i

theorem Holds.display_inj (holds : sort.Holds v) (holds' : sort.Holds w)
    (same : v.display = w.display) : v = w := by
  cases holds with
  | integer i =>
    cases holds' with
    | integer j =>
      have texts := congrArg String.toList same
      rw [display_int, display_int] at texts
      exact congrArg Value.int (Json.intChars_inj texts)
  | text s =>
    cases holds' with
    | text s' => exact congrArg Value.text same

/-- Behind its first character an integer is all digits. -/
theorem Holds.digits (holds : KeySort.integer.Holds v) :
    v.display.toList ≠ [] ∧ ∀ c ∈ v.display.toList.tail, c.isDigit = true := by
  cases holds with
  | integer i =>
    rw [display_int, Json.intChars_eq]
    split
    · exact ⟨List.cons_ne_nil _ _, fun _ => Json.isDigit_of_mem_digits⟩
    · exact ⟨Nat.toDigits_ne_nil, fun _ member =>
        Json.isDigit_of_mem_digits (List.mem_of_mem_tail member)⟩

end KeySort

namespace Row

variable {settings : Settings} {t : Table} {sorts : String → KeySort} {delimiter : String} {r s : Row}

/-- A row whose key is set and in whose class nothing takes the place of what makes up identity. -/
structure Keyed (settings : Settings) (t : Table) (sorts : String → KeySort) (delimiter : String)
    (r : Row) : Prop where
  table : r.table = t
  held : ∀ name ∈ t.keyNames, (sorts name).Holds (r.value name)
  kind : r.override? "kind" = none
  identifier : r.override? "identifier" = none
  id : r.override? "jsonapi_id" = none
  delimiter : r.delimiter settings = .text delimiter

def keyTexts (r : Row) : List (List Char) := r.keyValues.map fun key => key.display.toList

/-- Whether the parts of two keys can be told apart once they are joined: a character of the delimiter
occurs in the values of at most one column, or all columns are integers and the delimiter is no mere
number. -/
def Telling (delimiter : String) (t : Table) (sorts : String → KeySort) (r s : Row) : Prop :=
  (∃ c ∈ delimiter.toList, ∃ before column after, t.keyNames = before ++ column :: after ∧
    ∀ name ∈ before ++ after,
      c ∉ (r.value name).display.toList ∧ c ∉ (s.value name).display.toList) ∨
  (∀ name ∈ t.keyNames, sorts name = .integer) ∧ ∃ c ∈ delimiter.toList, c.isDigit = false

/-- The id of a row is its key, joined. -/
theorem keyId_joined (keyed : Keyed settings t sorts delimiter r) :
    ∃ id : String, r.keyId settings = .ok (.text id) ∧
      id.toList = Text.joinWith delimiter.toList r.keyTexts := by
  have set : r.keyValues.any Value.isNull = false := by
    rw [List.any_eq_false]
    intro key member
    obtain ⟨name, column, rfl⟩ := List.mem_map.mp member
    rw [keyed.table] at column
    simp [(keyed.held name column).isNull]
  have joins : joinKeys (r.delimiter settings) r.keyValues =
      .ok (Value.joined delimiter (r.keyValues.map Value.display)) := by
    rw [keyed.delimiter]
    rfl
  have spelled : (Value.joined delimiter (r.keyValues.map Value.display)).toList =
      Text.joinWith delimiter.toList r.keyTexts := by
    rw [Value.toList_joined, List.map_map]
    rfl
  refine ⟨_, ?_, spelled⟩
  simp only [keyId, set, Bool.false_eq_true, if_false]
  cases shape : r.keyValues with
  | nil =>
    rw [shape] at joins
    simp only [joins]
    rfl
  | cons key more =>
    cases more with
    | nil => rfl
    | cons next more =>
      rw [shape] at joins
      simp only [joins]
      rfl

theorem identifier_keyed (keyed : Keyed settings t sorts delimiter r) :
    ∃ id, r.identifier settings = .ok (.existing (.ofValue r.place r.kindValue) id) ∧
      id.toList = Text.joinWith delimiter.toList r.keyTexts := by
  obtain ⟨id, made, spelled⟩ := keyId_joined keyed
  refine ⟨id, ?_, spelled⟩
  simp only [identifier, operation, Row.id, kind, keyed.identifier, keyed.kind, keyed.id, made,
    Option.isSome_none, Bool.false_eq_true, if_false]
  rfl

theorem keyValues_of_keyTexts (left : Keyed settings t sorts delimiter r)
    (right : Keyed settings t sorts delimiter s) (same : r.keyTexts = s.keyTexts) :
    r.keyValues = s.keyValues := by
  have names := left.table.trans right.table.symm
  unfold keyTexts keyValues at same
  unfold keyValues
  rw [← names, left.table] at same ⊢
  rw [List.map_map, List.map_map, List.map_inj_left] at same
  rw [List.map_inj_left]
  intro name column
  exact (left.held name column).display_inj (right.held name column)
    (String.toList_inj.mp (same name column))

theorem keyTexts_of_joined (left : Keyed settings t sorts delimiter r)
    (right : Keyed settings t sorts delimiter s) (telling : Telling delimiter t sorts r s)
    (same : Text.joinWith delimiter.toList r.keyTexts = Text.joinWith delimiter.toList s.keyTexts) :
    r.keyTexts = s.keyTexts := by
  have texts (row : Row) (table : row.table = t) :
      row.keyTexts = t.keyNames.map fun name => (row.value name).display.toList := by
    rw [keyTexts, keyValues, table, List.map_map]
    rfl
  rw [texts r left.table, texts s right.table] at same ⊢
  rcases telling with ⟨c, inside, before, column, after, names, absent⟩ | ⟨integers, c, inside, plain⟩
  · rw [names, List.map_append, List.map_append, List.map_cons, List.map_cons] at same ⊢
    refine Text.joinWith_inj inside (by simp) (by simp) ?_ ?_ same
    · rw [← List.map_append, List.forall_mem_map]
      exact fun name member => (absent name member).1
    · rw [← List.map_append, List.forall_mem_map]
      exact fun name member => (absent name member).2
  · have digits (row : Row) (keyed : Keyed settings t sorts delimiter row) :
        ∀ text ∈ t.keyNames.map fun name => (row.value name).display.toList,
          text ≠ [] ∧ c ∉ text.tail := by
      rw [List.forall_mem_map]
      intro name column
      have holds := keyed.held name column
      rw [integers name column] at holds
      refine ⟨holds.digits.1, fun member => ?_⟩
      rw [holds.digits.2 c member] at plain
      cases plain
    exact Text.joinWith_inj_of_tail inside (by simp) (digits r left) (digits s right) same

/-- Rows of one table have lasting identifiers, and a store takes them for one resource only if their
keys are the same, whenever the parts of their keys can be told apart. -/
theorem keyValues_of_isSame (left : Keyed settings t sorts delimiter r)
    (right : Keyed settings t sorts delimiter s) (telling : Telling delimiter t sorts r s) :
    ∃ one other, r.identifier settings = .ok one ∧ s.identifier settings = .ok other ∧
      one.isPersisted = true ∧ other.isPersisted = true ∧
      (one.isSame other = true → r.keyValues = s.keyValues) := by
  obtain ⟨id, identified, spelled⟩ := identifier_keyed left
  obtain ⟨id', identified', spelled'⟩ := identifier_keyed right
  refine ⟨_, _, identified, identified', rfl, rfl, fun same => ?_⟩
  simp only [Identifier.isSame, Bool.and_eq_true, beq_iff_eq] at same
  have ids := congrArg String.toList same.2
  rw [spelled, spelled'] at ids
  exact keyValues_of_keyTexts left right (keyTexts_of_joined left right telling ids)

def editions : Table where
  className := "Edition"
  stored := "editions"
  isBare := false
  columns := [⟨"isbn", "isbn", true, none⟩, ⟨"number", "number", true, none⟩,
    ⟨"copies", "copies", false, none⟩]
  relations := []
  hiddenAttributes := []
  hiddenRelations := []
  delimiter := .null

def edition (place : Nat) (isbn number : Value) : Row :=
  ⟨editions, place, [("isbn", .value isbn), ("number", .value number)]⟩

theorem keyed_edition {isbn number : Value} (place : Nat)
    (configured : settings.keyDelimiter = .text delimiter) (holds : (sorts "isbn").Holds isbn)
    (holds' : (sorts "number").Holds number) :
    Keyed settings editions sorts delimiter (edition place isbn number) where
  table := rfl
  held := by
    intro name column
    rcases List.mem_cons.mp column with rfl | column
    · exact holds
    · cases List.mem_singleton.mp column
      exact holds'
  kind := rfl
  identifier := rfl
  id := rfl
  delimiter := configured

/-- Texts and numbers go together, even if the texts hold the delimiter. -/
theorem editions_apart :
    Telling "_" editions (fun name => if name = "isbn" then .text else .integer)
      (edition 0 (.text "0_306") (.int 2)) (edition 1 (.text "0") (.int (-306))) ∧
    ∃ one other, (edition 0 (.text "0_306") (.int 2)).identifier (Settings.make none [] []) = .ok one ∧
      (edition 1 (.text "0") (.int (-306))).identifier (Settings.make none [] []) = .ok other ∧
      one.isPersisted = true ∧ other.isPersisted = true ∧
      (one.isSame other = true → (edition 0 (.text "0_306") (.int 2)).keyValues =
        (edition 1 (.text "0") (.int (-306))).keyValues) := by
  have telling : Telling "_" editions (fun name => if name = "isbn" then .text else .integer)
      (edition 0 (.text "0_306") (.int 2)) (edition 1 (.text "0") (.int (-306))) :=
    Or.inl ⟨'_', by decide, [], "isbn", ["number"], by decide, by decide⟩
  exact ⟨telling, keyValues_of_isSame (keyed_edition 0 rfl (.text _) (.integer _))
    (keyed_edition 1 rfl (.text _) (.integer _)) telling⟩

/-- Not all rows with different keys have different identifiers: two texts that hold the delimiter may
be cut at either. -/
theorem texts_merge : ¬∀ (settings : Settings) (t : Table) (sorts : String → KeySort)
    (delimiter : String) (r s : Row), delimiter ≠ "" → Keyed settings t sorts delimiter r →
      Keyed settings t sorts delimiter s →
      r.identifier settings = s.identifier settings → r.keyValues = s.keyValues := by
  intro tells
  have same : [Value.text "a_b", .text "c"] = [.text "a", .text "b_c"] :=
    tells (Settings.make none [] []) editions (fun _ => .text) "_"
      (edition 0 (.text "a_b") (.text "c")) (edition 1 (.text "a") (.text "b_c")) (by decide)
      (keyed_edition 0 rfl (.text _) (.text _)) (keyed_edition 1 rfl (.text _) (.text _)) (by decide)
  simp at same

/-- No delimiter tells two texts apart: it may itself be either of them. -/
theorem exists_merged (configured : settings.keyDelimiter = .text delimiter) (nonempty : delimiter ≠ "") :
    ∃ r s, Keyed settings editions (fun _ => .text) delimiter r ∧
      Keyed settings editions (fun _ => .text) delimiter s ∧
      r.identifier settings = s.identifier settings ∧ r.keyValues ≠ s.keyValues := by
  have left : Keyed settings editions (fun _ => .text) delimiter
      (edition 0 (.text delimiter) (.text "")) := keyed_edition 0 configured (.text _) (.text _)
  have right : Keyed settings editions (fun _ => .text) delimiter
      (edition 0 (.text "") (.text delimiter)) := keyed_edition 0 configured (.text _) (.text _)
  refine ⟨_, _, left, right, ?_, ?_⟩
  · obtain ⟨id, identified, spelled⟩ := identifier_keyed left
    obtain ⟨id', identified', spelled'⟩ := identifier_keyed right
    have joined : Text.joinWith delimiter.toList [delimiter.toList, []] =
        Text.joinWith delimiter.toList [[], delimiter.toList] := by
      simp only [Text.joinWith, List.append_nil, List.nil_append]
    have ids : id = id' := String.toList_inj.mp (spelled.trans (joined.trans spelled'.symm))
    rw [identified, identified', ids]
    rfl
  · intro same
    have keys : [Value.text delimiter, .text ""] = [.text "", .text delimiter] := same
    simp only [List.cons.injEq, Value.text.injEq] at keys
    exact nonempty keys.1

end Row

end JsonApi
