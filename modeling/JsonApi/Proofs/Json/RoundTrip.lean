import JsonApi.Proofs.Json.Integer
import JsonApi.Proofs.Json.Quoting

/-!
Trees read and written. Main statements: the text of a tree is all ASCII, and a tree without doubles reads
as it is written, in any layout that adds nothing but blanks.
-/

namespace JsonApi.Json

/-- Trees whose numbers are whole. -/
inductive IsExact : Json → Prop where
  | null : IsExact .null
  | bool (b : Bool) : IsExact (.bool b)
  | int (i : Int) : IsExact (.int i)
  | text (s : String) : IsExact (.text s)
  | array {items : List Json} (exact : ∀ item ∈ items, IsExact item) : IsExact (.array items)
  | object {members : List (String × Json)} (exact : ∀ member ∈ members, IsExact member.2) :
    IsExact (.object members)

def isBlank (c : Char) : Bool := c = ' ' || c = '\n' || c = '\r' || c = '\t'

namespace Layout

/-- A layout that puts blanks at most around commas and colons. -/
structure IsPlain (layout : Layout) : Prop where
  separator : ∃ blanks, layout.separator = ',' :: blanks ∧ ∀ c ∈ blanks, isBlank c = true
  colon : ∃ blanks, layout.colon = ':' :: blanks ∧ ∀ c ∈ blanks, isBlank c = true

theorem isPlain_spaced : spaced.IsPlain :=
  ⟨⟨[' '], rfl, List.forall_mem_singleton.mpr rfl⟩, ⟨[' '], rfl, List.forall_mem_singleton.mpr rfl⟩⟩

theorem isBlank_lineBreak (layout : Layout) (depth : Nat) :
    ∀ c ∈ layout.lineBreak depth, isBlank c = true := by
  intro c member
  unfold lineBreak at member
  split at member
  · cases member
  · rcases List.mem_cons.mp member with rfl | blank
    · rfl
    · rw [List.eq_of_mem_replicate blank]
      rfl

end Layout

section Blanks

variable {blanks text : List Char} {c : Char}

theorem skipBlanks_append (blank : ∀ c ∈ blanks, isBlank c = true) :
    skipBlanks (blanks ++ text) = skipBlanks text :=
  List.dropWhile_append_of_pos blank

theorem skipBlanks_cons (shown : isBlank c = false) : skipBlanks (c :: text) = c :: text :=
  List.dropWhile_cons_of_neg (by rw [← Bool.not_eq_true] at shown; exact shown)

theorem parseValue?_blanks (blank : ∀ c ∈ blanks, isBlank c = true) (fuel : Nat) :
    parseValue? fuel (blanks ++ text) = parseValue? fuel text := by
  cases fuel with
  | zero => rfl
  | succ fuel => rw [parseValue?, parseValue?, skipBlanks_append blank]

theorem parseItems?_blanks (blank : ∀ c ∈ blanks, isBlank c = true) (fuel : Nat) :
    parseItems? fuel (blanks ++ text) = parseItems? fuel text := by
  cases fuel with
  | zero => rfl
  | succ fuel => rw [parseItems?, parseItems?, parseValue?_blanks blank]

theorem parseMembers?_blanks (blank : ∀ c ∈ blanks, isBlank c = true) (fuel : Nat) :
    parseMembers? fuel (blanks ++ text) = parseMembers? fuel text := by
  cases fuel with
  | zero => rfl
  | succ fuel => rw [parseMembers?, parseMembers?, skipBlanks_append blank]

end Blanks

section Steps

variable {fuel : Nat} {text after rest : List Char} {item : Json}

theorem parseItems?_last (read : parseValue? fuel text = some (item, after))
    (shape : skipBlanks after = ']' :: rest) : parseItems? (fuel + 1) text = some ([item], rest) := by
  rw [parseItems?, read]
  simp only [Option.bind_eq_bind, Option.bind_some, shape]
  rfl

theorem parseItems?_more (read : parseValue? fuel text = some (item, after))
    (shape : skipBlanks after = ',' :: rest) :
    parseItems? (fuel + 1) text = (parseItems? fuel rest).map fun read => (item :: read.1, read.2) := by
  rw [parseItems?, read]
  simp only [Option.bind_eq_bind, Option.bind_some, shape]
  cases parseItems? fuel rest <;> rfl

variable {layout : Layout} {name before : List Char}

theorem textChars_append (name tail : List Char) :
    textChars name ++ tail = '"' :: (name.flatMap escapeChar ++ '"' :: tail) := by
  rw [textChars, List.append_assoc, List.cons_append, List.singleton_append]

theorem parseMembers?_last (colon : layout.colon = ':' :: before)
    (read : parseValue? fuel (before ++ text) = some (item, after))
    (shape : skipBlanks after = Char.ofNat 125 :: rest) :
    parseMembers? (fuel + 1) (textChars name ++ (layout.colon ++ text)) =
      some ([(String.ofList name, item)], rest) := by
  rw [textChars_append, colon, parseMembers?, skipBlanks_cons rfl]
  simp only [parseText?_escaped, Option.bind_eq_bind, Option.bind_some, List.cons_append,
    skipBlanks_cons (c := ':') rfl, read, shape]
  rfl

theorem parseMembers?_more (colon : layout.colon = ':' :: before)
    (read : parseValue? fuel (before ++ text) = some (item, after))
    (shape : skipBlanks after = ',' :: rest) :
    parseMembers? (fuel + 1) (textChars name ++ (layout.colon ++ text)) =
      (parseMembers? fuel rest).map fun read => ((String.ofList name, item) :: read.1, read.2) := by
  rw [textChars_append, colon, parseMembers?, skipBlanks_cons rfl]
  simp only [parseText?_escaped, Option.bind_eq_bind, Option.bind_some, List.cons_append,
    skipBlanks_cons (c := ':') rfl, read, shape]
  cases parseMembers? fuel rest <;> rfl

end Steps

/-- What may follow a number: nothing that could be part of it. -/
def Closes (rest : List Char) : Prop := ∀ c ∈ rest.head?, isNumberChar c = false

theorem closes_nil : Closes [] := fun _ member => nomatch member

theorem isNumberChar_of_isBlank {c : Char} (blank : isBlank c = true) : isNumberChar c = false := by
  simp only [isBlank, Bool.or_eq_true, decide_eq_true_eq] at blank
  rcases blank with ((rfl | rfl) | rfl) | rfl <;> rfl

theorem closes_blanks {blanks rest : List Char} (blank : ∀ c ∈ blanks, isBlank c = true)
    (closes : Closes rest) : Closes (blanks ++ rest) := by
  cases blanks with
  | nil => exact closes
  | cons c more =>
    rintro _ ⟨⟩
    exact isNumberChar_of_isBlank (blank c List.mem_cons_self)

/-- A value that begins like a number is one. -/
theorem parseValue?_number {c : Char} {rest : List Char} (fuel : Nat) (number : isNumberChar c = true) :
    parseValue? (fuel + 1) (c :: rest) =
      (number? ((c :: rest).takeWhile isNumberChar)).map fun json =>
        (json, (c :: rest).dropWhile isNumberChar) := by
  have shown : isBlank c = false := by
    cases blank : isBlank c with
    | false => rfl
    | true =>
      rw [isNumberChar_of_isBlank blank] at number
      cases number
  have apart (d : Char) (other : isNumberChar d = false) : c ≠ d := by
    rintro rfl
    rw [number] at other
    cases other
  rw [parseValue?, skipBlanks_cons shown]
  split
  · next shape => exact absurd (List.head_eq_of_cons_eq shape) (apart 'n' rfl)
  · next shape => exact absurd (List.head_eq_of_cons_eq shape) (apart 't' rfl)
  · next shape => exact absurd (List.head_eq_of_cons_eq shape) (apart 'f' rfl)
  · next shape => exact absurd (List.head_eq_of_cons_eq shape) (apart '"' rfl)
  · next shape =>
    cases shape
    rw [if_neg (apart '[' rfl), if_neg (apart (Char.ofNat 123) rfl)]
  · next shape => cases shape

theorem parseValue?_text (fuel : Nat) (rest : List Char) :
    parseValue? (fuel + 1) ('"' :: rest) =
      (parseText? rest).map fun read => (.text (String.ofList read.1), read.2) := by
  rw [parseValue?, skipBlanks_cons rfl]
  rfl

theorem parseValue?_array (fuel : Nat) {rest : List Char} {c : Char} {after : List Char}
    (shape : skipBlanks rest = c :: after) (open' : c ≠ ']') :
    parseValue? (fuel + 1) ('[' :: rest) =
      (parseItems? fuel rest).map fun read => (.array read.1, read.2) := by
  rw [parseValue?, skipBlanks_cons rfl]
  show (if '[' = '[' then _ else _) = _
  rw [if_pos rfl, shape]
  split
  · next shape' => exact absurd (List.head_eq_of_cons_eq shape') open'
  · rfl

theorem parseValue?_object (fuel : Nat) {rest : List Char} {c : Char} {after : List Char}
    (shape : skipBlanks rest = c :: after) (open' : c ≠ Char.ofNat 125) :
    parseValue? (fuel + 1) (Char.ofNat 123 :: rest) =
      (parseMembers? fuel rest).map fun read => (.object read.1, read.2) := by
  rw [parseValue?, skipBlanks_cons rfl]
  show (if Char.ofNat 123 = '[' then _ else if Char.ofNat 123 = Char.ofNat 123 then _ else _) = _
  rw [if_neg (by decide), if_pos rfl, shape]
  exact if_neg open'

theorem Closes.whileNumber {rest : List Char} (closes : Closes rest) :
    rest.takeWhile isNumberChar = [] ∧ rest.dropWhile isNumberChar = rest := by
  cases rest with
  | nil => exact ⟨rfl, rfl⟩
  | cons c more =>
    have apart : ¬isNumberChar c = true := by rw [closes c rfl]; exact Bool.false_ne_true
    exact ⟨List.takeWhile_cons_of_neg apart, List.dropWhile_cons_of_neg apart⟩

def ReadsAs (text : List Char) (json : Json) : Prop :=
  ∀ fuel rest, text.length ≤ fuel → Closes rest → parseValue? fuel (text ++ rest) = some (json, rest)

theorem readsAs_int (i : Int) : ReadsAs (intChars i) (.int i) := by
  intro fuel rest enough closes
  obtain ⟨c, more, shape⟩ : ∃ c more, intChars i = c :: more := by
    rw [intChars_eq]
    split
    · exact ⟨_, _, rfl⟩
    · exact List.exists_cons_of_ne_nil Nat.toDigits_ne_nil
  have numbers : ∀ d ∈ intChars i, isNumberChar d = true := fun _ => isNumberChar_of_mem_intChars
  have taken : (intChars i ++ rest).takeWhile isNumberChar = intChars i := by
    rw [List.takeWhile_append_of_pos numbers, closes.whileNumber.1, List.append_nil]
  have left : (intChars i ++ rest).dropWhile isNumberChar = rest := by
    rw [List.dropWhile_append_of_pos numbers, closes.whileNumber.2]
  cases fuel with
  | zero =>
    rw [shape] at enough
    cases enough
  | succ fuel =>
    have first : isNumberChar c = true := numbers c (by rw [shape]; exact List.mem_cons_self)
    rw [shape, List.cons_append] at taken left ⊢
    rw [parseValue?_number fuel first, taken, left, ← shape, number?_intChars]
    rfl

theorem readsAs_text (text : List Char) : ReadsAs (textChars text) (.text (String.ofList text)) := by
  intro fuel rest enough _
  cases fuel with
  | zero => cases enough
  | succ fuel =>
    rw [textChars, List.cons_append, List.cons_append, List.append_assoc, List.singleton_append,
      parseValue?_text, parseText?_escaped]
    rfl

theorem exists_cons_chars {json : Json} (exact : json.IsExact) (layout : Layout) (depth : Nat) :
    ∃ c more, chars layout depth json = c :: more ∧ isBlank c = false ∧ c ≠ ']' := by
  cases exact with
  | null => exact ⟨_, _, rfl, rfl, by decide⟩
  | bool b => cases b <;> exact ⟨_, _, rfl, rfl, by decide⟩
  | int i =>
    have signed (c : Char) (number : isNumberChar c = true) : isBlank c = false ∧ c ≠ ']' := by
      constructor
      · cases blank : isBlank c with
        | false => rfl
        | true =>
          rw [isNumberChar_of_isBlank blank] at number
          cases number
      · rintro rfl
        cases number
    have nonempty : intChars i ≠ [] := by
      rw [intChars_eq]
      exact List.append_ne_nil_of_right_ne_nil _ Nat.toDigits_ne_nil
    obtain ⟨c, more, shape⟩ := List.exists_cons_of_ne_nil nonempty
    have first : c ∈ intChars i := by rw [shape]; exact List.mem_cons_self
    exact ⟨c, more, shape, signed c (isNumberChar_of_mem_intChars first)⟩
  | text s => exact ⟨_, _, rfl, rfl, by decide⟩
  | @array items _ => cases items <;> exact ⟨_, _, rfl, rfl, by decide⟩
  | @object members _ => cases members <;> exact ⟨_, _, rfl, rfl, by decide⟩

section Nested

variable {layout : Layout} {blanks : List Char}

theorem closes_itemChars (plain : layout.IsPlain) (depth : Nat) (items : List Json) {rest : List Char}
    (closes : Closes rest) : Closes (itemChars layout depth items ++ rest) := by
  cases items with
  | nil => exact closes
  | cons item items =>
    obtain ⟨blanks, shape, _⟩ := plain.separator
    rw [itemChars, shape]
    rintro _ ⟨⟩
    rfl

theorem parseItems?_chars (plain : layout.IsPlain) (blank : ∀ c ∈ blanks, isBlank c = true)
    (depth : Nat) {items : List Json} {first : Json}
    (reads : ∀ item ∈ first :: items, ReadsAs (chars layout depth item) item) (fuel : Nat)
    (rest : List Char)
    (enough : (chars layout depth first ++ itemChars layout depth items).length < fuel) :
    parseItems? fuel (chars layout depth first ++ (itemChars layout depth items ++
      (blanks ++ ']' :: rest))) = some (first :: items, rest) := by
  have closes : Closes (blanks ++ ']' :: rest) := closes_blanks blank (by rintro _ ⟨⟩; rfl)
  induction items generalizing first fuel with
  | nil =>
    cases fuel with
    | zero => cases enough
    | succ fuel =>
      rw [itemChars, List.append_nil] at enough
      have read := reads first List.mem_cons_self fuel _ (Nat.le_of_lt_succ enough) closes
      exact parseItems?_last read ((skipBlanks_append blank).trans (skipBlanks_cons rfl))
  | cons next items ih =>
    cases fuel with
    | zero => cases enough
    | succ fuel =>
      obtain ⟨between, shape, blank'⟩ := plain.separator
      have written (tail : List Char) : itemChars layout depth (next :: items) ++ tail =
          ',' :: ((between ++ layout.lineBreak depth) ++
            (chars layout depth next ++ (itemChars layout depth items ++ tail))) := by
        rw [itemChars, shape]
        simp only [List.append_assoc, List.cons_append]
      have gap : ∀ c ∈ between ++ layout.lineBreak depth, isBlank c = true := fun c member =>
        (List.mem_append.mp member).elim (blank' c) (layout.isBlank_lineBreak depth c)
      have lengths := congrArg List.length (written [])
      simp only [List.append_nil, List.length_append, List.length_cons] at lengths enough
      have read := reads first List.mem_cons_self fuel _ (by omega)
        (closes_itemChars plain depth (next :: items) closes)
      rw [parseItems?_more read (by rw [written]; exact skipBlanks_cons rfl), parseItems?_blanks gap]
      rw [ih (List.forall_mem_cons.mp reads).2 fuel (by rw [List.length_append]; omega)]
      rfl

theorem closes_memberChars (plain : layout.IsPlain) (depth : Nat) (members : List (String × Json))
    {rest : List Char} (closes : Closes rest) : Closes (memberChars layout depth members ++ rest) := by
  cases members with
  | nil => exact closes
  | cons member members =>
    obtain ⟨blanks, shape, _⟩ := plain.separator
    rw [memberChars, shape]
    rintro _ ⟨⟩
    rfl

theorem parseMembers?_chars (plain : layout.IsPlain) (blank : ∀ c ∈ blanks, isBlank c = true)
    (depth : Nat) {members : List (String × Json)} {first : String × Json}
    (reads : ∀ member ∈ first :: members, ReadsAs (chars layout depth member.2) member.2) (fuel : Nat)
    (rest : List Char)
    (enough : (textChars first.1.toList ++ layout.colon ++ chars layout depth first.2 ++
      memberChars layout depth members).length < fuel) :
    parseMembers? fuel (textChars first.1.toList ++ (layout.colon ++ (chars layout depth first.2 ++
      (memberChars layout depth members ++ (blanks ++ Char.ofNat 125 :: rest))))) =
      some (first :: members, rest) := by
  have closes : Closes (blanks ++ Char.ofNat 125 :: rest) := closes_blanks blank (by rintro _ ⟨⟩; rfl)
  obtain ⟨before, colon, blank'⟩ := plain.colon
  have self : (String.ofList first.1.toList, first.2) = first := by rw [String.ofList_toList]
  induction members generalizing first fuel with
  | nil =>
    cases fuel with
    | zero => cases enough
    | succ fuel =>
      simp only [memberChars, List.append_nil, List.length_append] at enough
      have read := reads first List.mem_cons_self fuel _ (by omega) closes
      rw [← parseValue?_blanks blank'] at read
      rw [memberChars, List.nil_append,
        parseMembers?_last colon read ((skipBlanks_append blank).trans (skipBlanks_cons rfl)), self]
  | cons next members ih =>
    cases fuel with
    | zero => cases enough
    | succ fuel =>
      obtain ⟨between, shape, blank''⟩ := plain.separator
      have written (tail : List Char) : memberChars layout depth (next :: members) ++ tail =
          ',' :: ((between ++ layout.lineBreak depth) ++ (textChars next.1.toList ++ (layout.colon ++
            (chars layout depth next.2 ++ (memberChars layout depth members ++ tail))))) := by
        rw [memberChars, shape]
        simp only [List.append_assoc, List.cons_append]
      have gap : ∀ c ∈ between ++ layout.lineBreak depth, isBlank c = true := fun c member =>
        (List.mem_append.mp member).elim (blank'' c) (layout.isBlank_lineBreak depth c)
      have lengths := congrArg List.length (written [])
      simp only [List.append_nil, List.length_append, List.length_cons] at lengths enough
      have read := reads first List.mem_cons_self fuel _ (by omega)
        (closes_memberChars plain depth (next :: members) closes)
      rw [← parseValue?_blanks blank'] at read
      rw [parseMembers?_more colon read (by rw [written]; exact skipBlanks_cons rfl),
        parseMembers?_blanks gap, self]
      rw [ih (List.forall_mem_cons.mp reads).2 fuel (by simp only [List.length_append]; omega)
        (by rw [String.ofList_toList])]
      rfl

end Nested

theorem readsAs_array {layout : Layout} (plain : layout.IsPlain) {items : List Json}
    (exact : ∀ item ∈ items, item.IsExact) (depth : Nat)
    (reads : ∀ item ∈ items, ReadsAs (chars layout (depth + 1) item) item) :
    ReadsAs (chars layout depth (.array items)) (.array items) := by
  intro fuel rest enough _
  cases fuel with
  | zero => cases items <;> cases enough
  | succ fuel =>
    cases items with
    | nil => rfl
    | cons first items =>
      have written : chars layout depth (.array (first :: items)) ++ rest =
          '[' :: (layout.lineBreak (depth + 1) ++ (chars layout (depth + 1) first ++
            (itemChars layout (depth + 1) items ++ (layout.lineBreak depth ++ ']' :: rest)))) := by
        simp only [chars, List.append_assoc, List.cons_append, List.nil_append]
      have gap := layout.isBlank_lineBreak (depth + 1)
      obtain ⟨c, more, shape, shown, opens⟩ :=
        exists_cons_chars (exact first List.mem_cons_self) layout (depth + 1)
      have starts (tail : List Char) : skipBlanks (layout.lineBreak (depth + 1) ++
          (chars layout (depth + 1) first ++ tail)) = c :: (more ++ tail) := by
        rw [skipBlanks_append gap, shape]
        exact skipBlanks_cons shown
      rw [written, parseValue?_array fuel (starts _) opens, parseItems?_blanks gap,
        parseItems?_chars plain (layout.isBlank_lineBreak depth) (depth + 1) reads fuel rest]
      · rfl
      · simp only [chars, List.length_append, List.length_cons] at enough ⊢
        omega

theorem readsAs_object {layout : Layout} (plain : layout.IsPlain) {members : List (String × Json)}
    (depth : Nat)
    (reads : ∀ member ∈ members, ReadsAs (chars layout (depth + 1) member.2) member.2) :
    ReadsAs (chars layout depth (.object members)) (.object members) := by
  intro fuel rest enough _
  cases fuel with
  | zero => cases members <;> cases enough
  | succ fuel =>
    cases members with
    | nil => rfl
    | cons first members =>
      have written : chars layout depth (.object (first :: members)) ++ rest =
          Char.ofNat 123 :: (layout.lineBreak (depth + 1) ++ (textChars first.1.toList ++
            (layout.colon ++ (chars layout (depth + 1) first.2 ++ (memberChars layout (depth + 1) members
              ++ (layout.lineBreak depth ++ Char.ofNat 125 :: rest)))))) := by
        simp only [chars, List.append_assoc, List.cons_append, List.nil_append]
      have gap := layout.isBlank_lineBreak (depth + 1)
      have starts (tail : List Char) : skipBlanks (layout.lineBreak (depth + 1) ++
          (textChars first.1.toList ++ tail)) =
            '"' :: (first.1.toList.flatMap escapeChar ++ '"' :: tail) := by
        rw [skipBlanks_append gap, textChars_append]
        exact skipBlanks_cons rfl
      rw [written, parseValue?_object fuel (starts _) (by decide), parseMembers?_blanks gap,
        parseMembers?_chars plain (layout.isBlank_lineBreak depth) (depth + 1) reads fuel rest]
      · rfl
      · simp only [chars, List.length_append, List.length_cons] at enough ⊢
        omega

/-- A tree with whole numbers reads as it is written. -/
theorem readsAs_chars {layout : Layout} (plain : layout.IsPlain) {json : Json} (exact : json.IsExact)
    (depth : Nat) : ReadsAs (chars layout depth json) json := by
  induction exact generalizing depth with
  | null =>
    intro fuel rest enough _
    cases fuel with
    | zero => cases enough
    | succ fuel => rfl
  | bool b =>
    intro fuel rest enough _
    cases fuel with
    | zero => cases b <;> cases enough
    | succ fuel => cases b <;> rfl
  | int i => exact readsAs_int i
  | text s =>
    have read := readsAs_text s.toList
    rw [String.ofList_toList] at read
    exact read
  | array exact ih =>
    exact readsAs_array plain exact depth fun item member => ih item member (depth + 1)
  | object exact ih =>
    exact readsAs_object plain depth fun member inside => ih member inside (depth + 1)

/-- The text of a tree with whole numbers reads as that tree. -/
theorem parse?_chars {layout : Layout} (plain : layout.IsPlain) {json : Json} (exact : json.IsExact) :
    parse? (chars layout 0 json) = some json := by
  have read := readsAs_chars plain exact 0 ((chars layout 0 json).length + 1) [] (Nat.le_succ _)
    closes_nil
  rw [List.append_nil] at read
  simp only [parse?, read]
  rfl

section Ascii

variable {layout : Layout}

theorem isAscii_of_isBlank {c : Char} (blank : isBlank c = true) : Text.isAscii c = true := by
  simp only [isBlank, Bool.or_eq_true, decide_eq_true_eq] at blank
  rcases blank with ((rfl | rfl) | rfl) | rfl <;> rfl

theorem isAscii_lineBreak (layout : Layout) (depth : Nat) :
    ∀ c ∈ layout.lineBreak depth, Text.isAscii c = true := fun c member =>
  isAscii_of_isBlank (layout.isBlank_lineBreak depth c member)

theorem isAscii_separator (plain : layout.IsPlain) : ∀ c ∈ layout.separator, Text.isAscii c = true := by
  obtain ⟨blanks, shape, blank⟩ := plain.separator
  rw [shape, List.forall_mem_cons]
  exact ⟨rfl, fun c member => isAscii_of_isBlank (blank c member)⟩

theorem isAscii_colon (plain : layout.IsPlain) : ∀ c ∈ layout.colon, Text.isAscii c = true := by
  obtain ⟨blanks, shape, blank⟩ := plain.colon
  rw [shape, List.forall_mem_cons]
  exact ⟨rfl, fun c member => isAscii_of_isBlank (blank c member)⟩

theorem isAscii_intChars (i : Int) : ∀ c ∈ intChars i, Text.isAscii c = true := by
  rw [intChars_eq, List.forall_mem_append]
  refine ⟨?_, fun c digit => Text.isAscii_of_isAlphanum ?_⟩
  · split
    · exact List.forall_mem_singleton.mpr rfl
    · exact List.forall_mem_nil _
  · rw [Char.isAlphanum, isDigit_of_mem_digits digit, Bool.or_true]

theorem isAscii_itemChars (plain : layout.IsPlain) (depth : Nat) {items : List Json}
    (ascii : ∀ item ∈ items, ∀ c ∈ chars layout depth item, Text.isAscii c = true) :
    ∀ c ∈ itemChars layout depth items, Text.isAscii c = true := by
  induction items with
  | nil => exact fun _ member => nomatch member
  | cons item items ih =>
    rw [List.forall_mem_cons] at ascii
    simp only [itemChars, List.forall_mem_append]
    exact ⟨⟨⟨isAscii_separator plain, isAscii_lineBreak layout depth⟩, ascii.1⟩, ih ascii.2⟩

theorem isAscii_memberChars (plain : layout.IsPlain) (depth : Nat) {members : List (String × Json)}
    (ascii : ∀ member ∈ members, ∀ c ∈ chars layout depth member.2, Text.isAscii c = true) :
    ∀ c ∈ memberChars layout depth members, Text.isAscii c = true := by
  induction members with
  | nil => exact fun _ member => nomatch member
  | cons member members ih =>
    rw [List.forall_mem_cons] at ascii
    simp only [memberChars, List.forall_mem_append]
    exact ⟨⟨⟨⟨⟨isAscii_separator plain, isAscii_lineBreak layout depth⟩,
      isAscii_textChars member.1.toList⟩, isAscii_colon plain⟩, ascii.1⟩, ih ascii.2⟩

theorem isAscii_chars (plain : layout.IsPlain) {json : Json} (exact : json.IsExact) (depth : Nat) :
    ∀ c ∈ chars layout depth json, Text.isAscii c = true := by
  induction exact generalizing depth with
  | null => exact List.all_eq_true.mp rfl
  | bool b => cases b <;> exact List.all_eq_true.mp rfl
  | int i => exact isAscii_intChars i
  | text s => exact isAscii_textChars s.toList
  | @array items _ ih =>
    cases items with
    | nil => exact List.all_eq_true.mp rfl
    | cons item items =>
      have inside := isAscii_itemChars plain (depth + 1) fun item member =>
        ih item (List.mem_cons_of_mem _ member) (depth + 1)
      simp only [chars, List.forall_mem_append, List.forall_mem_cons]
      exact ⟨⟨⟨⟨⟨rfl, isAscii_lineBreak layout _⟩, ih item List.mem_cons_self _⟩, inside⟩,
        isAscii_lineBreak layout _⟩, rfl, fun _ member => nomatch member⟩
  | @object members _ ih =>
    cases members with
    | nil => exact List.all_eq_true.mp rfl
    | cons member members =>
      have inside := isAscii_memberChars plain (depth + 1) fun member further =>
        ih member (List.mem_cons_of_mem _ further) (depth + 1)
      simp only [chars, List.forall_mem_append, List.forall_mem_cons]
      exact ⟨⟨⟨⟨⟨⟨⟨rfl, isAscii_lineBreak layout _⟩, isAscii_textChars _⟩, isAscii_colon plain⟩,
        ih member List.mem_cons_self _⟩, inside⟩, isAscii_lineBreak layout _⟩, rfl,
        fun _ member => nomatch member⟩

end Ascii

end JsonApi.Json
