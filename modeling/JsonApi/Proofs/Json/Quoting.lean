import JsonApi.Json.Parser
import JsonApi.Json.Render
import JsonApi.Proofs.Text.Percent

/-!
Texts in quotes. Main statements: a text that is written in quotes is all ASCII, and reads as that text
whatever follows it.
-/

namespace JsonApi

namespace Text

theorem isAscii_hexDigits (count n : Nat) : ∀ c ∈ hexDigits count n, isAscii c = true := by
  have digits : ∀ d < 16, isAscii (hexDigit d) = true := by decide
  induction count generalizing n with
  | zero => exact fun _ member => nomatch member
  | succ count ih =>
    intro c member
    rcases List.mem_append.mp member with lead | last
    · exact ih (n / 16) c lead
    · rw [List.mem_singleton.mp last]
      exact digits _ (Nat.mod_lt n (by decide))

end Text

namespace Json

theorem hexUnit?_hexDigits {unit : Nat} (small : unit < 0x10000) {a b c d : Char}
    (digits : Text.hexDigits 4 unit = [a, b, c, d]) : hexUnit? a b c d = some unit := by
  cases digits
  have whole : (unit / 16 / 16 / 16 % 16 * 16 + unit / 16 / 16 % 16) * 256 +
      (unit / 16 % 16 * 16 + unit % 16) = unit := by omega
  have value (n : Nat) : Text.hexValue? (Text.hexDigit (n % 16)) = some (n % 16) :=
    Text.hexValue?_hexDigit (Nat.mod_lt n (by decide))
  simp only [hexUnit?, value, Option.bind_eq_bind, Option.bind_some, Option.pure_def, whole]

theorem exists_hexDigits (unit : Nat) : ∃ a b c d, Text.hexDigits 4 unit = [a, b, c, d] :=
  ⟨_, _, _, _, rfl⟩

/-- An escape of a unit that is no surrogate stands for one character. -/
theorem parseText?_unicodeEscape {unit : Nat} (plain : unit < 0xd800 ∨ 0xe000 ≤ unit)
    (small : unit < 0x10000) (rest : List Char) :
    parseText? (unicodeEscape unit ++ rest) =
      (parseText? rest).map fun read => (Char.ofNat unit :: read.1, read.2) := by
  obtain ⟨a, b, c, d, digits⟩ := exists_hexDigits unit
  have high : isHighUnit unit = false := by
    simp only [isHighUnit, Bool.and_eq_false_iff, decide_eq_false_iff_not]
    omega
  have low : isLowUnit unit = false := by
    simp only [isLowUnit, Bool.and_eq_false_iff, decide_eq_false_iff_not]
    omega
  simp only [unicodeEscape, digits, List.cons_append, List.nil_append, parseText?,
    hexUnit?_hexDigits small digits, Option.bind_eq_bind, Option.bind_some, high, low,
    Bool.false_eq_true, if_false]
  cases parseText? rest <;> rfl

/-- Two escapes of surrogates stand for one character beyond the basic plane. -/
theorem parseText?_surrogates {high low : Nat} (first : isHighUnit high = true)
    (second : isLowUnit low = true) (rest : List Char) :
    parseText? (unicodeEscape high ++ unicodeEscape low ++ rest) =
      (parseText? rest).map fun read =>
        (Char.ofNat (0x10000 + (high - 0xd800) * 0x400 + (low - 0xdc00)) :: read.1, read.2) := by
  obtain ⟨a, b, c, d, digits⟩ := exists_hexDigits high
  obtain ⟨e, f, g, h, digits'⟩ := exists_hexDigits low
  have small : high < 0x10000 := by
    simp only [isHighUnit, Bool.and_eq_true, decide_eq_true_eq] at first
    omega
  have small' : low < 0x10000 := by
    simp only [isLowUnit, Bool.and_eq_true, decide_eq_true_eq] at second
    omega
  simp only [unicodeEscape, digits, digits', List.cons_append, List.nil_append, parseText?,
    hexUnit?_hexDigits small digits, hexUnit?_hexDigits small' digits', Option.bind_eq_bind,
    Option.bind_some, first, second, if_true]
  cases parseText? rest <;> rfl

theorem parseText?_plain {c : Char} (quote : c ≠ '"') (backslash : c ≠ '\\') (shown : 32 ≤ c.toNat)
    (rest : List Char) :
    parseText? (c :: rest) = (parseText? rest).map fun read => (c :: read.1, read.2) := by
  rw [parseText?.eq_def]
  split
  · next shape => cases shape
  · next shape => exact absurd (List.head_eq_of_cons_eq shape) quote
  · next shape => exact absurd (List.head_eq_of_cons_eq shape) backslash
  · next shape => exact absurd (List.head_eq_of_cons_eq shape) backslash
  · next shape =>
    cases shape
    rw [if_neg (by simp only [backslash, or_false]; omega)]
    cases parseText? rest <;> rfl

theorem parseText?_short {mark c : Char} (unit : mark ≠ 'u') (escape : shortEscape? mark = some c)
    (rest : List Char) :
    parseText? ('\\' :: mark :: rest) = (parseText? rest).map fun read => (c :: read.1, read.2) := by
  rw [parseText?.eq_def]
  split
  · next shape => cases shape
  · next shape => exact absurd (List.head_eq_of_cons_eq shape) (by decide)
  · next shape =>
    simp only [List.cons.injEq, true_and] at shape
    exact absurd shape.1 unit
  · next shape =>
    cases shape
    rw [escape]
    cases parseText? rest <;> rfl
  · next _ _ other shape =>
    cases shape
    exact (other mark rest rfl rfl).elim

def shortlyEscaped : List Char := ['"', '\\', '\n', '\r', '\t', Char.ofNat 8, Char.ofNat 12]

theorem escapeChar_cases (c : Char) :
    (∃ mark, mark ≠ 'u' ∧ Text.isAscii mark = true ∧ shortEscape? mark = some c ∧
      escapeChar c = ['\\', mark]) ∨
    (c ≠ '"' ∧ c ≠ '\\' ∧ 32 ≤ c.toNat ∧ c.toNat < 127 ∧ escapeChar c = [c]) ∨
    (c.toNat < 0x10000 ∧ escapeChar c = unicodeEscape c.toNat) ∨
    (0x10000 ≤ c.toNat ∧ escapeChar c = unicodeEscape (0xd800 + (c.toNat - 0x10000) / 0x400) ++
      unicodeEscape (0xdc00 + (c.toNat - 0x10000) % 0x400)) := by
  by_cases short : c ∈ shortlyEscaped
  · have marks : ∀ d ∈ shortlyEscaped, ∃ mark, mark ≠ 'u' ∧ Text.isAscii mark = true ∧
        shortEscape? mark = some d ∧ escapeChar d = ['\\', mark] := by
      simp only [shortlyEscaped, List.forall_mem_cons]
      exact ⟨⟨'"', by decide, rfl, rfl, rfl⟩, ⟨'\\', by decide, rfl, rfl, rfl⟩,
        ⟨'n', by decide, rfl, rfl, rfl⟩, ⟨'r', by decide, rfl, rfl, rfl⟩, ⟨'t', by decide, rfl, rfl, rfl⟩,
        ⟨'b', by decide, rfl, rfl, rfl⟩, ⟨'f', by decide, rfl, rfl, rfl⟩, List.forall_mem_nil _⟩
    exact Or.inl (marks c short)
  · have self : Char.ofNat c.toNat = c := Char.ofNat_toNat c
    simp only [shortlyEscaped, List.mem_cons, List.not_mem_nil, or_false, not_or] at short
    obtain ⟨quote, backslash, newline, carriage, tab, back, feed⟩ := short
    have back' : c.toNat ≠ 8 := fun code => back (by rw [← self, code])
    have feed' : c.toNat ≠ 12 := fun code => feed (by rw [← self, code])
    simp only [escapeChar, quote, backslash, newline, carriage, tab, back', feed', if_false]
    split_ifs with shown small
    · exact Or.inr (Or.inl ⟨quote, backslash, shown.1, shown.2, rfl⟩)
    · exact Or.inr (Or.inr (Or.inl ⟨small, rfl⟩))
    · exact Or.inr (Or.inr (Or.inr ⟨Nat.le_of_not_lt small, rfl⟩))

/-- A character reads as it is written, whatever follows it. -/
theorem parseText?_escapeChar (c : Char) (rest : List Char) :
    parseText? (escapeChar c ++ rest) = (parseText? rest).map fun read => (c :: read.1, read.2) := by
  have self : Char.ofNat c.toNat = c := Char.ofNat_toNat c
  have valid := Text.Utf8.valid_toNat c
  rcases escapeChar_cases c with ⟨mark, unit, _, escape, shape⟩ | ⟨quote, backslash, shown, _, shape⟩ |
    ⟨small, shape⟩ | ⟨wide, shape⟩
  · rw [shape]
    exact parseText?_short unit escape rest
  · rw [shape]
    exact parseText?_plain quote backslash shown rest
  · rw [shape, parseText?_unicodeEscape (by omega) small, self]
  · have whole : 0x10000 + (0xd800 + (c.toNat - 0x10000) / 0x400 - 0xd800) * 0x400 +
        (0xdc00 + (c.toNat - 0x10000) % 0x400 - 0xdc00) = c.toNat := by omega
    have high : isHighUnit (0xd800 + (c.toNat - 0x10000) / 0x400) = true := by
      simp only [isHighUnit, Bool.and_eq_true, decide_eq_true_eq]
      omega
    have low : isLowUnit (0xdc00 + (c.toNat - 0x10000) % 0x400) = true := by
      simp only [isLowUnit, Bool.and_eq_true, decide_eq_true_eq]
      omega
    rw [shape, parseText?_surrogates high low, whole, self]

/-- A text reads as it is written, up to its closing quote. -/
theorem parseText?_escaped (text rest : List Char) :
    parseText? (text.flatMap escapeChar ++ '"' :: rest) = some (text, rest) := by
  induction text with
  | nil => simp only [List.flatMap_nil, List.nil_append, parseText?]
  | cons c text ih =>
    rw [List.flatMap_cons, List.append_assoc, parseText?_escapeChar, ih]
    rfl

theorem isAscii_unicodeEscape (unit : Nat) : ∀ c ∈ unicodeEscape unit, Text.isAscii c = true := by
  intro c member
  rw [unicodeEscape, List.mem_cons, List.mem_cons] at member
  rcases member with rfl | rfl | digit
  · rfl
  · rfl
  · exact Text.isAscii_hexDigits _ _ c digit

theorem isAscii_escapeChar (c : Char) : ∀ d ∈ escapeChar c, Text.isAscii d = true := by
  intro d member
  rcases escapeChar_cases c with ⟨mark, _, ascii, _, shape⟩ | ⟨_, _, _, shown, shape⟩ | ⟨_, shape⟩ |
    ⟨_, shape⟩
  · rw [shape, List.mem_cons, List.mem_singleton] at member
    rcases member with rfl | rfl
    · rfl
    · exact ascii
  · rw [shape, List.mem_singleton] at member
    rw [member, Text.isAscii, decide_eq_true_eq]
    omega
  · rw [shape] at member
    exact isAscii_unicodeEscape _ d member
  · rw [shape, List.mem_append] at member
    exact member.elim (isAscii_unicodeEscape _ d) (isAscii_unicodeEscape _ d)

theorem isAscii_textChars (text : List Char) : ∀ c ∈ textChars text, Text.isAscii c = true := by
  intro c member
  rw [textChars, List.cons_append, List.mem_cons, List.mem_append, List.mem_singleton] at member
  rcases member with rfl | inside | rfl
  · rfl
  · obtain ⟨d, _, escaped⟩ := List.mem_flatMap.mp inside
    exact isAscii_escapeChar d c escaped
  · rfl

end Json

end JsonApi
