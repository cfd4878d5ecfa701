import JsonApi.Proofs.Text.Utf8
import JsonApi.Text.Percent

/-!
Writing and reading form data. Main statements: what is written of a text reads as that text, and holds
none of the characters that separate the components of form data.
-/

namespace JsonApi.Text

theorem hexValue?_hexDigit {n : Nat} (small : n < 16) : hexValue? (hexDigit n) = some n := by
  have digits : ∀ m < 16, hexValue? (hexDigit m) = some m := by decide
  exact digits n small

theorem toNat_ofNat {n : Nat} (valid : n.isValidChar) : (Char.ofNat n).toNat = n := by
  rw [Char.ofNat, dif_pos valid]
  rfl

theorem escapeByte_cases (byte : UInt8) :
    ((Char.ofNat byte.toNat).isAlphanum = true ∧ escapeByte byte = [Char.ofNat byte.toNat]) ∨
      escapeByte byte = ['%', hexDigit (byte.toNat / 16), hexDigit (byte.toNat % 16)] := by
  by_cases plain : (Char.ofNat byte.toNat).isAlphanum = true
  · exact Or.inl ⟨plain, if_pos plain⟩
  · exact Or.inr (if_neg plain)

def isWritten (c : Char) : Bool := c.isAlphanum || c = '%'

theorem isWritten_escapeByte (byte : UInt8) : ∀ c ∈ escapeByte byte, isWritten c = true := by
  have digits : ∀ n < 16, isWritten (hexDigit n) = true := by decide
  have small : byte.toNat < 256 := byte.toNat_lt
  intro c member
  rcases escapeByte_cases byte with ⟨plain, shape⟩ | shape
  · rw [shape, List.mem_singleton] at member
    rw [member]
    simp [isWritten, plain]
  · rw [shape] at member
    simp only [List.mem_cons, List.not_mem_nil, or_false] at member
    rcases member with rfl | rfl | rfl
    · rfl
    · exact digits _ (by omega)
    · exact digits _ (by omega)

theorem isWritten_encodeForm (text : List Char) : ∀ c ∈ encodeForm text, isWritten c = true := by
  intro c member
  obtain ⟨byte, _, inside⟩ := List.mem_flatMap.mp member
  exact isWritten_escapeByte byte c inside

theorem not_mem_encodeForm {c : Char} (apart : isWritten c = false) (text : List Char) :
    c ∉ encodeForm text := by
  intro member
  rw [isWritten_encodeForm text c member] at apart
  cases apart

theorem isAscii_of_isAlphanum {c : Char} (plain : c.isAlphanum = true) : isAscii c = true := by
  have below {last : UInt32} (small : last.toNat < 128) (upTo : c.val ≤ last) : isAscii c = true :=
    decide_eq_true (Nat.lt_of_le_of_lt (UInt32.le_iff_toNat_le.mp upTo) small)
  rcases (Bool.or_eq_true _ _).mp plain with letter | digit
  · rcases (Bool.or_eq_true _ _).mp letter with upper | lower
    · have range : 'A'.val ≤ c.val ∧ c.val ≤ 'Z'.val := of_decide_eq_true upper
      exact below (by decide) range.2
    · have range := (Bool.and_eq_true _ _).mp lower
      exact below (by decide) (of_decide_eq_true range.2)
  · have range := (Bool.and_eq_true _ _).mp digit
    exact below (by decide) (of_decide_eq_true range.2)

theorem isAscii_of_isWritten {c : Char} (written : isWritten c = true) : isAscii c = true := by
  rcases (Bool.or_eq_true _ _).mp written with plain | percent
  · exact isAscii_of_isAlphanum plain
  · cases of_decide_eq_true percent
    rfl

theorem escapedBytes_cons {c : Char} (plain : c ≠ '%') (rest : List Char) :
    escapedBytes (c :: rest) = UInt8.ofNat c.toNat :: escapedBytes rest :=
  escapedBytes.eq_3 c rest fun _ _ _ percent => absurd percent plain

/-- A byte is read back from its characters, whatever follows them. -/
theorem escapedBytes_escapeByte (byte : UInt8) (rest : List Char) :
    escapedBytes (escapeByte byte ++ rest) = byte :: escapedBytes rest := by
  have small : byte.toNat < 256 := byte.toNat_lt
  rcases escapeByte_cases byte with ⟨plain, shape⟩ | shape
  · have point : (Char.ofNat byte.toNat).toNat = byte.toNat := toNat_ofNat (Or.inl (by omega))
    rw [shape, List.singleton_append, escapedBytes_cons, point, UInt8.ofNat_toNat]
    intro percent
    rw [percent] at plain
    cases plain
  · have whole : 16 * (byte.toNat / 16) + byte.toNat % 16 = byte.toNat := by omega
    simp only [shape, List.cons_append, List.nil_append, escapedBytes,
      hexValue?_hexDigit (show byte.toNat / 16 < 16 by omega),
      hexValue?_hexDigit (show byte.toNat % 16 < 16 by omega), whole, UInt8.ofNat_toNat]

theorem escapedBytes_flatMap (bytes : List UInt8) : escapedBytes (bytes.flatMap escapeByte) = bytes := by
  induction bytes with
  | nil => rfl
  | cons byte rest ih => rw [List.flatMap_cons, escapedBytes_escapeByte, ih]

theorem asciiRuns_of_ascii {text : List Char} (nonempty : text ≠ []) (ascii : ∀ c ∈ text, isAscii c = true) :
    asciiRuns text = [text] := by
  induction text with
  | nil => exact absurd rfl nonempty
  | cons c rest ih =>
    cases rest with
    | nil => rfl
    | cons next rest =>
      have run := ih (List.cons_ne_nil next rest) fun d member => ascii d (List.mem_cons_of_mem c member)
      have alike : isAscii c = isAscii next := by rw [ascii c (by simp), ascii next (by simp)]
      rw [asciiRuns, run]
      exact if_pos alike

theorem decodeRuns_of_ascii {text : List Char} (ascii : ∀ c ∈ text, isAscii c = true) :
    (asciiRuns text).flatMap decodeRun = Utf8.decodeLossy (escapedBytes text) := by
  by_cases empty : text = []
  · subst empty
    rfl
  · rw [asciiRuns_of_ascii empty ascii, List.flatMap_singleton, decodeRun,
      if_pos (List.all_eq_true.mpr ascii)]

/-- What is written of a text reads as that text. -/
theorem decodeForm_encodeForm (text : List Char) : decodeForm (encodeForm text) = text := by
  have same : (encodeForm text).map (fun c => if c = '+' then ' ' else c) = encodeForm text := by
    rw [List.map_congr_left (g := id), List.map_id]
    intro c member
    refine if_neg ?_
    rintro rfl
    exact not_mem_encodeForm rfl text member
  rw [decodeForm, same, decodeRuns_of_ascii, encodeForm, escapedBytes_flatMap, Utf8.decodeLossy_encode]
  exact fun c member => isAscii_of_isWritten (isWritten_encodeForm text c member)

end JsonApi.Text
