import JsonApi.Proofs.Query.Grammar
import JsonApi.Uri.Check

/-!
The characters of references. Main statements: the characters and the escapes of a reference are checked
as RFC 3986 has them, and a text with a separator in it is well formed exactly if both sides are.
-/

namespace JsonApi.Uri

open Query (LetterOrDigit)

variable {text : List Char} {c : Char}

def Unreserved (c : Char) : Prop := LetterOrDigit c ∨ c ∈ ['-', '.', '_', '~']

def generalDelimiters : List Char := [':', '/', '?', '#', '[', ']', '@']

def subDelimiters : List Char := ['!', '$', '&', '\'', '(', ')', '*', '+', ',', ';', '=']

def Reserved (c : Char) : Prop := c ∈ generalDelimiters ∨ c ∈ subDelimiters

def HexDigit (c : Char) : Prop := ('0' ≤ c ∧ c ≤ '9') ∨ ('a' ≤ c ∧ c ≤ 'f') ∨ ('A' ≤ c ∧ c ≤ 'F')

def Escapes (text : List Char) : Prop :=
  ∃ high low rest, text = high :: low :: rest ∧ HexDigit high ∧ HexDigit low

/-- A text of characters that references may hold, each percent sign with two hexadecimal digits behind
it. -/
structure WellFormed (text : List Char) : Prop where
  characters : ∀ c ∈ text, Unreserved c ∨ Reserved c ∨ c = '%'
  escapes : ∀ before after, text = before ++ '%' :: after → Escapes after

theorem isUriChar_iff : isUriChar c = true ↔ Unreserved c ∨ Reserved c ∨ c = '%' := by
  have letter : c.isAlphanum = true ↔ LetterOrDigit c := Query.isTokenEnd_iff
  have marks : isUriChar c = (c.isAlphanum ||
      (['-', '.', '_', '~'] ++ (generalDelimiters ++ (subDelimiters ++ ['%']))).contains c) := rfl
  simp only [marks, Bool.or_eq_true, letter, List.contains_iff_mem, List.mem_append, List.mem_singleton,
    Unreserved, Reserved, or_assoc]

theorem isHexDigit_iff : Text.isHexDigit c = true ↔ HexDigit c := by
  simp only [Text.isHexDigit, Text.hexValue?, HexDigit]
  split_ifs <;> simp_all

theorem startsWithEscape_iff : startsWithEscape text = true ↔ Escapes text := by
  match text with
  | [] => simp [startsWithEscape, Escapes]
  | [_] => simp [startsWithEscape, Escapes]
  | a :: b :: rest =>
    simp only [startsWithEscape, Bool.and_eq_true, isHexDigit_iff, Escapes, List.cons.injEq]
    constructor
    · intro digits
      exact ⟨a, b, rest, ⟨rfl, rfl, rfl⟩, digits⟩
    · rintro ⟨_, _, _, ⟨rfl, rfl, rfl⟩, digits⟩
      exact digits

theorem escapesHold_iff :
    escapesHold text = true ↔ ∀ before after, text = before ++ '%' :: after → Escapes after := by
  induction text with
  | nil => simp [escapesHold]
  | cons c rest ih =>
    simp only [escapesHold, Bool.and_eq_true, Bool.or_eq_true, decide_eq_true_eq, ih,
      startsWithEscape_iff]
    constructor
    · rintro ⟨here, later⟩ before after shape
      cases before with
      | nil =>
        obtain ⟨rfl, rfl⟩ := List.cons.inj shape
        exact here.resolve_left fun other => other rfl
      | cons d before => exact later before after (List.cons.inj shape).2
    · intro holds
      constructor
      · by_cases percent : c = '%'
        · exact Or.inr (holds [] rest (by rw [percent]; rfl))
        · exact Or.inl percent
      · intro before after shape
        exact holds (c :: before) after (by rw [shape]; rfl)

theorem wellFormed_iff : WellFormed text ↔ text.all isUriChar = true ∧ escapesHold text = true := by
  simp only [List.all_eq_true, isUriChar_iff, escapesHold_iff]
  exact ⟨fun formed => ⟨formed.characters, formed.escapes⟩, fun ⟨characters, escapes⟩ =>
    ⟨characters, escapes⟩⟩

instance (text : List Char) : Decidable (WellFormed text) := decidable_of_iff' _ wellFormed_iff

/-- An escape does not reach past a character that is no digit. -/
theorem startsWithEscape_append (plain : Text.isHexDigit c = false) (before after : List Char) :
    startsWithEscape (before ++ c :: after) = startsWithEscape before := by
  match before with
  | [] => cases after <;> simp [startsWithEscape, plain]
  | [_] => simp [startsWithEscape, plain]
  | _ :: _ :: _ => rfl

theorem escapesHold_append (plain : Text.isHexDigit c = false) (bare : c ≠ '%')
    (before after : List Char) :
    escapesHold (before ++ c :: after) = (escapesHold before && escapesHold after) := by
  induction before with
  | nil => simp [escapesHold, bare]
  | cons d before ih =>
    simp only [List.cons_append, escapesHold, startsWithEscape_append plain, ih, Bool.and_assoc]

theorem wellFormed_slash (before after : List Char) :
    WellFormed (before ++ '/' :: after) ↔ WellFormed before ∧ WellFormed after := by
  have slash : isUriChar '/' = true := rfl
  simp only [wellFormed_iff, List.all_append, List.all_cons, slash,
    escapesHold_append (c := '/') rfl (by decide), Bool.and_eq_true, true_and]
  tauto

theorem toNat_of_isUriChar (allowed : isUriChar c = true) : 32 < c.toNat := by
  rcases (Bool.or_eq_true _ _).mp allowed with letter | mark
  · have above {d : Char} (least : d ≤ c) (high : 32 < d.toNat) : 32 < c.toNat :=
      Nat.lt_of_lt_of_le high (UInt32.le_iff_toNat_le.mp least)
    rcases Query.isTokenEnd_iff.mp letter with ⟨least, _⟩ | ⟨least, _⟩ | ⟨least, _⟩
    · exact above least (by decide)
    · exact above least (by decide)
    · exact above least (by decide)
  · have listed := List.contains_iff_mem.mp mark
    refine of_decide_eq_true ((List.all_eq_true (p := fun d => decide (32 < Char.toNat d))).mp ?_ c listed)
    decide

end JsonApi.Uri
