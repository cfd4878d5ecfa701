import JsonApi.Text.Blank
import Mathlib.Data.List.TakeWhile
import Mathlib.Data.Nat.Digits.Defs

/-!
Whole numbers as texts. Main statement: a text is read as the number that the grammar of whole numbers derives
from it, and as nothing if the grammar derives none.
-/

namespace JsonApi.Text

/-- Digits with their values; a low line may stand between two of them. -/
inductive Digits (digit? : Char → Option Nat) : List Char → List Nat → Prop where
  | one {c : Char} {digit : Nat} (value : digit? c = some digit) : Digits digit? [c] [digit]
  | next {c : Char} {digit : Nat} {rest : List Char} {digits : List Nat} (value : digit? c = some digit)
    (more : Digits digit? rest digits) : Digits digit? (c :: rest) (digit :: digits)
  | apart {c : Char} {digit : Nat} {rest : List Char} {digits : List Nat} (value : digit? c = some digit)
    (more : Digits digit? rest digits) : Digits digit? (c :: '_' :: rest) (digit :: digits)

inductive Sign : List Char → Int → Prop where
  | absent : Sign [] 1
  | plus : Sign ['+'] 1
  | minus : Sign ['-'] (-1)

/-- A whole number: a sign and decimal digits of any script, not too many, with blanks at both ends. -/
inductive Whole : List Char → Int → Prop where
  | number {before sign digits after : List Char} {unit : Int} {values : List Nat}
    (blank : ∀ c ∈ before, isBlank c = true) (blank' : ∀ c ∈ after, isBlank c = true)
    (signed : Sign sign unit) (written : Digits digitValue? digits values)
    (short : values.length ≤ digitLimit) :
    Whole (before ++ (sign ++ digits) ++ after) (unit * (Nat.ofDigits 10 values.reverse : Nat))

section Digits

variable {digit? : Char → Option Nat} {c : Char} {digit : Nat} {text rest : List Char} {digits : List Nat}

theorem ne_low_line (low : digit? '_' = none) (value : digit? c = some digit) : c ≠ '_' := by
  rintro rfl
  rw [low] at value
  cases value

theorem digitRun?_cons (other : c ≠ '_') :
    digitRun? digit? (c :: rest) = do return (← digit? c) :: (← digitRun? digit? rest) := by
  rw [digitRun?]
  rintro _ _ rfl
  exact absurd rfl other

theorem digitRun?_low_line (other : c ≠ '_') :
    digitRun? digit? ('_' :: c :: rest) = digitRun? digit? (c :: rest) := by
  rw [digitRun?_cons other, digitRun?]

theorem digitRun?_of_digits (low : digit? '_' = none) (written : Digits digit? text digits) :
    digitRun? digit? text = some digits := by
  induction written with
  | one value => rw [digitRun?_cons (ne_low_line low value), value, digitRun?]; rfl
  | next value _ ih => rw [digitRun?_cons (ne_low_line low value), value, ih]; rfl
  | @apart _ _ rest _ value more ih =>
    have behind : digitRun? digit? ('_' :: rest) = digitRun? digit? rest := by
      cases more with
      | one value | next value | apart value => exact digitRun?_low_line (ne_low_line low value)
    rw [digitRun?_cons (ne_low_line low value), value, behind, ih]
    rfl

theorem exists_of_step {digit : Option Nat} {more : Option (List Nat)}
    (read : (do return (← digit) :: (← more)) = some digits) :
    ∃ d, digit = some d ∧ ∃ ds, more = some ds ∧ d :: ds = digits := by
  simpa only [Option.bind_eq_bind, Option.bind_eq_some_iff, Option.pure_def, Option.some.injEq] using read

theorem digits_of_digitRun? (read : digitRun? digit? text = some digits) :
    (text = [] ∧ digits = []) ∨ Digits digit? text digits ∨
      ∃ rest, text = '_' :: rest ∧ Digits digit? rest digits := by
  -- A digit may stand in front of all that is read.
  have extend {c : Char} {digit : Nat} {rest : List Char} {digits : List Nat} (value : digit? c = some digit)
      (read : (rest = [] ∧ digits = []) ∨ Digits digit? rest digits ∨
        ∃ more, rest = '_' :: more ∧ Digits digit? more digits) :
      Digits digit? (c :: rest) (digit :: digits) := by
    rcases read with ⟨rfl, rfl⟩ | written | ⟨more, rfl, written⟩
    · exact .one value
    · exact .next value written
    · exact .apart value written
  induction text using digitRun?.induct generalizing digits with
  | case1 =>
    rw [digitRun?] at read
    cases read
    exact Or.inl ⟨rfl, rfl⟩
  | case2 c rest ih =>
    rw [digitRun?] at read
    obtain ⟨digit, value, more, behind, rfl⟩ := exists_of_step read
    exact Or.inr (Or.inr ⟨c :: rest, rfl, extend value (ih behind)⟩)
  | case3 c rest other ih =>
    rw [digitRun?] at read
    · obtain ⟨digit, value, more, behind, rfl⟩ := exists_of_step read
      exact Or.inr (Or.inl (extend value (ih behind)))
    · exact other

theorem digits?_eq_some_iff (low : digit? '_' = none) :
    digits? digit? text = some digits ↔ Digits digit? text digits := by
  constructor
  · intro read
    unfold digits? at read
    split at read
    · cases read
    · cases read
    · next some other =>
      rcases digits_of_digitRun? read with ⟨rfl, -⟩ | written | ⟨rest, rfl, -⟩
      · exact absurd rfl some
      · exact written
      · exact absurd rfl (other rest)
  · intro written
    have read := digitRun?_of_digits low written
    cases written with
    | one value | next value | apart value =>
      rw [digits?]
      · exact read
      · simp
      · rintro _ ⟨⟩
        exact ne_low_line low value rfl

theorem Digits.digit_or_low_line (written : Digits digit? text digits) :
    ∀ c ∈ text, c = '_' ∨ ∃ digit, digit? c = some digit := by
  induction written with
  | one value => exact List.forall_mem_singleton.mpr (Or.inr ⟨_, value⟩)
  | next value _ ih => exact List.forall_mem_cons.mpr ⟨Or.inr ⟨_, value⟩, ih⟩
  | apart value _ ih =>
    exact List.forall_mem_cons.mpr ⟨Or.inr ⟨_, value⟩, List.forall_mem_cons.mpr ⟨Or.inl rfl, ih⟩⟩

theorem Digits.exists_cons (written : Digits digit? text digits) :
    ∃ c rest digit, text = c :: rest ∧ digit? c = some digit := by
  cases written with
  | one value | next value | apart value => exact ⟨_, _, _, rfl, value⟩

theorem natOfDigits_eq (digits : List Nat) : natOfDigits 10 digits = Nat.ofDigits 10 digits.reverse := by
  rw [natOfDigits, Nat.ofDigits_eq_foldr, List.foldr_reverse]
  congr 1
  funext n digit
  exact Nat.add_comm _ _

end Digits

section Blanks

variable {before core after text : List Char}

theorem trimBlanks_append (blank : ∀ c ∈ before, isBlank c = true)
    (blank' : ∀ c ∈ after, isBlank c = true) (other : ∀ c ∈ core, isBlank c = false) :
    trimBlanks (before ++ core ++ after) = core := by
  have kept {text : List Char} (other : ∀ c ∈ text, isBlank c = false) : text.dropWhile isBlank = text := by
    cases text with
    | nil => rfl
    | cons c rest => exact List.dropWhile_cons_of_neg (by simp [other c List.mem_cons_self])
  cases core with
  | nil =>
    have all : ∀ c ∈ before ++ [] ++ after, isBlank c = true := by
      rw [List.append_nil]
      exact List.forall_mem_append.mpr ⟨blank, blank'⟩
    rw [trimBlanks, List.dropWhile_eq_nil_iff.mpr all]
    rfl
  | cons c rest =>
    have stays : isBlank c = false := other c List.mem_cons_self
    rw [trimBlanks, List.append_assoc, List.dropWhile_append_of_pos blank, List.cons_append,
      List.dropWhile_cons_of_neg (by simp [stays]), ← List.cons_append, List.reverse_append,
      List.dropWhile_append_of_pos fun c member => blank' c (List.mem_reverse.mp member),
      kept fun c member => other c (List.mem_reverse.mp member), List.reverse_reverse]

theorem exists_append_trimBlanks (text : List Char) :
    ∃ before after, text = before ++ trimBlanks text ++ after ∧
      (∀ c ∈ before, isBlank c = true) ∧ ∀ c ∈ after, isBlank c = true := by
  refine ⟨text.takeWhile isBlank, ((text.dropWhile isBlank).reverse.takeWhile isBlank).reverse, ?_,
    fun c => List.mem_takeWhile_imp, fun c member => List.mem_takeWhile_imp (List.mem_reverse.mp member)⟩
  rw [trimBlanks, List.append_assoc, ← List.reverse_append, List.takeWhile_append_dropWhile,
    List.reverse_reverse, List.takeWhile_append_dropWhile]

theorem exists_of_digitValue? {c : Char} {digit : Nat} (value : digitValue? c = some digit) :
    ∃ first ∈ digitZeros, ∃ more < 10, c.toNat = first + more := by
  obtain ⟨first, found, -⟩ := Option.map_eq_some_iff.mp value
  have near := List.find?_some found
  simp only [Bool.and_eq_true, decide_eq_true_eq] at near
  exact ⟨first, List.mem_of_find?_eq_some found, c.toNat - first, by omega, by omega⟩

theorem isBlank_of_digit {c : Char} {digit : Nat} (value : digitValue? c = some digit) :
    isBlank c = false := by
  obtain ⟨first, member, more, small, shape⟩ := exists_of_digitValue? value
  have apart : ∀ first ∈ digitZeros, first = 48 ∨ 0x660 ≤ first ∧ first + 10 ≤ 0x1680 ∨
      0x1680 < first ∧ first + 10 ≤ 0x2000 ∨ 0x3000 < first := by decide
  have places := apart first member
  simp only [isBlank, shape, Bool.or_eq_false_iff, Bool.and_eq_false_iff,
    decide_eq_false_iff_not, beq_eq_false_iff_ne]
  omega

theorem isBlank_of_sign {sign : List Char} {unit : Int} (signed : Sign sign unit) :
    ∀ c ∈ sign, isBlank c = false := by
  cases signed with
  | absent => exact List.forall_mem_nil _
  | plus | minus => exact List.forall_mem_singleton.mpr (by decide)

end Blanks

def natural? (text : List Char) : Option Nat := do
  let digits ← digits? digitValue? text
  if digits.length ≤ digitLimit then return natOfDigits 10 digits else none

theorem natural?_eq_some_iff {text : List Char} {n : Nat} : natural? text = some n ↔ ∃ values,
    Digits digitValue? text values ∧ values.length ≤ digitLimit ∧ n = Nat.ofDigits 10 values.reverse := by
  have low : digitValue? '_' = none := by decide
  rw [natural?, Option.bind_eq_bind, Option.bind_eq_some_iff]
  refine exists_congr fun values => and_congr (digits?_eq_some_iff low) ?_
  rw [← natOfDigits_eq]
  split
  · next short => simp [short, eq_comm]
  · next long => simp [long]

def signed : List Char → Int × List Char
  | '-' :: rest => (-1, rest)
  | '+' :: rest => (1, rest)
  | text => (1, text)

theorem signed_of_digit {c : Char} {rest : List Char} {digit : Nat} (value : digitValue? c = some digit) :
    signed (c :: rest) = (1, c :: rest) := by
  rw [signed]
  all_goals
    rintro _ ⟨⟩
    cases value

theorem readInteger?_eq (text : List Char) : readInteger? text =
    (natural? (signed (trimBlanks text)).2).map fun n : Nat => (signed (trimBlanks text)).1 * n := by
  have magnitude (negative : Bool) (digits : List Char) : (do
      let digits ← digits? digitValue? digits
      if digits.length ≤ digitLimit then
        let magnitude := (natOfDigits 10 digits : Int)
        return if negative then -magnitude else magnitude
      else none) = (natural? digits).map fun n : Nat => (if negative then -1 else 1) * (n : Int) := by
    unfold natural?
    cases digits? digitValue? digits with
    | none => rfl
    | some digits =>
      by_cases short : digits.length ≤ digitLimit <;> cases negative <;> simp [short]
  unfold readInteger? signed
  generalize trimBlanks text = core
  rcases core with - | ⟨c, rest⟩
  · exact magnitude false []
  · by_cases minus : c = '-'
    · subst minus
      exact magnitude true rest
    · by_cases plus : c = '+'
      · subst plus
        exact magnitude false rest
      · simpa [minus, plus] using magnitude false (c :: rest)

theorem readInteger?_of_whole {text : List Char} {i : Int} (written : Whole text i) :
    readInteger? text = some i := by
  obtain @⟨before, sign, digits, after, unit, values, blank, blank', written, counted, short⟩ := written
  obtain ⟨c, rest, digit, shape, value⟩ := counted.exists_cons
  have inside : ∀ c ∈ sign ++ digits, isBlank c = false := by
    refine List.forall_mem_append.mpr ⟨isBlank_of_sign written, fun c member => ?_⟩
    rcases counted.digit_or_low_line c member with rfl | ⟨digit, value⟩
    · rfl
    · exact isBlank_of_digit value
  have apart : signed (sign ++ digits) = (unit, digits) := by
    cases written with
    | absent =>
      rw [List.nil_append, shape]
      exact signed_of_digit value
    | plus | minus => rfl
  rw [readInteger?_eq, trimBlanks_append blank blank' inside, apart,
    natural?_eq_some_iff.mpr ⟨values, counted, short, rfl⟩]
  rfl

theorem whole_of_readInteger? {text : List Char} {i : Int} (read : readInteger? text = some i) :
    Whole text i := by
  obtain ⟨before, after, shape, blank, blank'⟩ := exists_append_trimBlanks text
  have sign : ∃ sign, Sign sign (signed (trimBlanks text)).1 ∧
      trimBlanks text = sign ++ (signed (trimBlanks text)).2 := by
    unfold signed
    split
    · next core => exact ⟨_, .minus, core⟩
    · next core => exact ⟨_, .plus, core⟩
    · exact ⟨_, .absent, rfl⟩
  obtain ⟨sign, written, core⟩ := sign
  rw [readInteger?_eq] at read
  obtain ⟨n, magnitude, rfl⟩ := Option.map_eq_some_iff.mp read
  obtain ⟨values, counted, short, rfl⟩ := natural?_eq_some_iff.mp magnitude
  have whole := Whole.number blank blank' written counted short
  rwa [← core, ← shape] at whole

/-- A text is read as a whole number exactly if it is one. -/
theorem readInteger?_eq_some_iff {text : List Char} {i : Int} : readInteger? text = some i ↔ Whole text i :=
  ⟨whole_of_readInteger?, readInteger?_of_whole⟩

end JsonApi.Text
