import JsonApi.Json.Parser
import JsonApi.Json.Render
import Mathlib.Data.List.TakeWhile

/-!
Integers as texts: one sign at most and digits, without a zero in front of others. Main statement: the
text of an integer reads as that integer.
-/

namespace JsonApi.Json

theorem toList_toString (i : Int) : (toString i).toList = intChars i := by
  cases i with
  | ofNat n =>
    have positive : ¬Int.ofNat n < 0 := by simp
    rw [intChars, if_neg positive]
    exact String.toList_ofList
  | negSucc n =>
    have negative : Int.negSucc n < 0 := Int.negSucc_lt_zero n
    rw [intChars, if_pos negative]
    change ("-" ++ Nat.repr (n + 1)).toList = _
    rw [String.toList_append]
    exact congrArg _ String.toList_ofList

theorem isDigit_of_mem_digits {n : Nat} {c : Char} (member : c ∈ Nat.toDigits 10 n) :
    c.isDigit = true :=
  Nat.isDigit_of_mem_toDigits (by decide) (by decide) member

theorem natOf_digits (n : Nat) : Numeral.natOf (Nat.toDigits 10 n) = n :=
  Nat.ofDigitChars_toDigits (by decide) (by decide)

theorem head?_digits (n : Nat) : (Nat.toDigits 10 n).head? ≠ some '-' := by
  intro first
  have digit := isDigit_of_mem_digits (List.mem_of_mem_head? first)
  cases digit

theorem eq_zero_of_head?_digits {n : Nat} (first : (Nat.toDigits 10 n).head? = some '0') : n = 0 := by
  induction n using Nat.strongRecOn with
  | ind n ih =>
    by_cases small : n < 10
    · rw [Nat.toDigits_of_lt_base small] at first
      have digits : ∀ m < 10, [Nat.digitChar m].head? = some '0' → m = 0 := by decide
      exact digits n small first
    · rw [Nat.toDigits_of_base_le (by decide) (Nat.le_of_not_lt small)] at first
      obtain ⟨lead, digits, shape⟩ := List.exists_cons_of_ne_nil (Nat.toDigits_ne_nil (n := n / 10) (b := 10))
      have zero := ih (n / 10) (by omega) (by rw [shape] at first ⊢; exact first)
      omega

theorem isWhole_digits (n : Nat) : isWhole (Nat.toDigits 10 n) = true := by
  unfold isWhole
  split
  · next shape => exact absurd shape Nat.toDigits_ne_nil
  · next rest shape =>
    have zero : n = 0 := eq_zero_of_head?_digits (by rw [shape]; rfl)
    subst zero
    cases shape
    rfl
  · exact List.all_eq_true.mpr fun _ member => isDigit_of_mem_digits member

theorem intChars_eq (i : Int) :
    intChars i = (if i < 0 then ['-'] else []) ++ Nat.toDigits 10 i.natAbs := by
  unfold intChars
  split <;> rfl

theorem number?_intChars (i : Int) : number? (intChars i) = some (.int i) := by
  have digits : ∀ c ∈ Nat.toDigits 10 i.natAbs, c.isDigit = true := fun _ => isDigit_of_mem_digits
  have whole := List.takeWhile_eq_self_iff.mpr digits
  have rest := List.dropWhile_eq_nil_iff.mpr digits
  by_cases negative : i < 0
  · have magnitude : -(i.natAbs : Int) = i := by omega
    simp only [number?, intChars, if_pos negative, List.head?_cons, List.tail_cons, whole, rest,
      isWhole_digits, natOf_digits, magnitude, Bool.not_true, Bool.false_eq_true, if_true, if_false]
  · have magnitude : (i.natAbs : Int) = i := by omega
    simp only [number?, intChars, if_neg negative, head?_digits, whole, rest, isWhole_digits,
      natOf_digits, magnitude, Bool.not_true, Bool.false_eq_true, if_true, if_false]

theorem intChars_inj {i j : Int} (same : intChars i = intChars j) : i = j := by
  have numbers := congrArg number? same
  rw [number?_intChars, number?_intChars] at numbers
  cases numbers
  rfl

theorem isNumberChar_of_mem_intChars {i : Int} {c : Char} (member : c ∈ intChars i) :
    isNumberChar c = true := by
  rw [intChars_eq] at member
  rcases List.mem_append.mp member with sign | digit
  · split at sign
    · cases List.mem_singleton.mp sign
      rfl
    · cases sign
  · simp [isNumberChar, isDigit_of_mem_digits digit]

end JsonApi.Json
