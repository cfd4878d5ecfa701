import JsonApi.Proofs.Sorting.Arrangement
import JsonApi.Proofs.Value.Ordering
import JsonApi.Value.Order
import Mathlib.Algebra.Order.Field.Basic
import Mathlib.Data.Rat.Cast.Order

/-!
Values in a common order. Main statements: texts are, and so are all finite numbers, whatever their types.
-/

namespace JsonApi

namespace Decimal

def toRat : Decimal → ℚ
  | .finite negative coefficient exponent =>
    (if negative then -(coefficient : ℚ) else coefficient) * 10 ^ exponent
  | _ => 0

theorem length_digitsOf_pos (n : Nat) : 0 < (digitsOf n).length := Nat.length_toDigits_pos

theorem lt_pow_length (n : Nat) : n < 10 ^ (digitsOf n).length :=
  (Nat.length_toDigits_le_iff (by decide) (length_digitsOf_pos n)).mp (Nat.le_refl _)

theorem pow_length_le {n : Nat} (nonzero : n ≠ 0) : 10 ^ ((digitsOf n).length - 1) ≤ n := by
  by_contra less
  rw [Nat.not_le] at less
  rcases Nat.eq_zero_or_pos ((digitsOf n).length - 1) with single | several
  · rw [single] at less
    omega
  · have short := (Nat.length_toDigits_le_iff (by decide) several).mpr less
    have positive := length_digitsOf_pos n
    change (digitsOf n).length ≤ _ at short
    omega

/-- A magnitude lies below the power of ten at its leading digit, and not below the one before. -/
theorem magnitude_lt (a : Nat) (p : Int) : (a : ℚ) * 10 ^ p < 10 ^ ((digitsOf a).length + p) := by
  rw [zpow_add₀ (by norm_num), zpow_natCast]
  refine mul_lt_mul_of_pos_right ?_ (zpow_pos (by norm_num) p)
  exact_mod_cast lt_pow_length a

theorem le_magnitude {a : Nat} (nonzero : a ≠ 0) (p : Int) :
    (10 : ℚ) ^ ((digitsOf a).length + p - 1) ≤ a * 10 ^ p := by
  have positive := length_digitsOf_pos a
  have exponent : ((digitsOf a).length : Int) + p - 1 = ((digitsOf a).length - 1 : Nat) + p := by omega
  rw [exponent, zpow_add₀ (by norm_num), zpow_natCast]
  refine mul_le_mul_of_nonneg_right ?_ (zpow_pos (by norm_num) p).le
  exact_mod_cast pow_length_le nonzero

theorem magnitude_lt_of_lead {a b : Nat} {p q : Int} (nonzero : b ≠ 0)
    (leads : (digitsOf a).length + p < (digitsOf b).length + q) :
    (a : ℚ) * 10 ^ p < b * 10 ^ q := by
  calc (a : ℚ) * 10 ^ p < 10 ^ ((digitsOf a).length + p) := magnitude_lt a p
    _ ≤ 10 ^ ((digitsOf b).length + q - 1) := zpow_le_zpow_right₀ (by norm_num) (by omega)
    _ ≤ b * 10 ^ q := le_magnitude nonzero q

/-- Digits are compared at the lower of two exponents. -/
theorem magnitude_aligned (a : Nat) (p q : Int) :
    (a : ℚ) * 10 ^ p = ((a * Nat.pow 10 (p - q).toNat : Nat) : ℚ) * 10 ^ (min p q) := by
  have exponent : p = ((p - q).toNat : Int) + min p q := by omega
  conv_lhs => rw [exponent, zpow_add₀ (by norm_num : (10 : ℚ) ≠ 0), zpow_natCast]
  rw [← mul_assoc, Nat.pow_eq, Nat.cast_mul, Nat.cast_pow, Nat.cast_ofNat]

theorem compare_cast (a b : Nat) : compare (a : ℚ) b = compare a b := by
  rw [← cmp_eq_compare, ← cmp_eq_compare, Nat.strictMono_cast.cmp_map_eq]

/-- Magnitudes are compared by their leading digits first. -/
theorem compareMagnitude_eq (a : Nat) (p : Int) (b : Nat) (q : Int) :
    compareMagnitude a p b q = compare ((a : ℚ) * 10 ^ p) (b * 10 ^ q) := by
  have power (k : Int) : (0 : ℚ) < 10 ^ k := zpow_pos (by norm_num) k
  unfold compareMagnitude
  split
  · next zero =>
    rw [← compare_cast, ← cmp_eq_compare, ← cmp_eq_compare]
    rcases zero with rfl | rfl
    · rw [← cmp_mul_pos_right (power q), Nat.cast_zero, zero_mul, zero_mul]
    · rw [← cmp_mul_pos_right (power p), Nat.cast_zero, zero_mul, zero_mul]
  · next nonzero =>
    obtain ⟨nonzeroA, nonzeroB⟩ := not_or.mp nonzero
    dsimp only
    split
    · next apart =>
      rcases lt_or_gt_of_ne apart with less | greater
      · rw [compare_lt_iff_lt.mpr less, compare_lt_iff_lt.mpr (magnitude_lt_of_lead nonzeroB less)]
      · rw [compare_gt_iff_gt.mpr greater, compare_gt_iff_gt.mpr (magnitude_lt_of_lead nonzeroA greater)]
    · rw [magnitude_aligned a p q, magnitude_aligned b q p, min_comm q p, ← compare_cast, ← cmp_eq_compare,
        ← cmp_eq_compare, cmp_mul_pos_right (power _)]

theorem toRat_finite (negative : Bool) (a : Nat) (p : Int) :
    toRat (.finite negative a p) =
      if negative = true ∧ a ≠ 0 then -((a : ℚ) * 10 ^ p) else a * 10 ^ p := by
  rcases Nat.eq_zero_or_pos a with rfl | positive
  · simp [toRat]
  · cases negative <;> simp [toRat, positive.ne']

theorem compare_neg (x y : ℚ) : compare (-x) (-y) = (compare x y).swap := by
  rw [← cmp_eq_compare, ← cmp_eq_compare, cmp_swap]
  rcases lt_trichotomy y x with less | same | greater
  · rw [less.cmp_eq_lt, (neg_lt_neg less).cmp_eq_lt]
  · rw [same, cmp_self_eq_eq, cmp_self_eq_eq]
  · rw [greater.cmp_eq_gt, (neg_lt_neg greater).cmp_eq_gt]

/-- Finite decimals are compared by their values. -/
theorem compareValue_finite (m : Bool) (a : Nat) (p : Int) (n : Bool) (b : Nat) (q : Int) :
    compareValue (.finite m a p) (.finite n b q) =
      compare (toRat (.finite m a p)) (toRat (.finite n b q)) := by
  have below {c : Nat} (nonzero : c ≠ 0) (k : Int) : -((c : ℚ) * 10 ^ k) < 0 :=
    neg_lt_zero.mpr (mul_pos (Nat.cast_pos.mpr (Nat.pos_of_ne_zero nonzero)) (zpow_pos (by norm_num) k))
  have above (c : Nat) (k : Int) : (0 : ℚ) ≤ c * 10 ^ k :=
    mul_nonneg (Nat.cast_nonneg c) (zpow_pos (by norm_num) k).le
  rw [toRat_finite, toRat_finite, compareValue]
  split
  · next zero => simp [zero.1, zero.2]
  · split
    · next negative =>
      split
      · rw [compareMagnitude_eq, compare_neg]
      · exact (compare_lt_iff_lt.mpr ((below negative.2 p).trans_le (above b q))).symm
    · split
      · next negative => exact (compare_gt_iff_gt.mpr ((below negative.2 q).trans_le (above a p))).symm
      · exact compareMagnitude_eq a p b q

end Decimal

namespace Value

/-- Values that are the same, or come before one another, as an order says. Values that share a place in it
need not be asked which comes first. -/
structure Comparable (le : Value → Value → Bool) (within : Value → Prop) : Prop where
  ranking : Sorting.Ranking le
  same : ∀ {v w}, within v → within w → v.same w = .ok (Sorting.tied le v w)
  less : ∀ {v w}, within v → within w → Sorting.tied le v w = false → v.less w = .ok (!le w v)

variable {within : Value → Prop}

theorem Comparable.mono {le : Value → Value → Bool} {fewer : Value → Prop}
    (comparable : Comparable le within) (inside : ∀ v, fewer v → within v) : Comparable le fewer where
  ranking := comparable.ranking
  same := fun here there => comparable.same (inside _ here) (inside _ there)
  less := fun here there => comparable.less (inside _ here) (inside _ there)

def rankLe {β : Type} [LinearOrder β] (rank : Value → β) (v w : Value) : Bool := decide (rank v ≤ rank w)

theorem comparable_of_rank {β : Type} [LinearOrder β] {rank : Value → β}
    (same : ∀ {v w}, within v → within w → v.same w = .ok (decide (rank v = rank w)))
    (less : ∀ {v w}, within v → within w → v.less w = .ok (decide (rank v < rank w))) :
    Comparable (rankLe rank) within where
  ranking := by
    refine ⟨fun v w => ?_, fun {u v w} first second => ?_⟩
    · simp only [rankLe, decide_eq_true_eq]
      exact le_total _ _
    · simp only [rankLe, decide_eq_true_eq] at first second ⊢
      exact first.trans second
  same := fun {v w} here there => by
    rw [same here there, Sorting.tied, rankLe, rankLe, ← Bool.decide_and]
    exact congrArg Except.ok (decide_eq_decide.mpr le_antisymm_iff)
  less := fun {v w} here there _ => by
    rw [less here there, rankLe, ← decide_not]
    exact congrArg Except.ok (decide_eq_decide.mpr not_le.symm)

theorem comparable_texts : Comparable (rankLe keyText) fun v => ∃ s, v = .text s := by
  refine comparable_of_rank ?_ ?_
  · rintro _ _ ⟨s, rfl⟩ ⟨s', rfl⟩
    simp only [same, samePlain, keyText]
    exact congrArg Except.ok (beq_eq_decide s s')
  · rintro _ _ ⟨s, rfl⟩ ⟨s', rfl⟩
    simp only [less, lessText_eq, keyText, ← decide_not]
    exact congrArg Except.ok (decide_eq_decide.mpr not_le)

def numberRank (v : Value) : ℚ := (v.number?.map Decimal.toRat).getD 0

def IsFinite (v : Value) : Prop := ∃ negative coefficient exponent,
  v.number? = some (.finite negative coefficient exponent)

theorem same_of_number? {v w : Value} {m n : Decimal} (number : v.number? = some m)
    (number' : w.number? = some n) : v.same w = sameNumber m n := by
  cases v <;> cases number <;> cases w <;> cases number' <;> simp only [same, samePlain, number?]

theorem less_of_number? {v w : Value} {m n : Decimal} (number : v.number? = some m)
    (number' : w.number? = some n) : v.less w = lessNumber v w m n := by
  cases v <;> cases number <;> cases w <;> cases number' <;> simp only [less, number?]

/-- Finite numbers have a common order: that of their values, whatever their types. -/
theorem comparable_numbers : Comparable (rankLe numberRank) IsFinite := by
  have compared {v w : Value} {m n : Bool} {a b : Nat} {p q : Int}
      (number : v.number? = some (.finite m a p)) (number' : w.number? = some (.finite n b q)) :
      (Decimal.finite m a p).compareValue (.finite n b q) = compare (numberRank v) (numberRank w) := by
    rw [numberRank, numberRank, number, number']
    exact Decimal.compareValue_finite m a p n b q
  refine comparable_of_rank ?_ ?_
  · rintro v w ⟨m, a, p, number⟩ ⟨n, b, q, number'⟩
    rw [same_of_number? number number']
    show Except.ok ((Decimal.finite m a p).compareValue (.finite n b q) == .eq) = _
    rw [compared number number', beq_eq_decide]
    exact congrArg Except.ok (decide_eq_decide.mpr compare_eq_iff_eq)
  · rintro v w ⟨m, a, p, number⟩ ⟨n, b, q, number'⟩
    rw [less_of_number? number number']
    show Except.ok ((Decimal.finite m a p).compareValue (.finite n b q) == .lt) = _
    rw [compared number number', beq_eq_decide]
    exact congrArg Except.ok (decide_eq_decide.mpr compare_lt_iff_lt)

end Value

end JsonApi
