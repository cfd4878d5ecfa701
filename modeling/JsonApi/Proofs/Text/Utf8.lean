import JsonApi.Text.Utf8
import Mathlib.Tactic.SplitIfs

/-!
Writing and reading UTF-8. Main statement: the bytes of a text read as that text.
-/

namespace JsonApi.Text.Utf8

theorem toNat_ofNat_of_lt {n : Nat} (small : n < 256) : (UInt8.ofNat n).toNat = n := by
  rw [UInt8.toNat_ofNat', Nat.mod_eq_of_lt small]

theorem width_ofNat {n : Nat} (small : n < 256) :
    width (.ofNat n) = if n < 0x80 then 1 else if n < 0xc2 then 0 else if n < 0xe0 then 2
      else if n < 0xf0 then 3 else if n < 0xf5 then 4 else 0 := by
  simp only [width, UInt8.lt_iff_toNat_lt, toNat_ofNat_of_lt small]
  rfl

theorem isTail_ofNat {n : Nat} (small : n < 256) (low : 0x80 ≤ n) (high : n ≤ 0xbf) :
    isTail (.ofNat n) = true := by
  simp only [isTail, UInt8.le_iff_toNat_le, toNat_ofNat_of_lt small, Bool.and_eq_true,
    decide_eq_true_eq]
  exact ⟨low, high⟩

theorem followsFirst_ofNat {m n : Nat} (small : m < 256) (small' : n < 256) (low : 0x80 ≤ n)
    (high : n ≤ 0xbf) (overlong : m = 0xe0 → 0xa0 ≤ n) (surrogate : m = 0xed → n ≤ 0x9f)
    (overlong' : m = 0xf0 → 0x90 ≤ n) (last : m = 0xf4 → n ≤ 0x8f) :
    followsFirst (.ofNat m) (.ofNat n) = true := by
  have first (k : Nat) (byte : k < 256) : UInt8.ofNat m = UInt8.ofNat k ↔ m = k := by
    rw [← UInt8.toNat_inj, toNat_ofNat_of_lt small, toNat_ofNat_of_lt byte]
  have starts : (UInt8.ofNat m = 0xe0 ↔ m = 0xe0) ∧ (UInt8.ofNat m = 0xed ↔ m = 0xed) ∧
      (UInt8.ofNat m = 0xf0 ↔ m = 0xf0) ∧ (UInt8.ofNat m = 0xf4 ↔ m = 0xf4) :=
    ⟨first _ (by decide), first _ (by decide), first _ (by decide), first _ (by decide)⟩
  have literals : (0x80 : UInt8).toNat = 0x80 ∧ (0xa0 : UInt8).toNat = 0xa0 ∧
      (0x90 : UInt8).toNat = 0x90 ∧ (0xbf : UInt8).toNat = 0xbf ∧ (0x9f : UInt8).toNat = 0x9f ∧
      (0x8f : UInt8).toNat = 0x8f := by decide
  simp only [followsFirst, starts, Bool.and_eq_true, decide_eq_true_eq, UInt8.le_iff_toNat_le,
    toNat_ofNat_of_lt small']
  constructor <;> split <;> (try split) <;> omega

theorem scan_one {a : UInt8} (wide : width a = 1) (rest : List UInt8) :
    scan (a :: rest) = some (Char.ofNat a.toNat) :: scan rest := by
  rw [scan.eq_def]
  simp only [wide, if_true]

theorem scan_two {a b : UInt8} (wide : width a = 2) (follows : followsFirst a b = true)
    (rest : List UInt8) : scan (a :: b :: rest) = some (join2 a b) :: scan rest := by
  rw [scan.eq_def]
  simp only [wide, follows, if_true, Nat.reduceEqDiff, if_false]

theorem scan_three {a b c : UInt8} (wide : width a = 3) (follows : followsFirst a b = true)
    (tail : isTail c = true) (rest : List UInt8) :
    scan (a :: b :: c :: rest) = some (join3 a b c) :: scan rest := by
  rw [scan.eq_def]
  simp only [wide, follows, tail, if_true, Nat.reduceEqDiff, if_false]

theorem scan_four {a b c d : UInt8} (wide : width a = 4) (follows : followsFirst a b = true)
    (tail : isTail c = true) (tail' : isTail d = true) (rest : List UInt8) :
    scan (a :: b :: c :: d :: rest) = some (join4 a b c d) :: scan rest := by
  rw [scan.eq_def]
  simp only [wide, follows, tail, tail', if_true, Nat.reduceEqDiff, if_false]

theorem valid_toNat (c : Char) : c.toNat < 0xd800 ∨ 0xdfff < c.toNat ∧ c.toNat < 0x110000 := c.valid

/-- A character is read back from its bytes, whatever follows them. -/
theorem scan_encodeChar (c : Char) (rest : List UInt8) :
    scan (String.utf8EncodeChar c ++ rest) = some c :: scan rest := by
  have valid := valid_toNat c
  have self : Char.ofNat c.toNat = c := Char.ofNat_toNat c
  have point : c.val.toNat = c.toNat := rfl
  simp only [String.utf8EncodeChar, point]
  generalize c.toNat = v at valid self
  split
  · rw [List.singleton_append, scan_one, toNat_ofNat_of_lt (by omega), self]
    rw [width_ofNat (by omega), if_pos (by omega)]
  split
  · rw [List.cons_append, List.singleton_append, scan_two, join2, toNat_ofNat_of_lt (by omega),
      toNat_ofNat_of_lt (by omega)]
    · have whole : (v / 64 % 32 + 192 - 0xc0) * 0x40 + (v % 64 + 128 - 0x80) = v := by omega
      rw [whole, self]
    · rw [width_ofNat (by omega)]
      split_ifs <;> omega
    · apply followsFirst_ofNat <;> omega
  split
  · rw [List.cons_append, List.cons_append, List.singleton_append, scan_three, join3,
      toNat_ofNat_of_lt (by omega), toNat_ofNat_of_lt (by omega), toNat_ofNat_of_lt (by omega)]
    · have whole : ((v / 4096 % 16 + 224 - 0xe0) * 0x40 + (v / 64 % 64 + 128 - 0x80)) * 0x40 +
          (v % 64 + 128 - 0x80) = v := by omega
      rw [whole, self]
    · rw [width_ofNat (by omega)]
      split_ifs <;> omega
    · apply followsFirst_ofNat <;> omega
    · apply isTail_ofNat <;> omega
  · rw [List.cons_append, List.cons_append, List.cons_append, List.singleton_append, scan_four, join4,
      toNat_ofNat_of_lt (by omega), toNat_ofNat_of_lt (by omega), toNat_ofNat_of_lt (by omega),
      toNat_ofNat_of_lt (by omega)]
    · have whole : (((v / 262144 % 8 + 240 - 0xf0) * 0x40 + (v / 4096 % 64 + 128 - 0x80)) * 0x40 +
          (v / 64 % 64 + 128 - 0x80)) * 0x40 + (v % 64 + 128 - 0x80) = v := by omega
      rw [whole, self]
    · rw [width_ofNat (by omega)]
      split_ifs <;> omega
    · apply followsFirst_ofNat <;> omega
    · apply isTail_ofNat <;> omega
    · apply isTail_ofNat <;> omega

theorem scan_encode (text : List Char) : scan (encode text) = text.map some := by
  induction text with
  | nil => rfl
  | cons c rest ih =>
    have first := scan_encodeChar c (encode rest)
    rw [ih] at first
    exact first

theorem decodeLossy_encode (text : List Char) : decodeLossy (encode text) = text := by
  rw [decodeLossy, scan_encode, List.map_map]
  exact List.map_id text

end JsonApi.Text.Utf8
