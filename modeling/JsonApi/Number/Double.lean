import JsonApi.Number.Decimal

/-!
Binary numbers of double precision, as exact values `m · 2 ^ e` with the signs of zero, the two
infinities and one undefined value. A ratio is rounded to the nearest of them, a tie to the even
significand.
-/

namespace JsonApi

inductive Double where
  | finite (negative : Bool) (significand : Nat) (exponent : Int)
  | infinite (negative : Bool)
  | undefined
deriving DecidableEq, Repr, Inhabited

namespace Double

def minExponent : Int := -1074
def maxExponent : Int := 971

def zero (negative : Bool) : Double := .finite negative 0 minExponent

def scaled (num den : Nat) (e : Int) : Nat × Nat :=
  (num * Nat.pow 2 (-e).toNat, den * Nat.pow 2 e.toNat)

/-- The nearest whole number to a ratio, the even one of two. -/
def roundRatio (num den : Nat) : Nat :=
  let floor := num / den
  let rest := num % den
  if den < 2 * rest ∨ (2 * rest = den ∧ floor % 2 = 1) then floor + 1 else floor

/-- The exponent at which the significand of a positive ratio has 53 binary digits, no less than the
least one. -/
def exponentOf (num den : Nat) : Int :=
  let guess := max ((num.log2 : Int) - den.log2 - 53) minExponent
  let (n, d) := scaled num den guess
  if Nat.pow 2 53 ≤ n / d then guess + 1 else guess

def ofRatio (negative : Bool) (num den : Nat) : Double :=
  if num = 0 then zero negative
  else
    let e := exponentOf num den
    let (n, d) := scaled num den e
    let m := roundRatio n d
    let (m, e) := if m = Nat.pow 2 53 then (Nat.pow 2 52, e + 1) else (m, e)
    if maxExponent < e then .infinite negative else .finite negative m e

/-- The double nearest to a written number; no power of ten beyond the range is written out. -/
def ofNumeral (n : Numeral) : Double :=
  let lead := (Decimal.digitsOf n.coefficient).length + n.exponent
  if n.coefficient = 0 ∨ lead < -330 then zero n.negative
  else if 310 < lead then .infinite n.negative
  else ofRatio n.negative (n.coefficient * Nat.pow 10 n.exponent.toNat)
    (Nat.pow 10 (-n.exponent).toNat)

def ofDecimal? : Decimal → Option Double
  | .finite negative coefficient exponent => some (ofNumeral ⟨negative, coefficient, exponent⟩)
  | .infinite negative => some (.infinite negative)
  | .undefined _ signaling _ => if signaling then none else some .undefined

def toDecimal : Double → Decimal
  | .finite negative m e =>
    if 0 ≤ e then .finite negative (m * Nat.pow 2 e.toNat) 0
    else .finite negative (m * Nat.pow 5 (-e).toNat) e
  | .infinite negative => .infinite negative
  | .undefined => .undefined false false 0

def isZero : Double → Bool
  | .finite _ m _ => m == 0
  | _ => false

def dropLowLines? : Char → List Char → Option (List Char)
  | before, [] => if before = '_' then none else some []
  | before, c :: rest =>
    if c = '_' then
      if before.isDigit then dropLowLines? '_' rest else none
    else if before = '_' ∧ !c.isDigit then none
    else (dropLowLines? c rest).map (c :: ·)

def read? (text : List Char) : Option Double := do
  let text := text.map Numeral.asciiDigit
  let trimmed := ((text.dropWhile Text.isBlank).reverse.dropWhile Text.isBlank).reverse
  let text ← dropLowLines? ' ' trimmed
  let (negative, body) := Numeral.splitSign text
  match body.map Char.toLower with
  | ['i', 'n', 'f'] | ['i', 'n', 'f', 'i', 'n', 'i', 't', 'y'] => return .infinite negative
  | ['n', 'a', 'n'] => return .undefined
  | _ => return ofNumeral (← Numeral.read? text)

end Double

end JsonApi
