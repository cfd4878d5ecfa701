import JsonApi.Number.Double

/-!
The shortest decimal text of a double: of all decimals that round to it, one with the fewest digits,
and of those the nearest. For each count of digits only the two neighbours of the value on the
decimal grid can qualify, so these are tried for one digit, two digits, and so on.
-/

namespace JsonApi.Double

/-- A positive value and the interval that rounds to it, over one denominator. -/
structure Cell where
  value : Nat
  low : Nat
  high : Nat
  denominator : Nat
  closed : Bool

/-- The interval of a double is half a step wide on each side, a quarter below a power of two; its
ends round to an even significand. -/
def cell (m : Nat) (e : Int) : Cell :=
  let down := if m = Nat.pow 2 52 ∧ minExponent < e then 1 else 2
  let unit := Nat.pow 2 (e - 2).toNat
  { value := 4 * m * unit, low := (4 * m - down) * unit, high := (4 * m + 2) * unit,
    denominator := Nat.pow 2 (2 - e).toNat, closed := m % 2 = 0 }

def Cell.holds (c : Cell) (digits : Nat) (power : Int) : Bool :=
  let point := digits * Nat.pow 10 power.toNat * c.denominator
  let grid := Nat.pow 10 (-power).toNat
  if c.closed then c.low * grid ≤ point && point ≤ c.high * grid
  else c.low * grid < point && point < c.high * grid

def leadingPower (num den : Nat) : Int :=
  let guess := (((num.log2 : Int) - den.log2) * 30103).fdiv 100000
  let below (p : Int) : Bool := num * Nat.pow 10 (-p).toNat < den * Nat.pow 10 p.toNat
  if below (guess - 1) then guess - 2
  else if below guess then guess - 1
  else if below (guess + 1) then guess
  else guess + 1

/-- The neighbour of the value on the grid of `10 ^ power` that lies in the cell, the nearer one of
two. -/
def Cell.onGrid? (c : Cell) (power : Int) : Option Nat :=
  let num := c.value * Nat.pow 10 (-power).toNat
  let den := c.denominator * Nat.pow 10 power.toNat
  let below := num / den
  let above := below + 1
  match c.holds below power, c.holds above power with
  | true, true =>
    let rest := num % den
    some (if 2 * rest < den ∨ (2 * rest = den ∧ below % 2 = 0) then below else above)
  | true, false => some below
  | false, true => some above
  | false, false => none

/-- Tries ever finer grids; seventeen digits always suffice. -/
def Cell.search (c : Cell) (power : Int) : Nat → Nat × Int
  | 0 => (c.value * Nat.pow 10 (-power).toNat / (c.denominator * Nat.pow 10 power.toNat), power)
  | tries + 1 =>
    match c.onGrid? power with
    | some digits => (digits, power)
    | none => c.search (power - 1) tries

/-- Digits and power of ten of the shortest decimal that rounds to `m · 2 ^ e`. -/
def shortest (m : Nat) (e : Int) : Nat × Int :=
  let c := cell m e
  c.search (leadingPower c.value c.denominator) 17

structure Notation where
  /-- Whole numbers keep a point and a zero. -/
  keepsPoint : Bool
  /-- Numbers that are not negative get a plus sign. -/
  plusSign : Bool
  undefined : String
  infinite : String

def Notation.sign (style : Notation) (negative : Bool) : String :=
  if negative then "-" else if style.plusSign then "+" else ""

def trimZeros (digits : List Char) (power : Int) : List Char × Int :=
  let kept := (digits.reverse.dropWhile (· = '0')).reverse
  (kept, power + (digits.length - kept.length : Nat))

/-- Positional from one ten-thousandth up to seventeen digits before the point, in scientific
notation with two or more digits of exponent otherwise. -/
def Notation.digits (style : Notation) (digits : List Char) (power : Int) : List Char :=
  let (digits, power) := trimZeros digits power
  let count : Int := digits.length
  let point := count + power
  if -4 < point ∧ point ≤ 16 then
    if point ≤ 0 then '0' :: '.' :: List.replicate (-point).toNat '0' ++ digits
    else if count ≤ point then
      digits ++ List.replicate (point - count).toNat '0' ++
        (if style.keepsPoint then ['.', '0'] else [])
    else digits.take point.toNat ++ '.' :: digits.drop point.toNat
  else
    let exponent := point - 1
    let size := Decimal.digitsOf exponent.natAbs
    digits.take 1 ++ (if 1 < count then '.' :: digits.drop 1 else []) ++
      'e' :: (if exponent < 0 then '-' else '+') ::
        (if size.length < 2 then '0' :: size else size)

def Notation.render (style : Notation) : Double → String
  | .undefined => (if style.plusSign then "+" else "") ++ style.undefined
  | .infinite negative => style.sign negative ++ style.infinite
  | .finite negative m e =>
    style.sign negative ++
      (if m = 0 then (if style.keepsPoint then "0.0" else "0")
      else
        let (digits, power) := shortest m e
        String.ofList (style.digits (Decimal.digitsOf digits) power))

def plainNotation : Notation :=
  { keepsPoint := true, plusSign := false, undefined := "nan", infinite := "inf" }

def display (d : Double) : String := plainNotation.render d

/-- The form of a complex number: without its real part if that is a positive zero, in parentheses
otherwise. -/
def displayComplex (re im : Double) : String :=
  let part : Notation := { plainNotation with keepsPoint := false }
  if re = zero false then part.render im ++ "j"
  else "(" ++ part.render re ++ Notation.render { part with plusSign := true } im ++ "j)"

end JsonApi.Double
