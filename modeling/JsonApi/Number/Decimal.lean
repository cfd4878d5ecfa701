import JsonApi.Text.Blank

/-!
Decimal numbers: a coefficient and a power of ten, kept as they were written, beside infinities
and the two sorts of undefined results. Comparison is by exact value.
-/

namespace JsonApi

inductive Decimal where
  | finite (negative : Bool) (coefficient : Nat) (exponent : Int)
  | infinite (negative : Bool)
  | undefined (negative signaling : Bool) (payload : Nat)
deriving DecidableEq, Repr, Inhabited

namespace Decimal

def digitsOf (n : Nat) : List Char := Nat.toDigits 10 n

def ofInt (i : Int) : Decimal := .finite (i < 0) i.natAbs 0

def isUndefined : Decimal → Bool
  | .undefined .. => true
  | _ => false

def isSignaling : Decimal → Bool
  | .undefined _ signaling _ => signaling
  | _ => false

def isZero : Decimal → Bool
  | .finite _ coefficient _ => coefficient == 0
  | _ => false

/-- Compares `a · 10 ^ p` with `b · 10 ^ q`; powers are only written out where the positions of the
leading digits agree. -/
def compareMagnitude (a : Nat) (p : Int) (b : Nat) (q : Int) : Ordering :=
  if a = 0 ∨ b = 0 then compare a b
  else
    let leadA := (digitsOf a).length + p
    let leadB := (digitsOf b).length + q
    if leadA ≠ leadB then compare leadA leadB
    else compare (a * Nat.pow 10 (p - q).toNat) (b * Nat.pow 10 (q - p).toNat)

def compareValue : Decimal → Decimal → Ordering
  | .infinite true, .infinite true => .eq
  | .infinite true, _ => .lt
  | _, .infinite true => .gt
  | .infinite false, .infinite false => .eq
  | .infinite false, _ => .gt
  | _, .infinite false => .lt
  | .finite m a p, .finite n b q =>
    if a = 0 ∧ b = 0 then .eq
    else if m ∧ a ≠ 0 then (if n ∧ b ≠ 0 then (compareMagnitude a p b q).swap else .lt)
    else if n ∧ b ≠ 0 then .gt
    else compareMagnitude a p b q
  | _, _ => .eq

def signText (negative : Bool) : String := if negative then "-" else ""

/-- The written form: positional while the exponent is at most zero and at most six places follow
the point before the first digit, in scientific notation otherwise. -/
def display : Decimal → String
  | .infinite negative => signText negative ++ "Infinity"
  | .undefined negative signaling payload =>
    signText negative ++ (if signaling then "sNaN" else "NaN") ++
      (if payload = 0 then "" else toString payload)
  | .finite negative coefficient exponent =>
    let digits := digitsOf coefficient
    let count : Int := digits.length
    let lead := exponent + count
    let point := if exponent ≤ 0 ∧ -6 < lead then lead else 1
    let body :=
      if point ≤ 0 then "0." ++ String.ofList (List.replicate (-point).toNat '0' ++ digits)
      else if count ≤ point then
        String.ofList (digits ++ List.replicate (point - count).toNat '0')
      else String.ofList (digits.take point.toNat ++ '.' :: digits.drop point.toNat)
    let power :=
      if lead = point then ""
      else (if lead < point then "E-" else "E+") ++ toString (lead - point).natAbs
    signText negative ++ body ++ power

end Decimal

/-- A number as written: sign, all digits, and the power of ten of the last digit. -/
structure Numeral where
  negative : Bool
  coefficient : Nat
  exponent : Int
deriving DecidableEq, Repr

namespace Numeral

def asciiDigit (c : Char) : Char :=
  match Text.digitValue? c with
  | some value => Char.ofNat (48 + value)
  | none => c

def splitSign : List Char → Bool × List Char
  | '-' :: rest => (true, rest)
  | '+' :: rest => (false, rest)
  | rest => (false, rest)

def natOf (digits : List Char) : Nat := digits.foldl (fun n c => 10 * n + (c.toNat - 48)) 0

def readPower? : List Char → Option Int
  | [] => some 0
  | e :: rest =>
    if e = 'e' ∨ e = 'E' then
      let (negative, digits) := splitSign rest
      if digits ≠ [] ∧ digits.all Char.isDigit then
        some (if negative then -(natOf digits : Int) else natOf digits)
      else none
    else none

def read? (text : List Char) : Option Numeral := do
  let (negative, body) := splitSign text
  let whole := body.takeWhile Char.isDigit
  let (places, rest) := match body.dropWhile Char.isDigit with
    | '.' :: rest => (rest.takeWhile Char.isDigit, rest.dropWhile Char.isDigit)
    | rest => ([], rest)
  if whole = [] ∧ places = [] then none
  else
    let power ← readPower? rest
    return ⟨negative, natOf (whole ++ places), power - places.length⟩

end Numeral

namespace Decimal

def greatestLead : Int := 999999999999999999

def leastExponent : Int := -1999999999999999997

/-- A number within the limits; beyond them nothing is rounded, so there is no number. -/
def ofNumeral? (n : Numeral) : Option Decimal :=
  if n.exponent + (digitsOf n.coefficient).length - 1 ≤ greatestLead ∧ leastExponent ≤ n.exponent then
    some (.finite n.negative n.coefficient n.exponent)
  else none

/-- Reads a decimal: blanks around it and low lines anywhere are dropped, letters may be of either
case, and an undefined result may carry a payload. -/
def read? (text : List Char) : Option Decimal :=
  let isBlank c := Text.isBlank c || (0x1c ≤ c.toNat && c.toNat ≤ 0x1f)
  let trimmed := ((text.dropWhile isBlank).reverse.dropWhile isBlank).reverse
  let text := (trimmed.filter (· ≠ '_')).map Numeral.asciiDigit
  let (negative, body) := Numeral.splitSign text
  match body.map Char.toLower with
  | ['i', 'n', 'f'] | ['i', 'n', 'f', 'i', 'n', 'i', 't', 'y'] => some (.infinite negative)
  | 'n' :: 'a' :: 'n' :: payload =>
    if payload.all Char.isDigit then some (.undefined negative false (Numeral.natOf payload)) else none
  | 's' :: 'n' :: 'a' :: 'n' :: payload =>
    if payload.all Char.isDigit then some (.undefined negative true (Numeral.natOf payload)) else none
  | _ => (Numeral.read? text).bind ofNumeral?

end Decimal

end JsonApi
