import JsonApi.Text.Blank

/-!
Hexadecimal digits: single ones, those of a number, and those of bytes.
-/

namespace JsonApi.Text

def hexValue? (c : Char) : Option Nat :=
  if '0' ≤ c ∧ c ≤ '9' then some (c.toNat - 48)
  else if 'a' ≤ c ∧ c ≤ 'f' then some (c.toNat - 87)
  else if 'A' ≤ c ∧ c ≤ 'F' then some (c.toNat - 55)
  else none

def isHexDigit (c : Char) : Bool := (hexValue? c).isSome

def hexDigit (n : Nat) : Char := Char.ofNat (if n < 10 then 48 + n else 87 + n)

def hexDigits : Nat → Nat → List Char
  | 0, _ => []
  | count + 1, n => hexDigits count (n / 16) ++ [hexDigit (n % 16)]

def hexOfBytes (bytes : List UInt8) : String :=
  String.ofList (bytes.flatMap fun byte => hexDigits 2 byte.toNat)

def isAsciiBlank (c : Char) : Bool := (9 ≤ c.toNat && c.toNat ≤ 13) || c = ' '

def bytesOfHex? : List Char → Option (List UInt8)
  | [] => some []
  | [c] => if isAsciiBlank c then some [] else none
  | a :: b :: rest =>
    if isAsciiBlank a then bytesOfHex? (b :: rest)
    else do return UInt8.ofNat (16 * (← hexValue? a) + (← hexValue? b)) :: (← bytesOfHex? rest)

/-- The value of a digit; the digits from zero to nine may be of any script. -/
def wideHexValue? (c : Char) : Option Nat := (digitValue? c).or (hexValue? c)

def dropHexMark : List Char → List Char
  | zero :: x :: rest =>
    if digitValue? zero = some 0 ∧ (x = 'x' ∨ x = 'X') then
      match rest with
      | '_' :: rest => rest
      | rest => rest
    else zero :: x :: rest
  | text => text

/-- A natural number: blanks at both ends, perhaps a plus sign and the mark of a hexadecimal number,
digits, and single low lines between digits. -/
def readHexadecimal? (text : List Char) : Option Nat := do
  let text := match trimBlanks text with
    | '+' :: rest => rest
    | rest => rest
  return natOfDigits 16 (← digits? wideHexValue? (dropHexMark text))

end JsonApi.Text
