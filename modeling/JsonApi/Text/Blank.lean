/-!
Blanks and decimal digits beyond ASCII, as the Unicode character database (version 14) lists
them, and the reading of whole numbers written with any of these digits.
-/

namespace JsonApi.Text

/-- Blanks around a number: the ASCII ones from tab to carriage return, the space, and every
space separator beyond ASCII. The four ASCII information separators are no blanks here. -/
def isBlank (c : Char) : Bool :=
  let n := c.toNat
  (9 ≤ n && n ≤ 13) || n == 32 || n == 0x85 || n == 0xa0 || n == 0x1680 ||
  (0x2000 ≤ n && n ≤ 0x200a) || n == 0x2028 || n == 0x2029 || n == 0x202f || n == 0x205f ||
  n == 0x3000

/-- The code points of the digits zero; each is followed by its digits one to nine. -/
def digitZeros : List Nat :=
  [48, 0x660, 0x6f0, 0x7c0, 0x966, 0x9e6, 0xa66, 0xae6, 0xb66, 0xbe6, 0xc66, 0xce6, 0xd66, 0xde6,
   0xe50, 0xed0, 0xf20, 0x1040, 0x1090, 0x17e0, 0x1810, 0x1946, 0x19d0, 0x1a80, 0x1a90, 0x1b50,
   0x1bb0, 0x1c40, 0x1c50, 0xa620, 0xa8d0, 0xa900, 0xa9d0, 0xa9f0, 0xaa50, 0xabf0, 0xff10,
   0x104a0, 0x10d30, 0x11066, 0x110f0, 0x11136, 0x111d0, 0x112f0, 0x11450, 0x114d0, 0x11650,
   0x116c0, 0x11730, 0x118e0, 0x11950, 0x11c50, 0x11d50, 0x11da0, 0x16a60, 0x16ac0, 0x16b50,
   0x1d7ce, 0x1d7d8, 0x1d7e2, 0x1d7ec, 0x1d7f6, 0x1e140, 0x1e2f0, 0x1e950, 0x1fbf0]

def digitValue? (c : Char) : Option Nat :=
  (digitZeros.find? fun first => first ≤ c.toNat && c.toNat < first + 10).map (c.toNat - ·)

def digitRun? (digit? : Char → Option Nat) : List Char → Option (List Nat)
  | [] => some []
  | '_' :: c :: rest => do return (← digit? c) :: (← digitRun? digit? rest)
  | c :: rest => do return (← digit? c) :: (← digitRun? digit? rest)

def digits? (digit? : Char → Option Nat) : List Char → Option (List Nat)
  | [] => none
  | '_' :: _ => none
  | text => digitRun? digit? text

def trimBlanks (text : List Char) : List Char :=
  ((text.dropWhile isBlank).reverse.dropWhile isBlank).reverse

def natOfDigits (base : Nat) (digits : List Nat) : Nat :=
  digits.foldl (fun n digit => base * n + digit) 0

/-- The longest run of digits that a whole number may be read from, or written in. -/
def digitLimit : Nat := 4300

def isWritable (i : Int) : Bool := (Nat.toDigits 10 i.natAbs).length ≤ digitLimit

/-- A whole number: blanks at both ends, at most one sign, digits, and single low lines between
digits. -/
def readInteger? (text : List Char) : Option Int := do
  let (negative, text) := match trimBlanks text with
    | '-' :: rest => (true, rest)
    | '+' :: rest => (false, rest)
    | rest => (false, rest)
  let digits ← digits? digitValue? text
  if digits.length ≤ digitLimit then
    let magnitude := (natOfDigits 10 digits : Int)
    return if negative then -magnitude else magnitude
  else none

end JsonApi.Text
