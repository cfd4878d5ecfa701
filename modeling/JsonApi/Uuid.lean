import JsonApi.Text.Hexadecimal
import JsonApi.Text.Split

/-!
Universally unique identifiers: numbers of 128 bits. The written form has eight, three times four and
twelve hexadecimal digits; read are also forms with a name space in front, in braces, or without
dashes.
-/

namespace JsonApi.Uuid

def display (n : Nat) : String :=
  let digits := Text.hexDigits 32 n
  let part (start count : Nat) : List Char := (digits.drop start).take count
  String.ofList (part 0 8 ++ '-' :: part 8 4 ++ '-' :: part 12 4 ++ '-' :: part 16 4 ++
    '-' :: part 20 12)

def isBrace (c : Char) : Bool := c.toNat = 123 || c.toNat = 125

/-- The characters that count: without name spaces, braces and dashes. -/
def significant (text : String) : List Char :=
  let text := (text.replace "urn:" "").replace "uuid:" ""
  (Text.strip isBrace text.toList).filter (· ≠ '-')

def read? (text : String) : Option Nat :=
  if (significant text).length = 32 then Text.readHexadecimal? (significant text) else none

end JsonApi.Uuid
