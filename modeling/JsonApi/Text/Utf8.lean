/-!
UTF-8 as lists of bytes. The strict reader refuses ill-formed input; the lenient one puts one
replacement character in place of each longest ill-formed stretch that begins a character.
-/

namespace JsonApi.Text.Utf8

def replacement : Char := Char.ofNat 0xfffd

def encode (text : List Char) : List UInt8 := text.flatMap String.utf8EncodeChar

/-- Number of bytes that a character with this first byte takes; 0 if none starts with it. -/
def width (first : UInt8) : Nat :=
  if first < 0x80 then 1
  else if first < 0xc2 then 0
  else if first < 0xe0 then 2
  else if first < 0xf0 then 3
  else if first < 0xf5 then 4
  else 0

/-- Whether `second` may follow `first`: overlong forms, surrogates and code points past the last
one are excluded here. -/
def followsFirst (first second : UInt8) : Bool :=
  let low := if first = 0xe0 then 0xa0 else if first = 0xf0 then 0x90 else 0x80
  let high := if first = 0xed then 0x9f else if first = 0xf4 then 0x8f else 0xbf
  low ≤ second && second ≤ high

def isTail (byte : UInt8) : Bool := 0x80 ≤ byte && byte ≤ 0xbf

def join2 (a b : UInt8) : Char :=
  Char.ofNat ((a.toNat - 0xc0) * 0x40 + (b.toNat - 0x80))

def join3 (a b c : UInt8) : Char :=
  Char.ofNat (((a.toNat - 0xe0) * 0x40 + (b.toNat - 0x80)) * 0x40 + (c.toNat - 0x80))

def join4 (a b c d : UInt8) : Char :=
  Char.ofNat ((((a.toNat - 0xf0) * 0x40 + (b.toNat - 0x80)) * 0x40 + (c.toNat - 0x80)) * 0x40 +
    (d.toNat - 0x80))

/-- The characters of `bytes` in order, `none` for each ill-formed stretch. -/
def scan : List UInt8 → List (Option Char)
  | [] => []
  | a :: rest =>
    if width a = 1 then some (Char.ofNat a.toNat) :: scan rest
    else if width a = 0 then none :: scan rest
    else match rest with
      | [] => [none]
      | b :: afterB =>
        if followsFirst a b then
          if width a = 2 then some (join2 a b) :: scan afterB
          else match afterB with
            | [] => [none]
            | c :: afterC =>
              if isTail c then
                if width a = 3 then some (join3 a b c) :: scan afterC
                else match afterC with
                  | [] => [none]
                  | d :: afterD =>
                    if isTail d then some (join4 a b c d) :: scan afterD
                    else none :: scan (d :: afterD)
              else none :: scan (c :: afterC)
        else none :: scan (b :: afterB)

def decodeLossy (bytes : List UInt8) : List Char := (scan bytes).map (·.getD replacement)

def decode? (bytes : List UInt8) : Option (List Char) := (scan bytes).mapM id

end JsonApi.Text.Utf8
