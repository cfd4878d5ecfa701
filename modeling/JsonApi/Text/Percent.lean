import JsonApi.Text.Hexadecimal
import JsonApi.Text.Utf8

/-!
Percent-encoding of form data. Reading turns plus signs into blanks, then each run of ASCII
characters into bytes, which are read as UTF-8; characters beyond ASCII stand for themselves and
separate the runs. Writing escapes every byte but ASCII letters and digits.
-/

namespace JsonApi.Text

def isAscii (c : Char) : Bool := c.toNat < 128

/-- The bytes of a run of ASCII characters; a percent sign without two hexadecimal digits stays. -/
def escapedBytes : List Char → List UInt8
  | [] => []
  | '%' :: a :: b :: rest =>
    match hexValue? a, hexValue? b with
    | some high, some low => UInt8.ofNat (16 * high + low) :: escapedBytes rest
    | _, _ => UInt8.ofNat '%'.toNat :: escapedBytes (a :: b :: rest)
  | c :: rest => UInt8.ofNat c.toNat :: escapedBytes rest

def asciiRuns : List Char → List (List Char)
  | [] => []
  | c :: rest =>
    match asciiRuns rest with
    | (next :: run) :: more =>
      if isAscii c = isAscii next then (c :: next :: run) :: more else [c] :: (next :: run) :: more
    | more => [c] :: more

def decodeRun (run : List Char) : List Char :=
  if run.all isAscii then Utf8.decodeLossy (escapedBytes run) else run

def decodeForm (text : List Char) : List Char :=
  (asciiRuns (text.map fun c => if c = '+' then ' ' else c)).flatMap decodeRun

def escapeByte (byte : UInt8) : List Char :=
  let c := Char.ofNat byte.toNat
  if c.isAlphanum then [c]
  else ['%', hexDigit (byte.toNat / 16), hexDigit (byte.toNat % 16)]

def encodeForm (text : List Char) : List Char := (Utf8.encode text).flatMap escapeByte

end JsonApi.Text
