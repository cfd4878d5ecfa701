import JsonApi.Text.Hexadecimal
import JsonApi.Text.Printable

/-!
Quoted texts as messages show them: in single quotes, or in double quotes if the text holds single
quotes and no double ones. Backslashes, the quote itself and characters without a visible form
are escaped.
-/

namespace JsonApi.Text

def escapeQuoted (quote c : Char) : List Char :=
  if c = quote ∨ c = '\\' then ['\\', c]
  else if c = '\n' then ['\\', 'n']
  else if c = '\r' then ['\\', 'r']
  else if c = '\t' then ['\\', 't']
  else if isPrintable c then [c]
  else if c.toNat < 0x100 then '\\' :: 'x' :: hexDigits 2 c.toNat
  else if c.toNat < 0x10000 then '\\' :: 'u' :: hexDigits 4 c.toNat
  else '\\' :: 'U' :: hexDigits 8 c.toNat

def quoteFor (text : List Char) : Char :=
  if '\'' ∈ text ∧ '"' ∉ text then '"' else '\''

def quotedChars (text : List Char) : List Char :=
  let quote := quoteFor text
  quote :: text.flatMap (escapeQuoted quote) ++ [quote]

def quoted (text : String) : String := String.ofList (quotedChars text.toList)

/-- Quoted bytes: the same rule, but only ASCII characters have a visible form. -/
def quotedBytes (bytes : List UInt8) : String :=
  let chars := bytes.map fun byte => Char.ofNat byte.toNat
  let quote := quoteFor chars
  let escape c := if 127 ≤ c.toNat then '\\' :: 'x' :: hexDigits 2 c.toNat else escapeQuoted quote c
  String.ofList ('b' :: quote :: chars.flatMap escape ++ [quote])

end JsonApi.Text
