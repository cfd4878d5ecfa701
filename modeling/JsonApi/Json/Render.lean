import JsonApi.Json.Basic
import JsonApi.Number.Shortest
import JsonApi.Text.Quoted

/-!
The text of a JSON tree. All of it is ASCII: characters beyond are written as escapes, those past
the basic plane as two of them.
-/

namespace JsonApi.Json

def unicodeEscape (unit : Nat) : List Char := '\\' :: 'u' :: Text.hexDigits 4 unit

def escapeChar (c : Char) : List Char :=
  if c = '"' then ['\\', '"']
  else if c = '\\' then ['\\', '\\']
  else if c = '\n' then ['\\', 'n']
  else if c = '\r' then ['\\', 'r']
  else if c = '\t' then ['\\', 't']
  else if c.toNat = 8 then ['\\', 'b']
  else if c.toNat = 12 then ['\\', 'f']
  else if 32 ≤ c.toNat ∧ c.toNat < 127 then [c]
  else if c.toNat < 0x10000 then unicodeEscape c.toNat
  else
    unicodeEscape (0xd800 + (c.toNat - 0x10000) / 0x400) ++
      unicodeEscape (0xdc00 + (c.toNat - 0x10000) % 0x400)

def textChars (text : List Char) : List Char := '"' :: text.flatMap escapeChar ++ ['"']

def intChars (i : Int) : List Char :=
  if i < 0 then '-' :: Nat.toDigits 10 i.natAbs else Nat.toDigits 10 i.natAbs

/-- Numbers as in messages, but the values that are no numbers have names of their own. -/
def doubleNotation : Double.Notation :=
  { Double.plainNotation with undefined := "NaN", infinite := "Infinity" }

structure Layout where
  separator : List Char
  colon : List Char
  indent : Option Nat

namespace Layout

def spaced : Layout := ⟨[',', ' '], [':', ' '], none⟩

def compact : Layout := ⟨[','], [':'], none⟩

def indented : Layout := ⟨[','], [':', ' '], some 2⟩

def lineBreak (layout : Layout) (depth : Nat) : List Char :=
  match layout.indent with
  | none => []
  | some width => '\n' :: List.replicate (width * depth) ' '

end Layout

mutual
def chars (layout : Layout) (depth : Nat) : Json → List Char
  | .null => ['n', 'u', 'l', 'l']
  | .bool true => ['t', 'r', 'u', 'e']
  | .bool false => ['f', 'a', 'l', 's', 'e']
  | .int i => intChars i
  | .double d => (doubleNotation.render d).toList
  | .text s => textChars s.toList
  | .array [] => ['[', ']']
  | .array (item :: rest) =>
    '[' :: layout.lineBreak (depth + 1) ++ chars layout (depth + 1) item ++
      itemChars layout (depth + 1) rest ++ layout.lineBreak depth ++ [']']
  | .object [] => [Char.ofNat 123, Char.ofNat 125]
  | .object ((name, value) :: rest) =>
    Char.ofNat 123 :: layout.lineBreak (depth + 1) ++ textChars name.toList ++ layout.colon ++
      chars layout (depth + 1) value ++ memberChars layout (depth + 1) rest ++
      layout.lineBreak depth ++ [Char.ofNat 125]

/-- All items but the first, each after a separator. -/
def itemChars (layout : Layout) (depth : Nat) : List Json → List Char
  | [] => []
  | item :: rest =>
    layout.separator ++ layout.lineBreak depth ++ chars layout depth item ++
      itemChars layout depth rest

def memberChars (layout : Layout) (depth : Nat) : List (String × Json) → List Char
  | [] => []
  | (name, value) :: rest =>
    layout.separator ++ layout.lineBreak depth ++ textChars name.toList ++ layout.colon ++
      chars layout depth value ++ memberChars layout depth rest
end

def render (layout : Layout) (json : Json) : String := String.ofList (chars layout 0 json)

end JsonApi.Json
