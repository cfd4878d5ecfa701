import JsonApi.Json.Basic
import JsonApi.Text.Percent

/-!
Reading JSON texts by the grammar of RFC 8259. A number without fraction and exponent is whole,
any other is the nearest double; a surrogate escape counts only together with its partner.
-/

namespace JsonApi.Json

def skipBlanks (text : List Char) : List Char :=
  text.dropWhile fun c => c = ' ' || c = '\n' || c = '\r' || c = '\t'

def hexUnit? (a b c d : Char) : Option Nat := do
  return ((← Text.hexValue? a) * 16 + (← Text.hexValue? b)) * 256 +
    ((← Text.hexValue? c) * 16 + (← Text.hexValue? d))

def shortEscape? (c : Char) : Option Char :=
  if c = '"' ∨ c = '\\' ∨ c = '/' then some c
  else if c = 'n' then some '\n'
  else if c = 'r' then some '\r'
  else if c = 't' then some '\t'
  else if c = 'b' then some (Char.ofNat 8)
  else if c = 'f' then some (Char.ofNat 12)
  else none

def isHighUnit (unit : Nat) : Bool := 0xd800 ≤ unit && unit < 0xdc00

def isLowUnit (unit : Nat) : Bool := 0xdc00 ≤ unit && unit < 0xe000

def parseText? : List Char → Option (List Char × List Char)
  | [] => none
  | '"' :: rest => some ([], rest)
  | '\\' :: 'u' :: a :: b :: c :: d :: rest => do
    let unit ← hexUnit? a b c d
    if isHighUnit unit then
      match rest with
      | '\\' :: 'u' :: e :: f :: g :: h :: rest =>
        let low ← hexUnit? e f g h
        if isLowUnit low then
          let (cs, rest) ← parseText? rest
          return (Char.ofNat (0x10000 + (unit - 0xd800) * 0x400 + (low - 0xdc00)) :: cs, rest)
        else none
      | _ => none
    else if isLowUnit unit then none
    else
      let (cs, rest) ← parseText? rest
      return (Char.ofNat unit :: cs, rest)
  | '\\' :: c :: rest => do
    let c ← shortEscape? c
    let (cs, rest) ← parseText? rest
    return (c :: cs, rest)
  | c :: rest =>
    if c.toNat < 32 ∨ c = '\\' then none
    else do
      let (cs, rest) ← parseText? rest
      return (c :: cs, rest)

def isWhole : List Char → Bool
  | [] => false
  | '0' :: rest => rest.isEmpty
  | digits => digits.all Char.isDigit

def isNumberChar (c : Char) : Bool :=
  c.isDigit || c = '-' || c = '+' || c = '.' || c = 'e' || c = 'E'

def number? (literal : List Char) : Option Json :=
  let body := if literal.head? = some '-' then literal.tail else literal
  let whole := body.takeWhile Char.isDigit
  let rest := body.dropWhile Char.isDigit
  if !isWhole whole then none
  else if rest = [] then
    let magnitude := (Numeral.natOf whole : Int)
    some (.int (if literal.head? = some '-' then -magnitude else magnitude))
  else if rest.head? = some '.' ∧ !(rest.tail.head?.any Char.isDigit) then none
  else (Numeral.read? literal).map fun n => .double (Double.ofNumeral n)

mutual
/-- A value at the start of the text, and what follows it; no more than `fuel` levels and items. -/
def parseValue? (fuel : Nat) (text : List Char) : Option (Json × List Char) :=
  match fuel with
  | 0 => none
  | fuel + 1 =>
    match skipBlanks text with
    | 'n' :: 'u' :: 'l' :: 'l' :: rest => some (.null, rest)
    | 't' :: 'r' :: 'u' :: 'e' :: rest => some (.bool true, rest)
    | 'f' :: 'a' :: 'l' :: 's' :: 'e' :: rest => some (.bool false, rest)
    | '"' :: rest => (parseText? rest).map fun (cs, rest) => (.text (String.ofList cs), rest)
    | c :: rest =>
      if c = '[' then
        match skipBlanks rest with
        | ']' :: rest => some (.array [], rest)
        | _ => (parseItems? fuel rest).map fun (items, rest) => (.array items, rest)
      else if c = Char.ofNat 123 then
        match skipBlanks rest with
        | c :: after =>
          if c = Char.ofNat 125 then some (.object [], after)
          else (parseMembers? fuel rest).map fun (members, rest) => (.object members, rest)
        | [] => none
      else
        (number? ((c :: rest).takeWhile isNumberChar)).map fun json =>
          (json, (c :: rest).dropWhile isNumberChar)
    | [] => none

def parseItems? (fuel : Nat) (text : List Char) : Option (List Json × List Char) :=
  match fuel with
  | 0 => none
  | fuel + 1 => do
    let (item, rest) ← parseValue? fuel text
    match skipBlanks rest with
    | ']' :: rest => return ([item], rest)
    | ',' :: rest =>
      let (items, rest) ← parseItems? fuel rest
      return (item :: items, rest)
    | _ => none

def parseMembers? (fuel : Nat) (text : List Char) : Option (List (String × Json) × List Char) :=
  match fuel with
  | 0 => none
  | fuel + 1 =>
    match skipBlanks text with
    | '"' :: rest => do
      let (name, rest) ← parseText? rest
      match skipBlanks rest with
      | ':' :: rest =>
        let (value, rest) ← parseValue? fuel rest
        match skipBlanks rest with
        | ',' :: rest =>
          let (members, rest) ← parseMembers? fuel rest
          return ((String.ofList name, value) :: members, rest)
        | c :: rest =>
          if c = Char.ofNat 125 then return ([(String.ofList name, value)], rest) else none
        | [] => none
      | _ => none
    | _ => none
end

def parse? (text : List Char) : Option Json :=
  match parseValue? (text.length + 1) text with
  | some (json, rest) => if skipBlanks rest = [] then some json else none
  | none => none

end JsonApi.Json
