import JsonApi.Uuid
import JsonApi.Value.Basic

/-!
Values as messages show them. The quoted form tells values of different types apart; the display form
differs from it only where a value has a plain text of its own.

Whole numbers show in full. Those that are too long to be written (`Text.isWritable`) have no form of
either kind, so nothing here is about messages and ids with such a number in them.
-/

namespace JsonApi.Value

def joined (separator : String) : List String → String
  | [] => ""
  | [part] => part
  | part :: rest => part ++ separator ++ joined separator rest

def openBrace : String := String.singleton (Char.ofNat 123)

def closeBrace : String := String.singleton (Char.ofNat 125)

def spanArguments (s : Span) : String :=
  let parts := [("days", s.days), ("seconds", (s.seconds : Int)), ("microseconds", (s.fraction : Int))]
  let shown := (parts.filter fun part => part.2 ≠ 0).map fun part => part.1 ++ "=" ++ toString part.2
  if shown = [] then "0" else joined ", " shown

def quotedSpan (s : Span) : String := "datetime.timedelta(" ++ spanArguments s ++ ")"

def quotedOffset : Option Int → String
  | none => ""
  | some offset =>
    ", tzinfo=" ++
      (if offset = 0 then "datetime.timezone.utc"
      else "datetime.timezone(" ++ quotedSpan ⟨offset * 60000000⟩ ++ ")")

def numbersText (numbers : List Nat) : String := joined ", " (numbers.map toString)

/-- Seconds and microseconds are left out where they and all that follows are zero. -/
def clockNumbers (c : Clock) : List Nat :=
  if c.microsecond ≠ 0 then [c.hour, c.minute, c.second, c.microsecond]
  else if c.second ≠ 0 then [c.hour, c.minute, c.second]
  else [c.hour, c.minute]

def quotedDate (d : Date) : String :=
  "datetime.date(" ++ numbersText [d.year, d.month, d.day] ++ ")"

def quotedClock (c : Clock) : String :=
  "datetime.time(" ++ numbersText (clockNumbers c) ++ quotedOffset c.offset ++ ")"

def quotedMoment (m : Moment) : String :=
  "datetime.datetime(" ++
    numbersText ([m.date.year, m.date.month, m.date.day] ++ clockNumbers m.clock) ++
    quotedOffset m.clock.offset ++ ")"

mutual
def quoted : Value → String
  | .null => "None"
  | .bool b => if b then "True" else "False"
  | .int i => toString i
  | .double d => d.display
  | .text s => Text.quoted s
  | .bytes content => Text.quotedBytes content
  | .decimal d => "Decimal('" ++ d.display ++ "')"
  | .uuid n => "UUID('" ++ Uuid.display n ++ "')"
  | .date d => quotedDate d
  | .clock c => quotedClock c
  | .moment m => quotedMoment m
  | .span s => quotedSpan s
  | .complex re im => Double.displayComplex re im
  | .list items => "[" ++ joined ", " (quotedItems items) ++ "]"
  | .tuple items =>
    let shown := quotedItems items
    "(" ++ joined ", " shown ++ (if shown.length = 1 then "," else "") ++ ")"
  | .set frozen items =>
    let body := if items.isEmpty then "" else openBrace ++ joined ", " (quotedItems items) ++ closeBrace
    if frozen then "frozenset(" ++ body ++ ")" else if items.isEmpty then "set()" else body
  | .dict entries => openBrace ++ joined ", " (quotedEntries entries) ++ closeBrace
  | .record shape fields extra =>
    shape.name ++ "(" ++ joined ", " (quotedFields fields ++ quotedFields extra) ++ ")"
  | .problem kind _ message _ _ _ =>
    kind.label ++ "(" ++ (if kind = .general then "" else quoted message) ++ ")"
  | .breach kind message => kind.label ++ "(" ++ Text.quoted message ++ ")"
  | .foreign _ => "opaque!"

def quotedItems : List Value → List String
  | [] => []
  | item :: rest => quoted item :: quotedItems rest

def quotedEntries : List (Value × Value) → List String
  | [] => []
  | (key, value) :: rest => (quoted key ++ ": " ++ quoted value) :: quotedEntries rest

def quotedFields : List (String × Value) → List String
  | [] => []
  | (name, value) :: rest => (name ++ "=" ++ quoted value) :: quotedFields rest
end

def display : Value → String
  | .text s => s
  | .decimal d => d.display
  | .uuid n => Uuid.display n
  | .date d => d.display
  | .clock c => c.display
  | .moment m => m.display
  | .span s => s.display
  | .record shape fields extra =>
    if shape.isOpen then joined " " (quotedFields fields ++ quotedFields extra)
    else quoted (.record shape fields extra)
  | .problem kind _ message _ _ _ => if kind = .general then "" else display message
  | .breach _ message => message
  | v => quoted v

end JsonApi.Value
