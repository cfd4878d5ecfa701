import JsonApi.Text.Quoted

/-!
Dates, times of day, moments and spans of time of the proleptic Gregorian calendar, years 1 to 9999,
with an optional offset from universal time in minutes. Written forms are those of ISO 8601; two
values with and without an offset are not in any order.
-/

namespace JsonApi

def paddedNat (width n : Nat) : String :=
  let digits := Nat.toDigits 10 n
  String.ofList (List.replicate (width - digits.length) '0' ++ digits)

/-- The parts of a calendar value have at most 32 bits. -/
def Calendar.isWord (i : Int) : Bool := -Int.pow 2 31 ≤ i && i < Int.pow 2 31

structure Date where
  year : Nat
  month : Nat
  day : Nat
deriving DecidableEq, Repr, Inhabited

namespace Date

def isLeap (year : Nat) : Bool := year % 4 == 0 && (year % 100 != 0 || year % 400 == 0)

def daysInMonth (year month : Nat) : Nat :=
  if month = 2 then (if isLeap year then 29 else 28)
  else if month = 4 ∨ month = 6 ∨ month = 9 ∨ month = 11 then 30 else 31

def ofInts? (year month day : Int) : Option Date :=
  let date : Date := ⟨year.toNat, month.toNat, day.toNat⟩
  if 1 ≤ year ∧ year ≤ 9999 ∧ 1 ≤ month ∧ month ≤ 12 ∧ 1 ≤ day ∧
      day ≤ daysInMonth date.year date.month then some date
  else none

def display (d : Date) : String :=
  paddedNat 4 d.year ++ "-" ++ paddedNat 2 d.month ++ "-" ++ paddedNat 2 d.day

def daysBeforeYear (year : Nat) : Nat :=
  let y := year - 1
  y * 365 + y / 4 - y / 100 + y / 400

/-- Days from the first of January of year 1. -/
def ordinal (d : Date) : Nat :=
  daysBeforeYear d.year + ((List.range (d.month - 1)).map fun m => daysInMonth d.year (m + 1)).foldr (· + ·) 0 + d.day - 1

end Date

/-- A time of day, perhaps with an offset from universal time in minutes. -/
structure Clock where
  hour : Nat
  minute : Nat
  second : Nat
  microsecond : Nat
  offset : Option Int
deriving DecidableEq, Repr, Inhabited

namespace Clock

def offset? (minutes : Int) : Option Int := if minutes.natAbs < 1440 then some minutes else none

def ofInts? (hour minute second microsecond : Int) (offset : Option Int) : Option Clock :=
  if 0 ≤ hour ∧ hour < 24 ∧ 0 ≤ minute ∧ minute < 60 ∧ 0 ≤ second ∧ second < 60 ∧
      0 ≤ microsecond ∧ microsecond < 1000000 ∧ offset.all (fun o => (offset? o).isSome) then
    some ⟨hour.toNat, minute.toNat, second.toNat, microsecond.toNat, offset⟩
  else none

def displayOffset : Option Int → String
  | none => ""
  | some offset =>
    (if offset < 0 then "-" else "+") ++ paddedNat 2 (offset.natAbs / 60) ++ ":" ++
      paddedNat 2 (offset.natAbs % 60)

def display (c : Clock) : String :=
  paddedNat 2 c.hour ++ ":" ++ paddedNat 2 c.minute ++ ":" ++ paddedNat 2 c.second ++
    (if c.microsecond = 0 then "" else "." ++ paddedNat 6 c.microsecond) ++ displayOffset c.offset

def ticks (c : Clock) : Int :=
  (((c.hour * 60 + c.minute) * 60 + c.second) * 1000000 + c.microsecond : Nat)

def universal (c : Clock) : Int := c.ticks - c.offset.getD 0 * 60000000

end Clock

structure Moment where
  date : Date
  clock : Clock
deriving DecidableEq, Repr, Inhabited

namespace Moment

def display (m : Moment) : String := m.date.display ++ " " ++ m.clock.display

/-- Microseconds of universal time since the first of January of year 1. -/
def universal (m : Moment) : Int := m.date.ordinal * 86400000000 + m.clock.universal

end Moment

/-- A span of time in microseconds. -/
structure Span where
  microseconds : Int
deriving DecidableEq, Repr, Inhabited

namespace Span

def perDay : Int := 86400000000

def days (s : Span) : Int := s.microseconds.fdiv perDay

def seconds (s : Span) : Nat := (s.microseconds.fmod perDay).toNat / 1000000

def fraction (s : Span) : Nat := (s.microseconds.fmod perDay).toNat % 1000000

def ofInts? (days seconds microseconds : Int) : Option Span :=
  let span : Span := ⟨days * perDay + seconds * 1000000 + microseconds⟩
  if span.days.natAbs ≤ 999999999 then some span else none

/-- Whole days if there are any, then hours, minutes and seconds of the rest. -/
def display (s : Span) : String :=
  let days :=
    if s.days = 0 then ""
    else toString s.days ++ (if s.days.natAbs = 1 then " day, " else " days, ")
  days ++ toString (s.seconds / 3600) ++ ":" ++ paddedNat 2 (s.seconds / 60 % 60) ++ ":" ++
    paddedNat 2 (s.seconds % 60) ++
    (if s.fraction = 0 then "" else "." ++ paddedNat 6 s.fraction)

end Span

end JsonApi
