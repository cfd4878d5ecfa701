import JsonApi.Fault
import JsonApi.Value.Basic

/-!
Sameness and order of values. Numbers of all types compare by exact value, texts by code points,
sequences by their first difference; values of types without a common order are in none.
-/

namespace JsonApi

inductive OrderFault where
  | unordered (left right : String)
  | offsets (noun : String)
  | dateAndMoment
  /-- An undefined decimal takes part. -/
  | undefined
deriving DecidableEq, Repr

namespace OrderFault

def message : OrderFault → String
  | .unordered left right =>
    "'<' not supported between instances of '" ++ left ++ "' and '" ++ right ++ "'"
  | .offsets noun => "can't compare offset-naive and offset-aware " ++ noun
  | .dateAndMoment => "can't compare datetime.datetime to datetime.date"
  | .undefined => "comparison involving an undefined decimal"

def toFault : OrderFault → Fault
  | .undefined => .undefinedDecimal
  | _ => .wrongType

end OrderFault

namespace Value

def number? : Value → Option Decimal
  | .bool b => some (.ofInt (if b then 1 else 0))
  | .int i => some (.ofInt i)
  | .double d => some d.toDecimal
  | .decimal d => some d
  | _ => none

/-- Undefined numbers are the same as nothing, and a signaling one refuses to be told apart from any
other number. -/
def sameNumber (a b : Decimal) : Except OrderFault Bool :=
  if a.isSignaling || b.isSignaling then .error .undefined
  else .ok (!a.isUndefined && !b.isUndefined && a.compareValue b == .eq)

def sameDouble (a b : Double) : Bool :=
  !a.toDecimal.isUndefined && !b.toDecimal.isUndefined &&
    a.toDecimal.compareValue b.toDecimal == .eq

def sameClock (a b : Clock) : Bool :=
  a.offset.isSome == b.offset.isSome && a.universal == b.universal

def sameMoment (a b : Moment) : Bool :=
  a.clock.offset.isSome == b.clock.offset.isSome && a.universal == b.universal

/-- A complex number equals a number if it has no imaginary part. -/
def sameComplex (re im : Double) : Value → Except OrderFault Bool
  | .complex re' im' => .ok (sameDouble re re' && sameDouble im im')
  | v => match v.number? with
    | some d => if im.isZero then sameNumber re.toDecimal d else .ok false
    | none => .ok false

def samePlain : Value → Value → Except OrderFault Bool
  | .null, .null => .ok true
  | .text a, .text b => .ok (a == b)
  | .bytes a, .bytes b => .ok (a == b)
  | .uuid a, .uuid b => .ok (a == b)
  | .date a, .date b => .ok (a == b)
  | .clock a, .clock b => .ok (sameClock a b)
  | .moment a, .moment b => .ok (sameMoment a b)
  | .span a, .span b => .ok (a == b)
  | .complex re im, v => sameComplex re im v
  | v, .complex re im => sameComplex re im v
  | a, b => match a.number?, b.number? with
    | some m, some n => sameNumber m n
    | _, _ => .ok false

/-- Which fields of a structured value count for its place in a dictionary or set. -/
def isHashedField (shape : Shape) (name : String) : Bool :=
  match shape with
  | .relationship => name ≠ "meta"
  | .resource => name = "identifier"
  | .info => name ≠ "meta"
  | .document => name = "links" || name = "jsonapi"
  | _ => true

mutual
/-- Whether two values belong to the same place in a dictionary or set. Only what counts for the place
is looked at, and nothing of that refuses. -/
def samePlace : Value → Value → Bool
  | .tuple as, .tuple bs => samePlaces as bs
  | .set _ as, .set _ bs => as.length = bs.length && allPlaced as bs
  | .record shape fields _, .record shape' fields' _ =>
    shape = shape' && sameHashedFields shape fields fields'
  | a, b => (samePlain a b).toOption.getD false

def samePlaces : List Value → List Value → Bool
  | [], [] => true
  | a :: as, b :: bs => samePlace a b && samePlaces as bs
  | _, _ => false

def allPlaced : List Value → List Value → Bool
  | [], _ => true
  | a :: as, bs => bs.any (samePlace a) && allPlaced as bs

def sameHashedFields (shape : Shape) : List (String × Value) → List (String × Value) → Bool
  | [], [] => true
  | (name, a) :: as, (_, b) :: bs =>
    (!isHashedField shape name || samePlace a b) && sameHashedFields shape as bs
  | _, _ => false
end

/-- The first entry whose key passes a test; a refusal of the test is one of the search. -/
def findKey (test : Value → Except OrderFault Bool) :
    List (Value × Value) → Except OrderFault (Option Value)
  | [] => .ok none
  | (key, value) :: rest => do
    if ← test key then return some value else findKey test rest

def anySame (test : Value → Except OrderFault Bool) : List Value → Except OrderFault Bool
  | [] => .ok false
  | item :: rest => do
    if ← test item then return true else anySame test rest

mutual
/-- Whether two values are the same. Parts are compared in order up to the first difference; the
members of an error object beyond the declared ones come before those. -/
def same : Value → Value → Except OrderFault Bool
  | .list as, .list bs => if as.length = bs.length then sameItems as bs else .ok false
  | .tuple as, .tuple bs => sameItems as bs
  | .set _ as, .set _ bs => if as.length = bs.length then sameElements as bs else .ok false
  | .dict as, .dict bs => if as.length = bs.length then sameEntries as bs else .ok false
  | .record shape fields extra, .record shape' fields' extra' =>
    if shape = shape' ∧ extra.length = extra'.length then do
      if ← sameMembers extra extra' then sameFields fields fields' else return false
    else .ok false
  | a, b => samePlain a b

def sameItems : List Value → List Value → Except OrderFault Bool
  | [], [] => .ok true
  | a :: as, b :: bs => do if ← same a b then sameItems as bs else return false
  | _, _ => .ok false

def sameElements : List Value → List Value → Except OrderFault Bool
  | [], _ => .ok true
  | a :: as, bs => do
    if ← anySame (fun b => if samePlace a b then same a b else .ok false) bs then sameElements as bs
    else return false

def sameEntries : List (Value × Value) → List (Value × Value) → Except OrderFault Bool
  | [], _ => .ok true
  | (key, value) :: as, bs => do
    match ← findKey (fun k => if samePlace key k then same key k else .ok false) bs with
    | some other => if ← same value other then sameEntries as bs else return false
    | none => return false

def sameFields : List (String × Value) → List (String × Value) → Except OrderFault Bool
  | [], [] => .ok true
  | (_, a) :: as, (_, b) :: bs => do if ← same a b then sameFields as bs else return false
  | _, _ => .ok false

def sameMembers : List (String × Value) → List (String × Value) → Except OrderFault Bool
  | [], _ => .ok true
  | (name, value) :: as, bs => do
    match Entries.get? bs name with
    | some other => if ← same value other then sameMembers as bs else return false
    | none => return false
end

def lessBytes : List UInt8 → List UInt8 → Bool
  | _, [] => false
  | [], _ :: _ => true
  | a :: as, b :: bs => if a = b then lessBytes as bs else a < b

def lessChars : List Char → List Char → Bool
  | _, [] => false
  | [], _ :: _ => true
  | a :: as, b :: bs => if a = b then lessChars as bs else a.toNat < b.toNat

def lessText (a b : String) : Bool := lessChars a.toList b.toList

/-- The order of numbers: undefined doubles are below and above nothing, undefined decimals refuse. -/
def lessNumber (a b : Value) (m n : Decimal) : Except OrderFault Bool :=
  let isDecimal : Value → Bool
    | .decimal _ => true
    | _ => false
  if m.isUndefined ∨ n.isUndefined then
    if isDecimal a ∨ isDecimal b then .error .undefined else .ok false
  else .ok (m.compareValue n == .lt)

mutual
def less : Value → Value → Except OrderFault Bool
  | .text a, .text b => .ok (lessText a b)
  | .bytes a, .bytes b => .ok (lessBytes a b)
  | .uuid a, .uuid b => .ok (a < b)
  | .date a, .date b => .ok (a.ordinal < b.ordinal)
  | .date _, .moment _ => .error .dateAndMoment
  | .moment _, .date _ => .error .dateAndMoment
  | .clock a, .clock b =>
    if a.offset.isSome == b.offset.isSome then .ok (a.universal < b.universal)
    else .error (.offsets "times")
  | .moment a, .moment b =>
    if a.clock.offset.isSome == b.clock.offset.isSome then .ok (a.universal < b.universal)
    else .error (.offsets "datetimes")
  | .span a, .span b => .ok (a.microseconds < b.microseconds)
  | .list as, .list bs => lessItems as bs
  | .tuple as, .tuple bs => lessItems as bs
  | .set _ as, .set _ bs => if as.length < bs.length then sameElements as bs else .ok false
  | a, b => match a.number?, b.number? with
    | some m, some n => lessNumber a b m n
    | _, _ => .error (.unordered a.typeName b.typeName)

/-- Sequences compare at their first difference; of two without one the shorter comes first. -/
def lessItems : List Value → List Value → Except OrderFault Bool
  | _, [] => .ok false
  | [], _ :: _ => .ok true
  | a :: as, b :: bs => do if ← same a b then lessItems as bs else less a b
end

mutual
def isHashable : Value → Bool
  | .list _ => false
  | .dict _ => false
  | .set frozen _ => frozen
  | .tuple items => hashableItems items
  | .decimal d => !d.isSignaling
  | .record shape fields _ => !shape.isOpen && hashableFields shape fields
  | _ => true

def hashableItems : List Value → Bool
  | [] => true
  | item :: rest => isHashable item && hashableItems rest

def hashableFields (shape : Shape) : List (String × Value) → Bool
  | [] => true
  | (name, value) :: rest =>
    (!isHashedField shape name || isHashable value) && hashableFields shape rest
end

/-- Whether two keys or elements are the same. Those that belong to different places are not compared. -/
def sameKey (a b : Value) : Except OrderFault Bool :=
  if samePlace a b then same a b else .ok false

/-- Puts a value under a key; an equal key keeps its form and place. -/
def putEntry : List (Value × Value) → Value → Value → Except OrderFault (List (Value × Value))
  | [], key, value => .ok [(key, value)]
  | (k, v) :: rest, key, value => do
    if ← sameKey k key then return (k, value) :: rest
    else return (k, v) :: (← putEntry rest key value)

def enter (entries : List (Value × Value)) (key value : Value) :
    Except Fault (List (Value × Value)) :=
  if key.isHashable then (putEntry entries key value).mapError OrderFault.toFault
  else .error .wrongType

def collect (items : List Value) (item : Value) : Except Fault (List Value) :=
  if item.isHashable then do
    if ← (anySame (sameKey · item) items).mapError OrderFault.toFault then return items
    else return items ++ [item]
  else .error .wrongType

end Value

end JsonApi
