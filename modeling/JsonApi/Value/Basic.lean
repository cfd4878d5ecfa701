import JsonApi.Calendar
import JsonApi.Entries
import JsonApi.Number.Shortest
import JsonApi.Problem.Kind
import JsonApi.Violation.Kind

/-!
Values of attributes and metadata: those of JSON, further ones that have a JSON form of their own,
the parts of a document themselves, and foreign objects, of which only their attributes are known.
-/

namespace JsonApi

namespace Value

inductive Shape where
  | existing
  | new
  | emptyLinkage
  | toOne
  | toMany
  | links
  | relationship
  | resource
  | info
  | document
  | errorObject
  | errorLinks
  | errorSource
deriving DecidableEq, Repr, Inhabited

namespace Shape

def name : Shape → String
  | .existing => "ExistingIdentifier"
  | .new => "NewIdentifier"
  | .emptyLinkage => "EmptyLinkage"
  | .toOne => "ToOneLinkage"
  | .toMany => "ToManyLinkage"
  | .links => "Links"
  | .relationship => "Relationship"
  | .resource => "Resource"
  | .info => "ImplementationInfo"
  | .document => "Document"
  | .errorObject => "ErrorObject"
  | .errorLinks => "ErrorLinks"
  | .errorSource => "ErrorSource"

def isOpen : Shape → Bool
  | .errorObject | .errorLinks | .errorSource => true
  | _ => false

end Shape

end Value

inductive Value where
  | null
  | bool (b : Bool)
  | int (i : Int)
  | double (d : Double)
  | text (s : String)
  | bytes (content : List UInt8)
  | decimal (d : Decimal)
  | uuid (n : Nat)
  | date (d : Date)
  | clock (c : Clock)
  | moment (m : Moment)
  | span (s : Span)
  | complex (re im : Double)
  | list (items : List Value)
  | tuple (items : List Value)
  | set (frozen : Bool) (items : List Value)
  | dict (entries : List (Value × Value))
  /-- A structured value: declared fields in order, and members beyond them. -/
  | record (shape : Value.Shape) (fields extra : List (String × Value))
  | problem (kind : Problem.Kind) (detail : String) (message status code parameter : Value)
  | breach (kind : Violation.Kind) (message : String)
  | foreign (attributes : List (String × Value))
deriving Inhabited, Repr

/-- Names and values in order, no name twice. -/
abbrev Members := List (String × Value)

namespace Value

def ofOption {α : Type} (f : α → Value) : Option α → Value
  | some a => f a
  | none => .null

def isNull : Value → Bool
  | .null => true
  | _ => false

def ofMembers (members : Members) : Value :=
  .dict (members.map fun member => (.text member.1, member.2))

def isTruthy : Value → Bool
  | .null => false
  | .bool b => b
  | .int i => i != 0
  | .double d => !d.isZero
  | .text s => s != ""
  | .bytes content => !content.isEmpty
  | .decimal d => !d.isZero
  | .span s => s.microseconds != 0
  | .complex re im => !(re.isZero && im.isZero)
  | .list items => !items.isEmpty
  | .tuple items => !items.isEmpty
  | .set _ items => !items.isEmpty
  | .dict entries => !entries.isEmpty
  | _ => true

/-- The name that messages about order use for the type of a value. -/
def typeName : Value → String
  | .null => "NoneType"
  | .bool _ => "bool"
  | .int _ => "int"
  | .double _ => "float"
  | .text _ => "str"
  | .bytes _ => "bytes"
  | .decimal _ => "decimal.Decimal"
  | .uuid _ => "UUID"
  | .date _ => "datetime.date"
  | .clock _ => "datetime.time"
  | .moment _ => "datetime.datetime"
  | .span _ => "datetime.timedelta"
  | .complex .. => "complex"
  | .list _ => "list"
  | .tuple _ => "tuple"
  | .set frozen _ => if frozen then "frozenset" else "set"
  | .dict _ => "dict"
  | .record shape _ _ => shape.name
  | .problem kind .. => kind.label
  | .breach kind _ => kind.label
  | .foreign _ => "Opaque"

def className (v : Value) : String :=
  let package := match v with
    | .uuid _ => "uuid."
    | .record shape _ _ => if shape.isOpen then "jadoc.errors." else "jadoc.jsonapi_objects."
    | .problem .. => "jadoc.errors."
    | .breach .. => "jadoc.errors."
    | .foreign _ => "__main__."
    | _ => ""
  "<class '" ++ package ++ v.typeName ++ "'>"

end Value

end JsonApi
