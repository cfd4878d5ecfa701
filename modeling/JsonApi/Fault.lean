import JsonApi.Log
import JsonApi.Violation.Basic

/-!
Causes of failure. The wording of those that callers may show to users is kept in one function; the
others only have a sort.
-/

namespace JsonApi

inductive Step where
  | member (name : String)
  | index (i : Int)
deriving DecidableEq, Repr

inductive Complaint where
  | notText
  | notUnicode
  | notDictionary
  /-- Neither a dictionary nor an object of the model of that name. -/
  | notModel (name : String)
  | keyNotText
  | tooLong
deriving DecidableEq, Repr

namespace Complaint

def code : Complaint → String
  | .notText => "string_type"
  | .notUnicode => "string_unicode"
  | .notDictionary => "dict_type"
  | .notModel _ => "model_type"
  | .keyNotText => "invalid_key"
  | .tooLong => "value_error"

def message : Complaint → String
  | .notText => "Input should be a valid string"
  | .notUnicode => "Input should be a valid string, unable to parse raw data as a unicode string"
  | .notDictionary => "Input should be a valid dictionary"
  | .notModel name => "Input should be a valid dictionary or instance of " ++ name
  | .keyNotText => "Keys should be strings"
  | .tooLong => "Value error, Exceeds the limit (4300 digits) for integer string conversion; use " ++
    "sys.set_int_max_str_digits() to increase the limit"

end Complaint

structure Detail where
  place : List Step
  complaint : Complaint
deriving DecidableEq, Repr

inductive Fault where
  | breach (violation : Violation)
  /-- Resources and errors side by side in one document. -/
  | mixedContent
  /-- A relationship to something that is no related data, in its quoted form. -/
  | invalidRelated (form : String)
  /-- Something of the named class that is no error object. -/
  | notConvertible (className : String)
  | halfOrigin
  /-- A model of that class lacks an operation that it should offer. -/
  | missing (className operation : String)
  /-- A column, or a relation, in the place of a list that is searched. -/
  | unsearchable (isColumn : Bool)
  /-- A class without a key, with a column without a name, or with a relation in the place of a
  column. -/
  | invalidTable
  | repeatedColumn
  /-- A table or relation under the name of another table or of a column. -/
  | takenName
  /-- A relation to a class that is not there, or there more than once. -/
  | unclearTarget
  /-- A row that has lost what ties it to its table. -/
  | detached
  | invalidMembers (details : List Detail)
  /-- An operation on a value of another type than it takes. -/
  | wrongType
  /-- An operation that a value does not offer. -/
  | noSuchMember
  /-- A value outside the range of an operation. -/
  | wrongValue
  /-- A place outside a list. -/
  | noSuchPlace
  /-- A name that nothing goes by. -/
  | noSuchName
  | overflow
  /-- An undefined decimal where its value matters. -/
  | undefinedDecimal
  | outsideRequest
  /-- More nested resources than there are identifiers; no model graph reaches it. -/
  | tooDeep
deriving DecidableEq, Repr

namespace Fault

/-- What a fault says, where its wording is part of the interface. -/
def message? : Fault → Option String
  | .breach violation => some violation.message
  | .mixedContent => some "A document can't contain both resources and errors"
  | .invalidRelated form => some ("Invalid related data: " ++ form)
  | .notConvertible className =>
    some ("Can't convert " ++ className ++ " to a json:api error object")
  | .halfOrigin => some "URL protocol and host must either be both absent or both present."
  | .missing className operation => some (className ++ " should implement " ++ operation ++ "()")
  | .unsearchable true => some "Operator 'contains' is not supported on this expression"
  | .unsearchable false => some "<built-in function contains>"
  | _ => none

def record? : Fault → Option Record
  | .breach violation => some ⟨.error, violation.kind.label ++ ": " ++ violation.message⟩
  | _ => none

end Fault

end JsonApi
