import JsonApi.ErrorObject.Validation
import JsonApi.Outcome

/-!
Problems of a request that an application reports. Only a validation problem always shows its message
in the response; the others show it while the log is loud enough for details.
-/

namespace JsonApi

structure Problem where
  kind : Problem.Kind
  detail : String
  message : Value
  status : Value
  code : Value
  parameter : Value

namespace Problem

def hiddenDetail : String := "(debug logging disabled)"

structure Report where
  message : Option Value
  status : Option Value
  code : Option Value
  parameter : Option Value

namespace Report

/-- A general problem takes no report, a failure needs a message, and only a validation problem has a
parameter. -/
def fits (r : Report) : Kind → Bool
  | .general => r.message.isNone && r.status.isNone && r.code.isNone && r.parameter.isNone
  | .failed => r.message.isSome && r.parameter.isNone
  | .invalid => true
  | _ => r.parameter.isNone

end Report

def recordOf (kind : Kind) (message : Value) : Option Record :=
  match kind with
  | .general => none
  | .notFound => some ⟨.error, "Not found: " ++ message.display⟩
  | .forbidden => some ⟨.error, "UnAuthorizedError: " ++ message.display⟩
  | .failed => some ⟨.error, "Generic Error: " ++ message.display⟩
  | .invalid => some ⟨.warning, "ValidationError: " ++ message.display⟩

/-- The part of the detail that depends on the message; except for failures it has to be a text to be
shown. -/
def shownMessage? (debug : Bool) (kind : Kind) (message : Value) : Option String :=
  match kind with
  | .general => some ""
  | .failed => some (if debug then message.display else hiddenDetail)
  | .notFound | .forbidden =>
    if debug then
      match message with
      | .text s => some s
      | _ => none
    else some hiddenDetail
  | .invalid =>
    match message with
    | .text s => some s
    | _ => none

/-- The problem that an application reports; it is recorded first. -/
def report (debug : Bool) (kind : Kind) (r : Report) : Outcome Problem :=
  if !r.fits kind then Outcome.fail .wrongType
  else
    let message := r.message.getD (.text "")
    ⟨(recordOf kind message).toList,
      match shownMessage? debug kind message with
      | none => .error .wrongType
      | some shown =>
        .ok {
          kind := kind
          detail := kind.lead ++ shown
          message := message
          status := r.status.getD (.int kind.status)
          code := r.code.getD .null
          parameter := r.parameter.getD .null }⟩

def toValue (p : Problem) : Value :=
  .problem p.kind p.detail p.message p.status p.code p.parameter

def ofValue? : Value → Option Problem
  | .problem kind detail message status code parameter =>
    some ⟨kind, detail, message, status, code, parameter⟩
  | _ => none

def entries (p : Problem) : List (Value × Value) :=
  [(.text "status", p.status), (.text "code", p.code), (.text "title", .text p.kind.title),
    (.text "detail", .text p.detail)]

/-- The error object of a problem; the parameter shows as its source if it counts as true. -/
def toErrorObject (p : Problem) : Except Fault ErrorObject := do
  let object ← ErrorObject.ofEntries p.entries
  if p.kind = .invalid ∧ p.parameter.isTruthy then
    let source ← ErrorObject.accept
      (ErrorObject.checkSourceMembers [(.text "parameter", p.parameter)])
    return { object with source := some source }
  else return object

end Problem

namespace ErrorObject

def ofItem (item : Value) : Except Fault ErrorObject :=
  match ofValue? item, Problem.ofValue? item, item with
  | some object, _, _ => .ok object
  | none, some problem, _ => problem.toErrorObject
  | none, none, .dict entries => ofEntries entries
  | none, none, item => .error (.notConvertible item.className)

end ErrorObject

end JsonApi
