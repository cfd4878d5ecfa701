import JsonApi.Response

/-!
Web applications: views answer requests, and a problem that a view reports becomes a document of
errors.
-/

namespace JsonApi

namespace Verbosity

/-- An application in debug mode lets the log show details. -/
def inApplication (v : Verbosity) (settings : Settings) : Verbosity :=
  if (settings.get "DEBUG").isTruthy then ⟨Level.debug.rank⟩ else v

end Verbosity

namespace Application

inductive View where
  | raises (v : Value)
  | returns (v : Value)
  | responds (order : Response.Order)

def errorOrder (p : Problem) : Response.Order where
  generator := .ofRequest ""
  family := []
  content := .sequence [.value p.toValue]
  status := none
  info := none

/-- Problems are answered, violations go on to the caller, and nothing else can be raised. -/
def answerRaised (settings : Settings) (debug : Bool) (request : Request) (v : Value) :
    Outcome Response :=
  match Problem.ofValue? v, v with
  | some p, _ => do
    Outcome.record .debug ("Returning errors document for " ++ p.kind.label)
    Response.make settings debug (some request) (errorOrder p)
  | none, .breach kind message => Outcome.stop (.breach (.reported kind message))
  | none, _ => Outcome.fail .wrongType

/-- A returned value is written with its members in order, over several lines in debug mode. -/
def answerReturned (settings : Settings) (debug : Bool) (v : Value) : Outcome Response := do
  let layout := if (settings.get "DEBUG").isTruthy then Json.Layout.indented else .compact
  let text ← v.jsonText ⟨debug, true⟩ layout
  return ⟨200, some Response.standardMediaType, text ++ "\n"⟩

def answer (settings : Settings) (debug : Bool) (request : Request) : View → Outcome Response
  | .raises v => answerRaised settings debug request v
  | .returns v => answerReturned settings debug v
  | .responds order => Response.make settings debug (some request) order

def isBodiless (status : Int) : Bool :=
  (100 ≤ status && status < 200) || status = 204 || status = 304

/-- A response as it arrives; one that says that nothing has changed has lost its media type. -/
def delivered (r : Response) : Response where
  status := r.status
  mediaType := if r.status = 304 then none else r.mediaType
  body := if isBodiless r.status then "" else r.body

def serve (settings : Settings) (debug : Bool) (request : Request) (view : View) :
    Outcome Response := do
  return delivered (← answer settings debug request view)

end Application

end JsonApi
