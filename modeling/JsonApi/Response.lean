import JsonApi.Document.Composition
import JsonApi.Uri.Generator

/-!
Responses to requests: a document with a status that its errors agree on, and the configured media
type.
-/

namespace JsonApi

structure Response where
  status : Int
  mediaType : Option String
  body : String
deriving DecidableEq, Repr

namespace ErrorObject

/-- The status code of an error; one that is missing or unreadable counts as 500. -/
def statusCode (e : ErrorObject) : Int :=
  match e.status with
  | some status => (Text.readInteger? status.toList).getD 500
  | none => 500

end ErrorObject

namespace Response

def isClientError (status : Int) : Bool := 400 ≤ status && status < 500

/-- The status that stands for several: the one they share, or the most general of their class. -/
def commonStatus : List Int → Int
  | [] => 500
  | status :: rest =>
    if rest.all (· = status) then status
    else if isClientError status && rest.all isClientError then 400
    else 500

def statusOf (errors : List ErrorObject) : Int := commonStatus (errors.map ErrorObject.statusCode)

def documentStatus (d : Document) : Int :=
  match d.errors with
  | some errors => statusOf errors
  | none => 200

def standardMediaType : String := "application/vnd.api+json"

/-- Blanks around a media type; the four information separators are among them. -/
def isTrimmed (c : Char) : Bool := Text.isBlank c || (28 ≤ c.toNat && c.toNat ≤ 31)

def plainMediaType (text : String) : Option String :=
  if text = "" then none
  else some (String.ofList (Text.strip isTrimmed (Text.cut ';' text.toList).1))

def mediaTypeOf : Value → Except Fault (Option String)
  | .null => .ok (some standardMediaType)
  | .text text =>
    if '\n' ∈ text.toList ∨ '\r' ∈ text.toList then .error .wrongValue else .ok (plainMediaType text)
  | .bytes _ => .error .wrongType
  | _ => .error .noSuchMember

/-- What a response is made from. Without a status of its own it takes that of the document. -/
structure Order where
  generator : Uri.Generator
  family : List Model
  content : Content
  status : Option Int
  info : Option Members

/-- Responses only go to requests. -/
def make (settings : Settings) (debug : Bool) (request : Option Request) (order : Order) :
    Outcome Response :=
  match request with
  | none => Outcome.fail .outsideRequest
  | some request => do
    let base := order.generator.base settings (some request)
    let document ← Document.compose settings base order.family order.content request.url order.info
    let body ← document.jsonText debug
    let mediaType ← Outcome.ofExcept (mediaTypeOf settings.mediaType)
    return ⟨order.status.getD (documentStatus document), mediaType, body⟩

end Response

end JsonApi
