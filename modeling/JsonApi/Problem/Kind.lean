/-!
The sorts of problems that a response may report, with the texts and status codes that go with them.
-/

namespace JsonApi.Problem

inductive Kind where
  | general
  | notFound
  | forbidden
  | failed
  | invalid
deriving DecidableEq, Repr, Inhabited

namespace Kind

def label : Kind → String
  | .general => "JsonapiError"
  | .notFound => "NotFoundError"
  | .forbidden => "UnAuthorizedError"
  | .failed => "GenericError"
  | .invalid => "ValidationError"

def status : Kind → Nat
  | .general => 500
  | .notFound => 404
  | .forbidden => 403
  | .failed => 500
  | .invalid => 400

def title : Kind → String
  | .general => "Internal Server Error"
  | .notFound => "Not Found"
  | .forbidden => "Forbidden"
  | .failed => "Internal Server Error"
  | .invalid => "Bad Request"

def lead : Kind → String
  | .general => ""
  | .notFound => "NotFoundError "
  | .forbidden => "Authorization Error: "
  | .failed => "Generic Error: "
  | .invalid => "Validation Error: "

end Kind

end JsonApi.Problem
