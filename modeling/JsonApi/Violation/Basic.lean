import JsonApi.Identifier.Basic
import JsonApi.Uri.Check
import JsonApi.Violation.Kind

/-!
Violations of what the document builder asks of its callers: they name no fault of a request, so no
document shows them.
-/

namespace JsonApi

inductive Violation where
  /-- A link to a resource that does not exist yet. -/
  | unlinkable (identifier : Identifier)
  /-- A stored resource that does not exist yet. -/
  | unstorable (identifier : Identifier)
  | invalidUri (uri : String) (flaw : Uri.Flaw)
  /-- A document with both primary data and errors. -/
  | dataAndErrors
  /-- A violation that the application itself reports. -/
  | reported (kind : Violation.Kind) (message : String)
deriving DecidableEq, Repr

namespace Violation

def kind : Violation → Kind
  | .unlinkable _ => .unpersisted
  | .unstorable _ => .unpersisted
  | .invalidUri .. => .invalidUri
  | .dataAndErrors => .contract
  | .reported kind _ => kind

def message : Violation → String
  | .unlinkable identifier =>
    "Attempted to generate URI for unpersisted resource " ++ identifier.describe
  | .unstorable identifier => "Can't cache unpersisted resource " ++ identifier.describe
  | .invalidUri uri flaw => "Generated an invalid URI: '" ++ uri ++ "'" ++ flaw.remark
  | .dataAndErrors => "A document can't contain both data and errors"
  | .reported _ message => message

end Violation

end JsonApi
