/-!
The sorts of violations, with the names that records give them.
-/

namespace JsonApi.Violation

inductive Kind where
  | contract
  | unpersisted
  | invalidUri
deriving DecidableEq, Repr

namespace Kind

def label : Kind → String
  | .contract => "ContractError"
  | .unpersisted => "UnpersistedResourceError"
  | .invalidUri => "InvalidUriError"

end Kind

end JsonApi.Violation
