import JsonApi.Number.Double

/-!
JSON trees. Members of an object keep their order, and a name may occur more than once.
-/

namespace JsonApi

inductive Json where
  | null
  | bool (b : Bool)
  | int (i : Int)
  | double (d : Double)
  | text (s : String)
  | array (items : List Json)
  | object (members : List (String × Json))
deriving Inhabited

namespace Json

def member? (name : String) : Json → Option Json
  | .object members => (members.find? fun m => m.1 == name).map (·.2)
  | _ => none

end Json

end JsonApi
