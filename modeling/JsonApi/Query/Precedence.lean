import JsonApi.Query.Basic
import JsonApi.Value.Order

/-!
The order that a request asks for, said without sorting: which of two items may come before the other.
-/

namespace JsonApi.Query

variable {α : Type}

def valueOf (member : α → String → Option Value) (field : String) (item : α) : Value :=
  (member item field).getD .null

/-- Whether a value may come before another. Null comes last in either direction. -/
def precedes (le : Value → Value → Bool) (descending : Bool) (v w : Value) : Bool :=
  w.isNull || (!v.isNull && if descending then le w v else le v w)

/-- Several orders of which the next one decides between items that share a place in one. -/
def inTurn : List (α → α → Bool) → α → α → Bool
  | [], _, _ => true
  | le :: rest, a, b => le a b && (!le b a || inTurn rest a b)

def fieldOrder (member : α → String → Option Value) (order : String → Value → Value → Bool)
    (field : SortField) (a b : α) : Bool :=
  precedes (order field.field) field.descending (valueOf member field.field a)
    (valueOf member field.field b)

def sortOrder (member : α → String → Option Value) (order : String → Value → Value → Bool)
    (fields : List SortField) : α → α → Bool :=
  inTurn (fields.map (fieldOrder member order))

end JsonApi.Query
