import JsonApi.Value.Order

/-!
Plain forms of values inside error objects: there structured values become dictionaries of their
fields, and error objects and their parts drop the members that are absent. Outside of them only
whole error objects become plain. A set has no plain form if those of its elements are dictionaries.
-/

namespace JsonApi.Value

def plainName (shape : Shape) (name : String) : String :=
  if shape = .errorLinks ∧ name = "type_" then "type" else name

def presentMembers (shape : Shape) (fields extra : Members) : Members :=
  (fields.map fun field => (plainName shape field.1, field.2)).filter (fun field => !field.2.isNull) ++
    extra.filter fun member => !member.2.isNull

mutual
def dump : Value → Value
  | .list items => .list (dumpItems items)
  | .tuple items => .tuple (dumpItems items)
  | .set frozen items => .set frozen (dumpItems items)
  | .dict entries => .dict (dumpEntries entries)
  | .record shape fields extra =>
    if shape.isOpen then ofMembers (presentMembers shape (dumpFields fields) (dumpFields extra))
    else ofMembers (dumpFields fields)
  | v => v

def dumpItems : List Value → List Value
  | [] => []
  | item :: rest => dump item :: dumpItems rest

def dumpEntries : List (Value × Value) → List (Value × Value)
  | [] => []
  | (key, value) :: rest => (key, dump value) :: dumpEntries rest

def dumpFields : List (String × Value) → List (String × Value)
  | [] => []
  | (name, value) :: rest => (name, dump value) :: dumpFields rest
end

mutual
def hasPlainForm : Value → Bool
  | .list items => itemsHavePlainForm items
  | .tuple items => itemsHavePlainForm items
  | .set _ items => itemsHavePlainForm items && items.all fun item => isHashable (dump item)
  | .dict entries => entriesHavePlainForm entries
  | .record _ fields extra => fieldsHavePlainForm fields && fieldsHavePlainForm extra
  | _ => true

def itemsHavePlainForm : List Value → Bool
  | [] => true
  | item :: rest => hasPlainForm item && itemsHavePlainForm rest

def entriesHavePlainForm : List (Value × Value) → Bool
  | [] => true
  | (_, value) :: rest => hasPlainForm value && entriesHavePlainForm rest

def fieldsHavePlainForm : List (String × Value) → Bool
  | [] => true
  | (_, value) :: rest => hasPlainForm value && fieldsHavePlainForm rest
end

mutual
/-- Replaces the error objects of a value by their plain forms; one that has none stays. -/
def expand : Value → Value
  | .list items => .list (expandItems items)
  | .tuple items => .tuple (expandItems items)
  | .set frozen items => .set frozen (expandItems items)
  | .dict entries => .dict (expandEntries entries)
  | .record shape fields extra =>
    if shape = .errorObject ∧ hasPlainForm (.record shape fields extra) then
      dump (.record shape fields extra)
    else if shape.isOpen then .record shape fields extra
    else .record shape (expandFields fields) extra
  | v => v

def expandItems : List Value → List Value
  | [] => []
  | item :: rest => expand item :: expandItems rest

def expandEntries : List (Value × Value) → List (Value × Value)
  | [] => []
  | (key, value) :: rest => (key, expand value) :: expandEntries rest

def expandFields : List (String × Value) → List (String × Value)
  | [] => []
  | (name, value) :: rest => (name, expand value) :: expandFields rest
end

end JsonApi.Value
