import JsonApi.Value.Basic

/-!
The outline of a value: the same value with one stand-in for everything that documents have no form for.
Inside of an error object these are fewer values than elsewhere, since there the parts of error objects
have one.
-/

namespace JsonApi.Value

def standIn : Value := .foreign []

mutual
def outlineIn (inside : Bool) : Value → Value
  | .complex .. => standIn
  | .breach .. => standIn
  | .foreign _ => standIn
  | .list items => .list (outlineItems inside items)
  | .tuple items => .tuple (outlineItems inside items)
  | .set frozen items => .set frozen (outlineItems inside items)
  | .dict entries => .dict (outlineEntries inside entries)
  | .record shape fields extra =>
    if inside ∨ shape = .errorObject then
      .record shape (outlineFields true fields) (outlineFields true extra)
    else if shape.isOpen then standIn
    else .record shape (outlineFields false fields) extra
  | v => v

def outlineItems (inside : Bool) : List Value → List Value
  | [] => []
  | item :: rest => outlineIn inside item :: outlineItems inside rest

def outlineEntries (inside : Bool) : List (Value × Value) → List (Value × Value)
  | [] => []
  | (key, value) :: rest => (key, outlineIn inside value) :: outlineEntries inside rest

def outlineFields (inside : Bool) : List (String × Value) → List (String × Value)
  | [] => []
  | (name, value) :: rest => (name, outlineIn inside value) :: outlineFields inside rest
end

def outline (v : Value) : Value := outlineIn false v

end JsonApi.Value
