import JsonApi.Outcome
import JsonApi.Query.Basic
import JsonApi.Sorting.Basic
import JsonApi.Value.Order

/-!
Putting a collection in the order that a request asks for. The first field counts most; items without
a value for a field come last in both directions, and items that tie keep their order. A field that no
item has, or whose values are in no common order, changes nothing.
-/

namespace JsonApi.Query

/-- A value with a mark that decides first: in either direction the mark puts null behind. -/
structure OrderKey where
  mark : Bool
  value : Value

namespace OrderKey

def ofValue (descending : Bool) (v : Value) : OrderKey := ⟨v.isNull != descending, v⟩

def less (a b : OrderKey) : Except OrderFault Bool :=
  if a.mark ≠ b.mark then .ok b.mark
  else do if ← a.value.same b.value then return false else a.value.less b.value

end OrderKey

variable {α : Type}

/-- The items by their values; the reversal on both sides keeps ties in order. -/
def orderBy (value : α → Value) (descending : Bool) (items : List α) :
    Except OrderFault (List α) :=
  let less (a b : α) := OrderKey.less (.ofValue descending (value a)) (.ofValue descending (value b))
  if descending then (Sorting.sort less items.reverse).map List.reverse
  else Sorting.sort less items

def arrangeBy (member : α → String → Option Value) (items : List α) (field : SortField) :
    Outcome (List α) :=
  if items.all fun item => (member item field.field).isNone then do
    Outcome.record .debug ("No attribute " ++ field.field ++ " to sort on")
    return items
  else
    match orderBy (fun item => (member item field.field).getD .null) field.descending items with
    | .ok items => pure items
    | .error .undefined => Outcome.fail .undefinedDecimal
    | .error refusal => do
      Outcome.record .warning ("Sort failed for " ++ field.field ++ ": " ++ refusal.message)
      return items

/-- The fields of a sort order applied, the one that counts least first. -/
def arrangeAll (member : α → String → Option Value) (items : List α) :
    List SortField → Outcome (List α)
  | [] => pure items
  | field :: rest => do
    let items ← arrangeAll member items rest
    arrangeBy member items field

def arrange (q : Query) (member : α → String → Option Value) (items : List α) :
    Outcome (List α) :=
  arrangeAll member items (q.sort.getD [])

end JsonApi.Query
