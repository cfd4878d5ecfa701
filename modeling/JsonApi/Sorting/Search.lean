/-!
Searching in a list whose items in front are expected to satisfy a condition that the others fail. The
condition may refuse an answer. If the expectation is wrong the result still is a place in the list,
and it depends on the items that are asked, so their order is part of the definitions.
-/

namespace JsonApi.Sorting

variable {α ε : Type}

inductive Side where
  | front
  | back
deriving DecidableEq, Repr

/-- The place of the middle item of so many. Items that were taken from the back are in reverse order,
and the middle of an even number of them is the same item as before. -/
def Side.middle : Side → Nat → Nat
  | .front, size => size / 2
  | .back, size => (size - 1) / 2

/-- How many items in front satisfy a condition, found by asking the middle of what is left. -/
def bisect (side : Side) (holds : α → Except ε Bool) (items : List α) : Except ε Nat :=
  match _shape : items.drop (side.middle items.length) with
  | [] => .ok 0
  | item :: after => do
    if ← holds item then
      let more ← bisect side holds after
      return side.middle items.length + 1 + more
    else bisect side holds (items.take (side.middle items.length))
termination_by items.length
decreasing_by
  · have size := congrArg List.length _shape
    simp only [List.length_drop, List.length_cons] at size ⊢
    omega
  · have size := congrArg List.length _shape
    simp only [List.length_drop, List.length_cons, List.length_take] at size ⊢
    omega

/-- Asks items at growing distances until one fails the condition: the place of the last one that
satisfies it, and a place behind it where the search ended. -/
def stride (holds : α → Except ε Bool) (items : List α) (last next : Nat) : Except ε (Nat × Nat) :=
  if inside : next < items.length then do
    if ← holds items[next] then stride holds items next (2 * next + 1)
    else return (last, next)
  else .ok (last, items.length)
termination_by items.length - next

def leading (side : Side) (holds : α → Except ε Bool) (items : List α) : Except ε Nat :=
  match items with
  | [] => .ok 0
  | first :: _ => do
    if ← holds first then
      let (last, limit) ← stride holds items 0 1
      let more ← bisect side holds ((items.take limit).drop (last + 1))
      return last + 1 + more
    else return 0

end JsonApi.Sorting
