import JsonApi.Json.Basic

/-!
Trees whose objects have their members in order, at every depth. Names compare by code points, and members
of the same name stay in the order in which they are.
-/

namespace JsonApi.Json

def nameLe {β : Type} (one other : String × β) : Bool := decide (one.1 ≤ other.1)

mutual
def inOrder : Json → Json
  | .array items => .array (itemsInOrder items)
  | .object members => .object ((membersInOrder members).mergeSort nameLe)
  | json => json

def itemsInOrder : List Json → List Json
  | [] => []
  | item :: rest => inOrder item :: itemsInOrder rest

def membersInOrder : List (String × Json) → List (String × Json)
  | [] => []
  | (name, value) :: rest => (name, inOrder value) :: membersInOrder rest
end

theorem itemsInOrder_eq_map (items : List Json) : itemsInOrder items = items.map inOrder := by
  induction items with
  | nil => rw [itemsInOrder, List.map_nil]
  | cons item rest ih => rw [itemsInOrder, ih, List.map_cons]

theorem membersInOrder_eq_map (members : List (String × Json)) :
    membersInOrder members = members.map fun member => (member.1, inOrder member.2) := by
  induction members with
  | nil => rw [membersInOrder, List.map_nil]
  | cons member rest ih => rw [membersInOrder, ih, List.map_cons]

theorem inOrder_array (items : List Json) : inOrder (.array items) = .array (items.map inOrder) := by
  rw [inOrder, itemsInOrder_eq_map]

theorem inOrder_object (members : List (String × Json)) : inOrder (.object members) =
    .object ((members.map fun member => (member.1, inOrder member.2)).mergeSort nameLe) := by
  rw [inOrder, membersInOrder_eq_map]

end JsonApi.Json
