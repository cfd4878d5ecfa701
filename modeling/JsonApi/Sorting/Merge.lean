import JsonApi.Sorting.Search

/-!
Merging two runs. Items are compared one by one until one of the runs has come first many times in a
row; then whole stretches are searched for, as long as that pays. How many times are needed adapts to
the runs, from one merge to the next.
-/

namespace JsonApi.Sorting

variable {α ε : Type}

/-- A stretch of so many items is worth a search. -/
def longStretch : Nat := 7

/-- A merge: where it starts, and when an item of the shorter run lets one of the other run pass. -/
structure Contest (α ε : Type) where
  side : Side
  yields : α → α → Except ε Bool

/-- What is left once no comparison is needed any more: a run is used up, or only the far end of the
shorter run is left, which stays behind all others. -/
def settled? : List α → List α → Option (List α)
  | held, [] => some held
  | [], other => some other
  | [last], other => some (other ++ [last])
  | _, _ => none

/-- A stretch of items from one run and the item of the other run that ends it, unless the merge is
settled before. -/
structure Stretch (α : Type) where
  count : Nat
  taken : List α
  held : List α
  other : List α

namespace Contest

def stretchHeld (c : Contest α ε) (held other : List α) : Except ε (Stretch α) :=
  match other with
  | [] => .ok ⟨0, [], held, []⟩
  | next :: rest => do
    let count ← leading c.side (fun item => (!·) <$> c.yields item next) held
    if (settled? (held.drop count) other).isSome then
      return ⟨count, held.take count, held.drop count, other⟩
    else return ⟨count, held.take count ++ [next], held.drop count, rest⟩

def stretchOther (c : Contest α ε) (held other : List α) : Except ε (Stretch α) :=
  match held with
  | [] => .ok ⟨0, [], [], other⟩
  | next :: rest => do
    let count ← leading c.side (fun item => c.yields next item) other
    if (settled? held (other.drop count)).isSome then
      return ⟨count, other.take count, held, other.drop count⟩
    else return ⟨count, other.take count ++ [next], rest, other.drop count⟩

/-- A stretch of each run; at the back the other run has the first one. -/
def stretches (c : Contest α ε) (held other : List α) : Except ε (Stretch α × Stretch α) := do
  match c.side with
  | .front =>
    let first ← c.stretchHeld held other
    return (first, ← ending c.stretchOther first)
  | .back =>
    let first ← c.stretchOther held other
    return (first, ← ending c.stretchHeld first)
where
  ending (more : List α → List α → Except ε (Stretch α)) (s : Stretch α) : Except ε (Stretch α) :=
    if (settled? s.held s.other).isSome then .ok ⟨0, [], s.held, s.other⟩
    else more s.held s.other

/-- How a merge goes on: item by item, after so many wins in a row, or in stretches. -/
inductive Mode where
  | single (heldWins otherWins : Nat)
  | stretches
deriving DecidableEq, Repr

/-- The merge of two runs in at most `steps` steps, and the number of wins in a row that the next merge
needs to go over to stretches. -/
def mergeWithin (c : Contest α ε) : Nat → Mode → Nat → List α → List α → Except ε (List α × Nat)
  | 0, _, wins, held, other => .ok (held ++ other, wins)
  | steps + 1, mode, wins, held, other =>
    match settled? held other, mode, held, other with
    | some rest, _, _, _ => .ok (rest, wins)
    | none, .single heldWins otherWins, h :: hs, o :: os => do
      if ← c.yields h o then
        let mode := if wins ≤ otherWins + 1 then .stretches else .single 0 (otherWins + 1)
        let (merged, wins) ← mergeWithin c steps mode wins held os
        return (o :: merged, wins)
      else
        let mode := if wins ≤ heldWins + 1 then .stretches else .single (heldWins + 1) 0
        let (merged, wins) ← mergeWithin c steps mode wins hs other
        return (h :: merged, wins)
    | none, _, held, other => do
      let (first, second) ← c.stretches held other
      let taken := first.taken ++ second.taken
      match settled? second.held second.other with
      | some rest => return (taken ++ rest, wins)
      | none =>
        let (merged, wins) ←
          if longStretch ≤ first.count ∨ longStretch ≤ second.count then
            mergeWithin c steps .stretches (max (wins - 1) 1) second.held second.other
          else mergeWithin c steps (.single 0 0) (wins + 1) second.held second.other
        return (taken ++ merged, wins)

def merge (c : Contest α ε) (wins : Nat) (held other : List α) : Except ε (List α × Nat) :=
  match other with
  | [] => .ok (held, wins)
  | first :: rest => do
    let (merged, wins) ← c.mergeWithin (held.length + rest.length) (.single 0 0) wins held rest
    return (first :: merged, wins)

end Contest

/-- The merge of two runs that overlap from end to end, walked through from the end of the shorter
one. -/
def mergeOverlap (less : α → α → Except ε Bool) (wins : Nat) (left right : List α) :
    Except ε (List α × Nat) :=
  if left.length ≤ right.length then
    Contest.merge ⟨.front, fun held other => less other held⟩ wins left right
  else do
    let (merged, wins) ←
      Contest.merge ⟨.back, fun held other => less held other⟩ wins right.reverse left.reverse
    return (merged.reverse, wins)

/-- The merge of two runs. Items of the left run that come before all of the right one, and those of
the right run that come behind all of the left one, stay where they are. -/
def merge (less : α → α → Except ε Bool) (wins : Nat) (left right : List α) :
    Except ε (List α × Nat) :=
  match right with
  | [] => .ok (left, wins)
  | first :: _ => do
    let before ← leading .front (fun item => (!·) <$> less first item) left
    match (left.drop before).getLast? with
    | none => return (left ++ right, wins)
    | some last =>
      let behind ← leading .back (fun item => (!·) <$> less item last) right.reverse
      let inside := right.length - behind
      if inside = 0 then return (left ++ right, wins)
      else
        let (merged, wins) ← mergeOverlap less wins (left.drop before) (right.take inside)
        return (left.take before ++ merged ++ right.drop inside, wins)

end JsonApi.Sorting
