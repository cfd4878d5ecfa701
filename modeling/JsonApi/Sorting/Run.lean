import JsonApi.Sorting.Search

/-!
Runs: sorted pieces of a list. The longest piece in front, ascending or strictly descending, is taken
as it is or reversed; a short one grows by further items, each behind all that it is not less than.
-/

namespace JsonApi.Sorting

variable {α ε : Type}

def ascending (less : α → α → Except ε Bool) (last : α) : List α → Except ε (List α × List α)
  | [] => .ok ([], [])
  | next :: rest => do
    if ← less next last then return ([], next :: rest)
    else
      let (run, rest) ← ascending less next rest
      return (next :: run, rest)

def descending (less : α → α → Except ε Bool) (last : α) : List α → Except ε (List α × List α)
  | [] => .ok ([], [])
  | next :: rest => do
    if ← less next last then
      let (run, rest) ← descending less next rest
      return (next :: run, rest)
    else return ([], next :: rest)

def leadingRun (less : α → α → Except ε Bool) (first : α) : List α → Except ε (List α × List α)
  | [] => .ok ([first], [])
  | second :: rest => do
    if ← less second first then
      let (run, rest) ← descending less second rest
      return ((first :: second :: run).reverse, rest)
    else
      let (run, rest) ← ascending less second rest
      return (first :: second :: run, rest)

/-- Puts an item into a run, behind all items that it is not less than. -/
def insert (less : α → α → Except ε Bool) (item : α) (run : List α) : Except ε (List α) := do
  let place ← bisect .front (fun other => (!·) <$> less item other) run
  return run.take place ++ item :: run.drop place

def insertAll (less : α → α → Except ε Bool) : List α → List α → Except ε (List α)
  | run, [] => .ok run
  | run, item :: rest => do
    let run ← insert less item run
    insertAll less run rest

/-- The run that a list starts with; one that is shorter than `least` takes in the items behind it. -/
def nextRun (less : α → α → Except ε Bool) (least : Nat) (first : α) (rest : List α) :
    Except ε (List α) := do
  let (run, rest) ← leadingRun less first rest
  insertAll less run (rest.take (least - run.length))

end JsonApi.Sorting
