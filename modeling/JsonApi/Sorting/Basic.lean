import JsonApi.Sorting.Merge
import JsonApi.Sorting.Run

/-!
A stable sort by a comparison that may refuse. The list is cut into runs, and neighbouring runs are
merged, the more halvings of the whole list it takes to tell their middles apart the earlier.
-/

namespace JsonApi.Sorting

variable {α ε : Type}

/-- The least length of a run: the whole length halved until it is below 64, and one more if anything
was lost on the way. -/
def leastRun (size : Nat) (isRounded : Bool) : Nat :=
  if size < 64 then size + isRounded.toNat
  else leastRun (size / 2) (isRounded || size % 2 == 1)
termination_by size

/-- How many halvings of `total` leave two places in the same part. Places are given doubled, since the
middle of a run may lie between two items. -/
def sharedHalvings (total first second : Nat) : Nat :=
  ((List.range (total.log2 + 2)).find? fun count =>
    first * Nat.pow 2 count / total ≠ second * Nat.pow 2 count / total).getD 0

/-- A run that waits for its neighbour to the right, with the halvings that their middles share. -/
structure Waiting (α : Type) where
  halvings : Nat
  run : List α

/-- Runs that wait, the last one first, and the run behind them. -/
structure Pending (α : Type) where
  waiting : List (Waiting α)
  last : List α
  wins : Nat

namespace Pending

def start (p : Pending α) : Nat := (p.waiting.map fun w => w.run.length).foldr (· + ·) 0

/-- Merges the last run with those in front of it that share more halvings with it than `halvings`. -/
def mergeDeeper (less : α → α → Except ε Bool) (halvings : Nat) :
    List (Waiting α) → List α → Nat → Except ε (Pending α)
  | [], last, wins => .ok ⟨[], last, wins⟩
  | w :: waiting, last, wins =>
    if halvings < w.halvings then do
      let (last, wins) ← merge less wins w.run last
      mergeDeeper less halvings waiting last wins
    else .ok ⟨w :: waiting, last, wins⟩

def push (less : α → α → Except ε Bool) (total : Nat) (p : Pending α) (run : List α) :
    Except ε (Pending α) := do
  let middle := 2 * p.start + p.last.length
  let halvings := sharedHalvings total middle (middle + p.last.length + run.length)
  let p ← mergeDeeper less halvings p.waiting p.last p.wins
  return ⟨⟨halvings, p.last⟩ :: p.waiting, run, p.wins⟩

/-- Merges all runs; a last run that is longer than the third last one waits until the two in front of
it are merged. -/
def mergeAll (less : α → α → Except ε Bool) :
    List (Waiting α) → List α → Nat → Except ε (List α)
  | [], last, _ => .ok last
  | [w], last, wins => Prod.fst <$> merge less wins w.run last
  | w :: v :: waiting, last, wins =>
    if v.run.length < last.length then do
      let (run, wins) ← merge less wins v.run w.run
      mergeAll less (⟨v.halvings, run⟩ :: waiting) last wins
    else do
      let (last, wins) ← merge less wins w.run last
      mergeAll less (v :: waiting) last wins
termination_by waiting => waiting.length

end Pending

def sortRest (less : α → α → Except ε Bool) (total : Nat) (p : Pending α) :
    List α → Except ε (List α)
  | [] => Pending.mergeAll less p.waiting p.last p.wins
  | first :: rest => do
    let run ← nextRun less (leastRun total false) first rest
    let p ← p.push less total run
    sortRest less total p (rest.drop (run.length - 1))
termination_by items => items.length
decreasing_by
  simp only [List.length_drop, List.length_cons]
  omega

def sort (less : α → α → Except ε Bool) (items : List α) : Except ε (List α) :=
  match items with
  | [] => .ok []
  | first :: rest => do
    let run ← nextRun less (leastRun items.length false) first rest
    sortRest less items.length ⟨[], run, longStretch⟩ (rest.drop (run.length - 1))

end JsonApi.Sorting
