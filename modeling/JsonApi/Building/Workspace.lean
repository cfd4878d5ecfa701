import JsonApi.Model
import JsonApi.Store
import JsonApi.Uri.Layout

/-!
The state of a build: the resources so far and what was recorded about them. A failure leaves the
state as it was when it arose.
-/

namespace JsonApi

structure Plan (γ : Type := Except Fault String) where
  query : Query
  generator : γ
  family : List Model

structure Workspace where
  store : Store
  records : List Record
  /-- The serial of the next instance. -/
  serial : Nat

namespace Workspace

def empty : Workspace := ⟨.empty, [], 0⟩

end Workspace

abbrev Build := EStateM Fault Workspace

namespace Build

def record (level : Level) (message : String) : Build Unit :=
  modify fun w => { w with records := w.records ++ [⟨level, message⟩] }

def fail {α : Type} (fault : Fault) : Build α := do
  modify fun w => { w with records := w.records ++ fault.record?.toList }
  throw fault

def ofExcept {α : Type} : Except Fault α → Build α
  | .ok a => pure a
  | .error fault => fail fault

def ofOutcome {α : Type} (o : Outcome α) : Build α := do
  modify fun w => { w with records := w.records ++ o.records }
  match o.result with
  | .ok a => return a
  | .error fault => throw fault

def create (resource : Resource) : Build Instance := do
  let w ← get
  set { w with serial := w.serial + 1 }
  return ⟨w.serial, resource⟩

/-- The stored instance for an identifier. One whose type cannot be a key cannot be looked for. -/
def stored? (identifier : Identifier) : Build (Option Instance) := do
  if identifier.kind.isHashable then return (← get).store.find? identifier
  else fail .wrongType

def reserve (item : Instance) : Build Identifier := do
  let w ← get
  set { w with store := ← ofExcept (w.store.reserve item) }
  return item.identifier

def register (item : Instance) : Build Identifier := do
  let w ← get
  let store ← ofExcept (w.store.register item)
  set { w with store := store, records := w.records ++ (w.store.remark? item).toList }
  return item.identifier

def run {α : Type} (build : Build α) (w : Workspace) : Outcome (α × Workspace) :=
  match EStateM.run build w with
  | .ok a w => ⟨w.records, .ok (a, w)⟩
  | .error fault w => ⟨w.records, .error fault⟩

end Build

end JsonApi
