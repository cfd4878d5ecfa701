import JsonApi.Fault

/-!
Results of operations that may fail and that leave records behind. What was recorded before a
failure stays.
-/

namespace JsonApi

structure Outcome (α : Type) where
  records : List Record
  result : Except Fault α

namespace Outcome

instance {α : Type} : Inhabited (Outcome α) := ⟨[], .error .wrongType⟩

instance : Monad Outcome where
  pure a := ⟨[], .ok a⟩
  bind o f := match o.result with
    | .ok a => ⟨o.records ++ (f a).records, (f a).result⟩
    | .error fault => ⟨o.records, .error fault⟩

def fail {α : Type} (fault : Fault) : Outcome α := ⟨fault.record?.toList, .error fault⟩

/-- A failure that has been recorded before. -/
def stop {α : Type} (fault : Fault) : Outcome α := ⟨[], .error fault⟩

def recordAll (records : List Record) : Outcome Unit := ⟨records, .ok ()⟩

def record (level : Level) (message : String) : Outcome Unit := ⟨[⟨level, message⟩], .ok ()⟩

def ofExcept {α : Type} : Except Fault α → Outcome α
  | .ok a => pure a
  | .error fault => fail fault

def sequence {α : Type} : List (Outcome α) → Outcome (List α)
  | [] => pure []
  | o :: rest => do
    let a ← o
    let more ← sequence rest
    return a :: more

end Outcome

end JsonApi
