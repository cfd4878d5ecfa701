import JsonApi.Fault
import JsonApi.Identifier.Sameness
import JsonApi.Resource

/-!
The resources of one build, one for each identifier. A resource whose relationships are still being
built is reserved: a placeholder stands in for it until the finished resource is registered. Whatever
is registered first stays, and nothing is ever removed. Main statements: what each operation does to
look-up, and that the identifiers only grow at the end.

Resources are looked for by what their identifiers mean, but placed by how these are written. For types
that are texts this makes no difference. For other types it is up to whoever fills a store to look
first, as a build does, that nothing is there which means the same.
-/

namespace JsonApi

/-- A resource as it was made once; two instances may look alike. -/
structure Instance where
  serial : Nat
  resource : Resource

namespace Instance

def identifier (item : Instance) : Identifier := item.resource.identifier

end Instance

structure Store where
  entries : List (Identifier × Instance)
  reserved : List Identifier

namespace Store

def empty : Store := ⟨[], []⟩

def get? (s : Store) (identifier : Identifier) : Option Instance :=
  Entries.get? s.entries identifier

/-- The first instance whose identifier means the same resource. -/
def find? (s : Store) (identifier : Identifier) : Option Instance :=
  (s.entries.find? fun entry => entry.1.isSame identifier).map (·.2)

def has (s : Store) (identifier : Identifier) : Bool := (s.find? identifier).isSome

def values (s : Store) : List Instance := s.entries.map (·.2)

def identifiers (s : Store) : List Identifier := Entries.keys s.entries

def size (s : Store) : Nat := s.entries.length

def isEmpty (s : Store) : Bool := s.entries.isEmpty

def hold (s : Store) (item : Instance) : Store :=
  match s.get? item.identifier with
  | some _ => s
  | none =>
    { entries := Entries.put s.entries item.identifier item
      reserved := s.reserved ++ [item.identifier] }

/-- Takes in an instance, unless another one than a placeholder is there. -/
def keep (s : Store) (item : Instance) : Store :=
  match s.get? item.identifier with
  | none => { s with entries := Entries.put s.entries item.identifier item }
  | some current =>
    if item.identifier ∈ s.reserved ∧ current.serial ≠ item.serial then
      { entries := Entries.put s.entries item.identifier item
        reserved := s.reserved.filter (· ≠ item.identifier) }
    else s

theorem find?_isSome_of_mem {s : Store} {identifier : Identifier}
    (present : identifier ∈ s.identifiers) : (s.find? identifier).isSome = true := by
  obtain ⟨entry, member, rfl⟩ := List.mem_map.mp present
  rw [find?, Option.isSome_map, List.find?_isSome]
  exact ⟨entry, member, entry.1.isSame_refl⟩

theorem get?_hold (s : Store) (item : Instance) (other : Identifier) :
    (s.hold item).get? other =
      if item.identifier = other ∧ s.get? other = none then some item else s.get? other := by
  unfold hold
  cases found : s.get? item.identifier with
  | some current =>
    by_cases same : item.identifier = other
    · subst same
      simp [found]
    · simp [same]
  | none =>
    simp only [get?, Entries.get?_put]
    by_cases same : item.identifier = other
    · subst same
      have absent : Entries.get? s.entries item.identifier = none := found
      simp [absent]
    · simp [same]

theorem keep_of_settled {s : Store} {item current : Instance}
    (found : s.get? item.identifier = some current) (settled : item.identifier ∉ s.reserved) :
    s.keep item = s := by
  simp [keep, found, settled]

theorem get?_keep_of_ne {s : Store} {item : Instance} {other : Identifier}
    (different : item.identifier ≠ other) : (s.keep item).get? other = s.get? other := by
  unfold keep
  split
  · simp [get?, Entries.get?_put, different]
  · split
    · simp [get?, Entries.get?_put, different]
    · rfl

theorem identifiers_put (s : Store) (item : Instance) :
    Entries.keys (Entries.put s.entries item.identifier item) =
      if item.identifier ∈ s.identifiers then s.identifiers
      else s.identifiers ++ [item.identifier] := by
  by_cases present : item.identifier ∈ s.identifiers <;>
    simp_all [identifiers, Entries.keys_put]

theorem identifiers_hold (s : Store) (item : Instance) :
    (s.hold item).identifiers =
      if item.identifier ∈ s.identifiers then s.identifiers
      else s.identifiers ++ [item.identifier] := by
  unfold hold
  cases found : s.get? item.identifier with
  | some current =>
    have present : item.identifier ∈ s.identifiers := Entries.mem_keys_of_get? found
    simp [present]
  | none => exact identifiers_put s item

theorem identifiers_keep (s : Store) (item : Instance) :
    (s.keep item).identifiers =
      if item.identifier ∈ s.identifiers then s.identifiers
      else s.identifiers ++ [item.identifier] := by
  unfold keep
  cases found : s.get? item.identifier with
  | none => exact identifiers_put s item
  | some current =>
    have present : item.identifier ∈ s.identifiers := Entries.mem_keys_of_get? found
    simp only [present, if_true]
    split
    · exact (identifiers_put s item).trans (if_pos present)
    · rfl

def remark? (s : Store) (item : Instance) : Option Record :=
  match s.get? item.identifier with
  | none => none
  | some current =>
    if item.identifier ∉ s.reserved ∧ current.serial ≠ item.serial then
      some ⟨.debug, item.identifier.describe ++ " already registered, keeping the first instance"⟩
    else none

def accept (s : Store) (item : Instance) (change : Store → Instance → Store) : Except Fault Store :=
  if item.identifier.isPersisted then .ok (change s item)
  else .error (.breach (.unstorable item.identifier))

def reserve (s : Store) (item : Instance) : Except Fault Store := s.accept item hold

def register (s : Store) (item : Instance) : Except Fault Store := s.accept item keep

end Store

end JsonApi
