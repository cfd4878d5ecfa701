import JsonApi.Building.Linking

/-!
Building resources from models. A resource is reserved before its relationships are followed, so a
model that refers back to it finds the placeholder, and cycles end.
-/

namespace JsonApi.Build

variable {γ : Type}

def identifiersOf (family : List Model) : List Nat → Build (List Identifier)
  | [] => return []
  | place :: rest => do
    let identifier ← ofOutcome (modelAt family place).identifier
    return identifier :: (← identifiersOf family rest)

def makeAll (make : Nat → Build Instance) : List Nat → Build (List Instance)
  | [] => return []
  | place :: rest => do
    let item ← make place
    return item :: (← makeAll make rest)

def recordInclusion (name : String) : Build Unit := record .debug ("Including " ++ name)

def followOne (plan : Plan γ) (make : Nat → Build Instance) (name : String) :
    Option Nat → Build RelatedData
  | none => return .none
  | some place =>
    if plan.query.includes name then do
      recordInclusion name
      return .built (← make place)
    else return .reference (← ofOutcome (modelAt plan.family place).identifier)

def followMany (plan : Plan γ) (make : Nat → Build Instance) (name : String) (places : List Nat) :
    Build RelatedData := do
  if plan.query.includes name then
    recordInclusion name
    return .builtAll (← makeAll make places)
  else return .references (← identifiersOf plan.family places)

def followStray (plan : Plan γ) (name : String) (fault : Fault) : Build RelatedData := do
  if plan.query.includes name then recordInclusion name
  fail fault

def follow (plan : Plan γ) (make : Nat → Build Instance) (name : String) :
    Related → Build RelatedData
  | .absent => followOne plan make name none
  | .one place => followOne plan make name (some place)
  | .many places => followMany plan make name places
  | .stray fault => followStray plan name fault
  | .foreign form => return .foreign form

def followAll (plan : Plan γ) (make : Nat → Build Instance) :
    List (String × Related) → Build (List (String × RelatedData))
  | [] => return []
  | (name, related) :: rest => do
    let data ← follow plan make name related
    return (name, data) :: (← followAll plan make rest)

def relatedData (plan : Plan γ) (make : Nat → Build Instance) (model : Model) :
    Build (Option (List (String × RelatedData))) := do
  match ← ofOutcome model.relations with
  | none => return none
  | some relations => return some (Entries.ofPairs (← followAll plan make relations))

variable [Uri.Layout γ]

def relate (plan : Plan γ) (make : Nat → Build Instance) (model : Model) (identifier : Identifier) :
    Build (Option (List (String × Relationship))) := do
  match ← relatedData plan make model with
  | none => return none
  | some data => return some (← linkAll plan.generator identifier data)

def placeholder (identifier : Identifier) (links : Links) : Resource :=
  ⟨identifier, none, none, some links, none⟩

def construct (plan : Plan γ) (make : Nat → Build Instance) (model : Model)
    (identifier : Identifier) : Build Instance := do
  let self ← ofExcept (Uri.Layout.resource plan.generator identifier)
  let links : Links := ⟨some self, none, none⟩
  let _ ← reserve (← create (placeholder identifier links))
  let attributes ← ofOutcome (model.attributesFor plan.query)
  let relationships ← relate plan make model identifier
  let info ← ofOutcome model.info
  let item ← create ⟨identifier, attributes, relationships, some links, info⟩
  let _ ← register item
  return item

def storedOr (model : Model) (otherwise : Identifier → Build Instance) : Build Instance := do
  let identifier ← ofOutcome model.identifier
  match ← stored? identifier with
  | some item => return item
  | none => otherwise identifier

/-- The resource of the model at a place, with at most `depth` more of them under construction at the
same time. -/
def makeWithin (plan : Plan γ) : Nat → Nat → Build Instance
  | 0, place => storedOr (modelAt plan.family place) fun _ => fail .tooDeep
  | depth + 1, place =>
    storedOr (modelAt plan.family place)
      (construct plan (makeWithin plan depth) (modelAt plan.family place))

/-- The resource of the model at a place. All resources under construction have identifiers of their
own, so there are never more of them than models. -/
def make (plan : Plan γ) (place : Nat) : Build Instance := makeWithin plan plan.family.length place

end JsonApi.Build
