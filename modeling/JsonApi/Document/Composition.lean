import JsonApi.Building.Resource
import JsonApi.Document.Basic
import JsonApi.Problem.Basic
import JsonApi.Query.Reference
import JsonApi.Settings
import JsonApi.Value.Encode
import JsonApi.Value.Members

/-!
Composing documents. The content of a document is errors or models; of models, everything that was
built on the way to the primary data and is not part of it is included next to it.
-/

namespace JsonApi

inductive Item where
  | model (place : Nat)
  | value (value : Value)

inductive Content where
  | single (item : Item)
  | sequence (items : List Item)
  /-- Items that can be walked through only once; they are never taken for errors. -/
  | stream (items : List Item)

namespace Value

def isErrorLike (v : Value) : Bool :=
  (ErrorObject.ofValue? v).isSome || (Problem.ofValue? v).isSome

/-- In a sequence a dictionary stands for an error as well. -/
def isErrorItem (v : Value) : Bool :=
  match v with
  | .dict _ => true
  | v => v.isErrorLike

end Value

namespace Item

def error? : Item → Option Value
  | .value v => if v.isErrorItem then some v else none
  | .model _ => none

end Item

inductive Subject where
  | errors (items : List Value)
  | one (place : Nat)
  | many (items : List Item)

namespace Subject

def ofSequence (items : List Item) : Except Fault Subject :=
  let errors := items.filterMap Item.error?
  if errors.isEmpty then .ok (.many items)
  else if errors.length = items.length then .ok (.errors errors)
  else .error .mixedContent

/-- A single value is an error, or a collection of what is met in walking through it. -/
def ofValue (v : Value) : Except Fault Subject :=
  match v with
  | .list items => ofSequence (items.map .value)
  | .tuple items => ofSequence (items.map .value)
  | v =>
    if v.isErrorLike then .ok (.errors [v])
    else match v.elements? with
      | some items => .ok (.many (items.map .value))
      | none => .error .wrongType

def ofContent (family : List Model) : Content → Except Fault Subject
  | .single (.model place) =>
    if (modelAt family place).isResourceful then .ok (.one place) else .error .wrongType
  | .single (.value v) => ofValue v
  | .sequence items => ofSequence items
  | .stream items => .ok (.many items)

end Subject

variable {γ : Type} [Uri.Layout γ]

namespace Build

def makeItem (plan : Plan γ) : Item → Build Instance
  | .model place => make plan place
  | .value v => fail (v.absenceFault "identifier")

def makeItems (plan : Plan γ) : List Item → Build (List Instance)
  | [] => return []
  | item :: rest => do
    let first ← makeItem plan item
    return first :: (← makeItems plan rest)

end Build

namespace Document

def includedIn (store : Store) (primary : List Identifier) : List Resource :=
  (store.values.map (·.resource)).filter fun resource => !primary.contains resource.identifier

def presentIncluded (resources : List Resource) : Option (List Resource) :=
  if resources.isEmpty then none else some resources

def summary (uri : String) (primary : List Identifier) (included : List Resource) : String :=
  "Built document for " ++ uri ++ ": " ++ toString primary.eraseDups.length ++ " primary, " ++
    toString included.length ++ " included resources"

def assemble (settings : Settings) (uri : String) (info : Option Members) (data : PrimaryData)
    (errors : Option (List ErrorObject)) (store : Store) : Outcome Document := do
  let primary := data.resources.map (·.identifier)
  let included := includedIn store primary
  Outcome.record .debug (summary uri primary included)
  Outcome.ofExcept (Document.checked {
    data := data
    errors := errors
    included := presentIncluded included
    links := some ⟨some uri, none, none⟩
    jsonapi := some (Info.ofVersion settings.version)
    info := info })

def errorObjects : List Value → Except Fault (List ErrorObject)
  | [] => .ok []
  | item :: rest => do
    let object ← ErrorObject.ofItem item
    return object :: (← errorObjects rest)

def ofSubject (settings : Settings) (plan : Plan γ) (uri : String) (info : Option Members) :
    Subject → Outcome Document
  | .errors items => do
    let objects ← Outcome.ofExcept (errorObjects items)
    assemble settings uri info .absent (some objects) .empty
  | .one place => do
    let (item, w) ← (Build.make plan place).run .empty
    assemble settings uri info (.one item.resource) none w.store
  | .many items => do
    let (items, w) ← (Build.makeItems plan items).run .empty
    assemble settings uri info (.many (items.map (·.resource))) none w.store

def compose (settings : Settings) (generator : γ) (family : List Model)
    (content : Content) (uri : String) (info : Option Members) : Outcome Document := do
  Outcome.recordAll (Query.recordsOfReference uri.toList)
  let subject ← Outcome.ofExcept (Subject.ofContent family content)
  ofSubject settings ⟨Query.ofReference uri.toList, generator, family⟩ uri info subject

def jsonText (debug : Bool) (d : Document) : Outcome String :=
  d.toValue.jsonText ⟨debug, false⟩ .spaced

end Document

end JsonApi
