import JsonApi.Json.Render
import JsonApi.Problem.Basic
import JsonApi.Sorting.Basic
import JsonApi.Value.Order

/-!
The JSON form of values. Values that JSON does not know have a form of their own; of a foreign object
only a stand-in is written, or its public attributes while details are shown. Whole numbers that are too
long to be written are refused.
-/

namespace JsonApi

structure Encoding where
  debug : Bool
  sorted : Bool
deriving DecidableEq, Repr

namespace Value

def keyName : Value → Except Fault String
  | .text s => .ok s
  | .int i =>
    if Text.isWritable i then .ok (String.ofList (Json.intChars i)) else .error .wrongValue
  | .double d => .ok (Json.doubleNotation.render d)
  | .bool b => .ok (if b then "true" else "false")
  | .null => .ok "null"
  | _ => .error .wrongType

def orderMembers {α : Type} (encoding : Encoding) (members : List (Value × α)) :
    Except Fault (List (Value × α)) :=
  if encoding.sorted then
    match Sorting.sort (fun a b : Value × α => less a.1 b.1) members with
    | .ok members => .ok members
    | .error refusal => .error refusal.toFault
  else .ok members

def encodeMembers (encoding : Encoding) (members : List (Value × Outcome Json)) : Outcome Json :=
  match orderMembers encoding members with
  | .error fault => Outcome.fail fault
  | .ok members => do
    let members ← Outcome.sequence (members.map fun member => do
      let name ← Outcome.ofExcept (keyName member.1)
      let json ← member.2
      return (name, json))
    return .object members

structure Part where
  name : String
  isAbsent : Bool
  json : Outcome Json

def Part.member (name : String) (p : Part) : Value × Outcome Json := (.text name, p.json)

def presentParts (parts : List Part) : List (Value × Outcome Json) :=
  (parts.filter fun p => !p.isAbsent).map fun p => p.member p.name

/-- The members of an identifier that a resource takes in. An id is a text, so whatever is recorded or
goes wrong has to do with the type. -/
def splicedMembers (json : Outcome Json) : List (Value × Outcome Json) :=
  match json.result with
  | .ok (.object members) => members.map fun member =>
    (.text member.1, ⟨if member.1 = "type" then json.records else [], .ok member.2⟩)
  | .ok _ => []
  | .error fault => [(.text "type", ⟨json.records, .error fault⟩)]

def linkName (name : String) : String := if name = "self_" then "self" else name

def encodeShape (encoding : Encoding) (shape : Shape) (parts : List Part) : Outcome Json :=
  match shape, parts with
  | .existing, [kind, id] => encodeMembers encoding [kind.member "type", id.member "id"]
  | .new, [kind, lid] =>
    encodeMembers encoding (kind.member "type" :: presentParts [{ lid with name := "lid" }])
  | .emptyLinkage, _ => pure .null
  | .toOne, [identifier] => identifier.json
  | .toMany, [identifiers] => identifiers.json
  | .links, parts =>
    encodeMembers encoding (presentParts (parts.map fun p => { p with name := linkName p.name }))
  | .resource, identifier :: parts =>
    encodeMembers encoding (splicedMembers identifier.json ++ presentParts parts)
  | .document, data :: errors :: parts =>
    let main := if errors.isAbsent then data.member "data" else errors.member "errors"
    encodeMembers encoding (main :: presentParts parts)
  | _, parts => encodeMembers encoding (presentParts parts)

def isPublic (name : String) : Bool := name.toList.head? ≠ some '_'

def encodeInt (i : Int) : Outcome Json :=
  if Text.isWritable i then pure (.int i) else Outcome.fail .wrongValue

def attributeJson : Value → Outcome Json
  | .null => pure .null
  | .bool b => pure (.bool b)
  | .int i => encodeInt i
  | .double d => pure (.double d)
  | v => pure (.text v.display)

/-- The public attributes of an object that JSON has no form for, or its plain text if it has no
attributes at all. -/
def publicForm (encoding : Encoding) (v : Value) : Outcome Json :=
  let attributes? : Option Members := match v with
    | .foreign attributes => some attributes
    | .record _ fields _ => some fields
    | .breach .. => some []
    | _ => none
  match attributes? with
  | none => pure (.text v.display)
  | some attributes =>
    encodeMembers encoding ((attributes.filter fun member => isPublic member.1).map
      fun member => (.text member.1, attributeJson member.2))

def unknownForm (encoding : Encoding) (v : Value) : Outcome Json :=
  if encoding.debug then publicForm encoding v
  else do
    Outcome.record .warning
      ("JSON Encoding Error: Unknown object type \"" ++ v.className ++ "\" for " ++ v.display)
    return .object [("error", .text "JADocJSONEncoder invalid object")]

def encodeBytes (content : List UInt8) : Outcome Json :=
  if content = [] then pure (.text "")
  else do
    Outcome.record .debug "JADocJSONEncoder: serializing bytes obj"
    return .text (Text.hexOfBytes content)

def encodeDecimal (d : Decimal) : Outcome Json :=
  match Double.ofDecimal? d with
  | some d => pure (.double d)
  | none => Outcome.fail .wrongValue

def encodeTextMembers (encoding : Encoding) (members : Members) : Outcome Json :=
  encodeMembers encoding (members.map fun member =>
    (.text member.1, match member.2 with
      | .text s => pure (.text s)
      | .dict entries => encodeMembers encoding (entries.map fun entry =>
        (entry.1, attributeJson entry.2))
      | _ => pure .null))

def encodeProblem (encoding : Encoding) (p : Problem) : Outcome Json :=
  match p.toErrorObject with
  | .error fault => Outcome.fail fault
  | .ok object => encodeTextMembers encoding object.members

def isLeftError : Value → Bool
  | .record shape _ _ => shape = .errorObject
  | _ => false

/-- Whether one of the errors of a document has no plain form; then nothing of the document is
written. -/
def hasLeftError (shape : Shape) (fields : Members) : Bool :=
  shape = .document && match Entries.get? fields "errors" with
    | some (.list errors) => errors.any isLeftError
    | _ => false

mutual
/-- The JSON form of a value whose error objects have been replaced by their plain forms. -/
def encodePlain (encoding : Encoding) : Value → Outcome Json
  | .null => pure .null
  | .bool b => pure (.bool b)
  | .int i => encodeInt i
  | .double d => pure (.double d)
  | .text s => pure (.text s)
  | .bytes content => encodeBytes content
  | .decimal d => encodeDecimal d
  | .uuid n => pure (.text (Uuid.display n))
  | .date d => pure (.text d.display)
  | .clock c => pure (.text c.display)
  | .moment m => pure (.text m.display)
  | .span s => pure (.text s.display)
  | .complex re im => unknownForm encoding (.complex re im)
  | .list items => do return .array (← Outcome.sequence (encodeItems encoding items))
  | .tuple items => do return .array (← Outcome.sequence (encodeItems encoding items))
  | .set _ items => do return .array (← Outcome.sequence (encodeItems encoding items))
  | .dict entries => encodeMembers encoding (encodeEntries encoding entries)
  | .record shape fields extra =>
    if shape = .errorObject ∨ hasLeftError shape fields then Outcome.fail .wrongType
    else if shape.isOpen then unknownForm encoding (.record shape fields extra)
    else encodeShape encoding shape (encodeFields encoding fields)
  | .problem kind detail message status code parameter =>
    encodeProblem encoding ⟨kind, detail, message, status, code, parameter⟩
  | .breach kind message => unknownForm encoding (.breach kind message)
  | .foreign attributes => unknownForm encoding (.foreign attributes)

def encodeItems (encoding : Encoding) : List Value → List (Outcome Json)
  | [] => []
  | item :: rest => encodePlain encoding item :: encodeItems encoding rest

def encodeEntries (encoding : Encoding) : List (Value × Value) → List (Value × Outcome Json)
  | [] => []
  | (key, value) :: rest => (key, encodePlain encoding value) :: encodeEntries encoding rest

def encodeFields (encoding : Encoding) : List (String × Value) → List Part
  | [] => []
  | (name, value) :: rest =>
    ⟨name, value.isNull, encodePlain encoding value⟩ :: encodeFields encoding rest
end

def encode (encoding : Encoding) (v : Value) : Outcome Json := encodePlain encoding (expand v)

/-- The JSON form that a value has by the rules for what JSON does not know; to those even plain
numbers, texts, lists and dictionaries are foreign. -/
def encodeForeign (encoding : Encoding) (v : Value) : Outcome Json :=
  match v with
  | .bool _ | .int _ | .double _ | .text _ | .list _ | .dict _ => unknownForm encoding v
  | v => encode encoding v

def jsonText (encoding : Encoding) (layout : Json.Layout) (v : Value) : Outcome String := do
  return Json.render layout (← encode encoding v)

end Value

end JsonApi
