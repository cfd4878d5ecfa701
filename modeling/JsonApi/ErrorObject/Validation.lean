import JsonApi.ErrorObject.Basic
import JsonApi.Fault
import JsonApi.Text.Utf8
import JsonApi.Value.Text

/-!
Error objects from dictionaries. Declared members are texts, in UTF-8 if they are bytes; a status may
also be a whole number that can be written, or a truth value. Everything that does not fit is reported
at once, in the order of the declaration.
-/

namespace JsonApi

/-- A value and all that is wrong with what it was read from. -/
structure Checked (α : Type) where
  value : α
  details : List Detail

namespace Checked

def fine {α : Type} (value : α) : Checked α := ⟨value, []⟩

def wrong {α : Type} (value : α) (place : List Step) (complaint : Complaint) : Checked α :=
  ⟨value, [⟨place, complaint⟩]⟩

def below {α : Type} (step : Step) (c : Checked α) : Checked α :=
  ⟨c.value, c.details.map fun detail => { detail with place := step :: detail.place }⟩

def map {α β : Type} (f : α → β) (c : Checked α) : Checked β := ⟨f c.value, c.details⟩

end Checked

namespace ErrorObject

def member? (entries : List (Value × Value)) (name : String) : Option Value :=
  match entries with
  | [] => none
  | (.text key, value) :: rest => if key = name then some value else member? rest name
  | _ :: rest => member? rest name

def checkText (name : String) : Option Value → Checked (Option String)
  | none => .fine none
  | some .null => .fine none
  | some (.text s) => .fine (some s)
  | some (.bytes content) =>
    match Text.Utf8.decode? content with
    | some text => .fine (some (String.ofList text))
    | none => .wrong none [.member name] .notUnicode
  | some _ => .wrong none [.member name] .notText

def checkStatus : Option Value → Checked (Option String)
  | some (.int i) =>
    if Text.isWritable i then .fine (some (toString i)) else .wrong none [.member "status"] .tooLong
  | some (.bool b) => .fine (some (if b then "1" else "0"))
  | value => checkText "status" value

/-- How a place names a key: whole numbers of up to 64 bits are kept as such. -/
def keyStep : Value → Step
  | .text s => .member s
  | .int i => if -Int.pow 2 63 ≤ i ∧ i < Int.pow 2 63 then .index i else .member (toString i)
  | .bool b => .index (if b then 1 else 0)
  | key => .member key.quoted

def checkExtra (declared : List String) : List (Value × Value) → Checked Members
  | [] => .fine []
  | (key, value) :: rest =>
    let others := checkExtra declared rest
    match key with
    | .text name =>
      if name ∈ declared then others else ⟨(name, value) :: others.value, others.details⟩
    | key => ⟨others.value, ⟨[keyStep key], .keyNotText⟩ :: others.details⟩

def checkLinksMembers (entries : List (Value × Value)) : Checked ErrorLinks :=
  let typeName := if (member? entries "type").isSome then "type" else "type_"
  let about := checkText "about" (member? entries "about")
  let type := checkText typeName (member? entries typeName)
  let extra := checkExtra ["about", typeName] entries
  ⟨⟨about.value, type.value, extra.value⟩, about.details ++ type.details ++ extra.details⟩

def checkSourceMembers (entries : List (Value × Value)) : Checked ErrorSource :=
  let pointer := checkText "pointer" (member? entries "pointer")
  let parameter := checkText "parameter" (member? entries "parameter")
  let header := checkText "header" (member? entries "header")
  let extra := checkExtra ["pointer", "parameter", "header"] entries
  ⟨⟨pointer.value, parameter.value, header.value, extra.value⟩,
    pointer.details ++ parameter.details ++ header.details ++ extra.details⟩

def checkLinks : Option Value → Checked (Option ErrorLinks)
  | none => .fine none
  | some .null => .fine none
  | some (.dict entries) => ((checkLinksMembers entries).map some).below (.member "links")
  | some value =>
    match ErrorLinks.ofValue? value with
    | some links => .fine (some links)
    | none => .wrong none [.member "links"] (.notModel Value.Shape.errorLinks.name)

def checkSource : Option Value → Checked (Option ErrorSource)
  | none => .fine none
  | some .null => .fine none
  | some (.dict entries) => ((checkSourceMembers entries).map some).below (.member "source")
  | some value =>
    match ErrorSource.ofValue? value with
    | some source => .fine (some source)
    | none => .wrong none [.member "source"] (.notModel Value.Shape.errorSource.name)

def checkKey (key : Value) : Checked (Option String) :=
  let place := [Step.member "meta", keyStep key, Step.member "[key]"]
  match key with
  | .text name => .fine (some name)
  | .bytes content =>
    match Text.Utf8.decode? content with
    | some text => .fine (some (String.ofList text))
    | none => .wrong none place .notUnicode
  | _ => .wrong none place .notText

def checkInfoEntries : Members → List (Value × Value) → Checked Members
  | members, [] => .fine members
  | members, (key, value) :: rest =>
    let name := checkKey key
    let others := checkInfoEntries
      (match name.value with
        | some name => Entries.put members name value
        | none => members) rest
    ⟨others.value, name.details ++ others.details⟩

def checkInfo : Option Value → Checked (Option Members)
  | none => .fine none
  | some .null => .fine none
  | some (.dict entries) => (checkInfoEntries [] entries).map some
  | some _ => .wrong none [.member "meta"] .notDictionary

def declaredNames : List String :=
  ["id", "links", "status", "code", "title", "detail", "source", "meta"]

def check (entries : List (Value × Value)) : Checked ErrorObject :=
  let id := checkText "id" (member? entries "id")
  let links := checkLinks (member? entries "links")
  let status := checkStatus (member? entries "status")
  let code := checkText "code" (member? entries "code")
  let title := checkText "title" (member? entries "title")
  let detail := checkText "detail" (member? entries "detail")
  let source := checkSource (member? entries "source")
  let info := checkInfo (member? entries "meta")
  let extra := checkExtra declaredNames entries
  ⟨⟨id.value, links.value, status.value, code.value, title.value, detail.value, source.value,
      info.value, extra.value⟩,
    id.details ++ links.details ++ status.details ++ code.details ++ title.details ++
      detail.details ++ source.details ++ info.details ++ extra.details⟩

def accept {α : Type} (c : Checked α) : Except Fault α :=
  if c.details = [] then .ok c.value else .error (.invalidMembers c.details)

def ofEntries (entries : List (Value × Value)) : Except Fault ErrorObject :=
  accept (check entries)

end ErrorObject

end JsonApi
