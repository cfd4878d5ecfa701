import JsonApi.Json.Basic
import JsonApi.Text.Hexadecimal
import JsonApi.Value.Dump
import JsonApi.Value.Text

/-!
The trees that values stand for. Inside an error object a structured value stands for all its fields,
elsewhere for what documents show of it; values that are no JSON stand for their texts, and tuples for
arrays.
-/

namespace JsonApi

namespace Json

def present (members : List (String × Option Json)) : List (String × Json) :=
  members.filterMap fun member => member.2.map fun json => (member.1, json)

def members : Json → List (String × Json)
  | .object members => members
  | _ => []

end Json

namespace Value

/-- What documents show of a structured value, given the trees of the fields that are there. -/
def shapeTree (shape : Shape) (fields : List (String × Option Json)) : Json :=
  let field? (name : String) : Option Json := (Entries.get? fields name).join
  let field (name : String) : Json := (field? name).getD .null
  match shape with
  | .existing => .object [("type", field "kind"), ("id", field "id")]
  | .new => .object (("type", field "kind") :: Json.present [("lid", field? "lid")])
  | .emptyLinkage => .null
  | .toOne => field "identifier"
  | .toMany => field "identifiers"
  | .links =>
    .object (Json.present [("self", field? "self_"), ("related", field? "related"),
      ("describedby", field? "describedby")])
  | .relationship =>
    .object (Json.present [("links", field? "links"), ("data", field? "data"),
      ("meta", field? "meta")])
  | .resource =>
    .object ((field "identifier").members ++
      Json.present [("attributes", field? "attributes"), ("relationships", field? "relationships"),
        ("links", field? "links"), ("meta", field? "meta")])
  | .info =>
    .object (Json.present [("version", field? "version"), ("ext", field? "ext"),
      ("profile", field? "profile"), ("meta", field? "meta")])
  | .document =>
    let main := match field? "errors" with
      | some errors => ("errors", errors)
      | none => ("data", field "data")
    .object (main :: Json.present [("included", field? "included"), ("links", field? "links"),
      ("jsonapi", field? "jsonapi"), ("meta", field? "meta")])
  | _ => .null

/-- What an error object shows of a structured value; of itself and its parts it leaves out what is
absent. -/
def innerTree (shape : Shape) (fields extra : List (String × Option Json)) : Json :=
  if shape.isOpen then
    .object (Json.present (fields.map fun field => (plainName shape field.1, field.2)) ++
      Json.present extra)
  else .object (fields.map fun field => (field.1, field.2.getD .null))

mutual
def treeIn (inside : Bool) : Value → Json
  | .null => .null
  | .bool b => .bool b
  | .int i => .int i
  | .text s => .text s
  | .bytes content => .text (Text.hexOfBytes content)
  | .uuid n => .text (Uuid.display n)
  | .date d => .text d.display
  | .clock c => .text c.display
  | .moment m => .text m.display
  | .span s => .text s.display
  | .list items => .array (itemTrees inside items)
  | .tuple items => .array (itemTrees inside items)
  | .dict entries => .object (entryTrees inside entries)
  | .record shape fields extra =>
    if inside ∨ shape = .errorObject then
      innerTree shape (fieldTrees true fields) (fieldTrees true extra)
    else shapeTree shape (fieldTrees false fields)
  | _ => .null

def itemTrees (inside : Bool) : List Value → List Json
  | [] => []
  | item :: rest => treeIn inside item :: itemTrees inside rest

def entryTrees (inside : Bool) : List (Value × Value) → List (String × Json)
  | [] => []
  | (.text name, value) :: rest => (name, treeIn inside value) :: entryTrees inside rest
  | _ :: rest => entryTrees inside rest

def fieldTrees (inside : Bool) : List (String × Value) → List (String × Option Json)
  | [] => []
  | (name, value) :: rest =>
    (name, if value.isNull then none else some (treeIn inside value)) :: fieldTrees inside rest
end

def tree (v : Value) : Json := treeIn false v

end Value

end JsonApi
