import JsonApi.Fault
import JsonApi.Value.Basic

/-!
Tables of a database as classes of models. Keys and foreign keys make up identity and relationships,
so they are no attributes; names that start with a low line and excluded names do not show.
-/

namespace JsonApi

structure Column where
  name : String
  /-- The name in the database. -/
  stored : String
  isKey : Bool
  /-- The table and column that it refers to. -/
  reference : Option String
deriving DecidableEq, Repr

namespace Column

def isForeign (c : Column) : Bool := c.reference.isSome

end Column

inductive Direction where
  | manyToOne
  | oneToMany
  | manyToMany
deriving DecidableEq, Repr

structure Relation where
  name : String
  direction : Direction
  isList : Bool
  /-- The name of the class that it leads to. -/
  target : String
deriving DecidableEq, Repr

namespace Relation

/-- A relation leads to at most one row if many rows lead to one, or if it is no list. -/
def isToOne (r : Relation) : Bool := r.direction = .manyToOne || !r.isList

end Relation

structure Table where
  className : String
  /-- The name of the table, as far as the class tells it. -/
  stored : String
  /-- A class that does not tell the name of its table. -/
  isBare : Bool
  columns : List Column
  relations : List Relation
  hiddenAttributes : List String
  hiddenRelations : List String
  /-- What stands between the parts of a composite key, if it is not the configured text. -/
  delimiter : Value

/-- Of all items with one name the last, in the place of the first. -/
def latest {α : Type} (name : α → String) (items : List α) : List α :=
  (Entries.ofPairs (items.map fun item => (name item, item))).map (·.2)

namespace Table

/-- The type of the rows, under which the database knows their table: a bare class gives its own name. -/
def kind (t : Table) : String := if t.isBare then t.className else t.stored

def databaseNames (t : Table) : List String :=
  ((t.relations.filter (·.direction = .manyToMany)).map fun relation =>
    t.className ++ "_" ++ relation.name) ++ [t.kind]

/-- The columns and relations as the class keeps them. A bare class calls its columns as the database
does. -/
def settled (t : Table) : Table :=
  { t with
    columns := if t.isBare then t.columns.map fun column => { column with name := column.stored }
      else latest (·.name) t.columns
    relations := latest (·.name) t.relations }

def isCandidate (column : Column) : Bool :=
  !column.isKey && !column.isForeign && column.name.toList.head? ≠ some '_'

/-- Whether a column shows as an attribute; documents keep two names for themselves. -/
def shows (t : Table) (column : Column) : Bool :=
  isCandidate column && !t.hiddenAttributes.contains column.name && column.name ≠ "id" &&
    column.name ≠ "type"

def attributeNames (t : Table) : List String := (t.columns.filter t.shows).map (·.name)

/-- A key column that refers to another one of the same key adds nothing to it. -/
def isRedundant (t : Table) (column : Column) : Bool :=
  t.columns.any fun other => other.isKey && other.name ≠ column.name &&
    column.reference == some (t.kind ++ "." ++ other.stored)

def keyNames (t : Table) : List String :=
  (t.columns.filter fun column => column.isKey && !t.isRedundant column).map (·.name)

def relation? (t : Table) (name : String) : Option Relation := t.relations.find? (·.name == name)

def hasColumn (t : Table) (name : String) : Bool := t.columns.any (·.name == name)

def maps (t : Table) (name : String) : Bool := t.hasColumn name || (t.relation? name).isSome

def common : List String :=
  ["kind", "identifier", "attributes", "relationships", "meta", "jsonapi_id", "exclude_attrs",
    "exclude_rels", "_s_pk_delimiter", "_s_jsonapi_attrs"]

def inherent : List String :=
  ["__annotations__", "__base__", "__bases__", "__basicsize__", "__call__", "__class__",
    "__delattr__", "__dict__", "__dictoffset__", "__dir__", "__doc__", "__eq__", "__flags__",
    "__format__", "__ge__", "__getattribute__", "__getstate__", "__gt__", "__hash__", "__init__",
    "__init_subclass__", "__instancecheck__", "__itemsize__", "__le__", "__lt__", "__module__",
    "__mro__", "__name__", "__ne__", "__new__", "__or__", "__prepare__", "__qualname__",
    "__reduce__", "__reduce_ex__", "__repr__", "__ror__", "__setattr__", "__sizeof__", "__str__",
    "__subclasscheck__", "__subclasses__", "__subclasshook__", "__text_signature__",
    "__weakref__", "__weakrefoffset__", "mro", "metadata", "registry", "__abstract__",
    "__mapper__", "__table__", "_sa_class_manager", "_sa_registry"]

def declares (t : Table) (name : String) : Bool :=
  t.maps name || common.contains name || inherent.contains name ||
    (name == "__tablename__" && !t.isBare)

/-- The attributes of the class. They are looked for unless something else is found in place of the
search, or of the excluded names. -/
def listing (t : Table) : Except Fault (List String) :=
  if t.maps "_s_jsonapi_attrs" then .error .wrongType
  else if t.maps "exclude_attrs" && t.columns.any isCandidate then
    .error (.unsearchable (t.hasColumn "exclude_attrs"))
  else .ok t.attributeNames

def columnFlaw? : List String → List Column → Option Fault
  | _, [] => none
  | known, column :: rest =>
    if column.stored = "" then some .invalidTable
    else if known.contains column.stored then some .repeatedColumn
    else columnFlaw? (column.stored :: known) rest

def clashes (t : Table) (relation : Relation) : Bool :=
  t.columns.any fun column => column.name == relation.name || column.stored == relation.name

def flaw? (t : Table) : Option Fault :=
  (columnFlaw? [] t.columns).or <|
    if t.relations.any t.clashes then some (if t.isBare then .invalidTable else .takenName)
    else if t.keyNames.isEmpty then some .invalidTable
    else none

/-- Why classes cannot be added to a database with the given tables: the first reason, in order. -/
def flawAmong? (known : List String) : List Table → Option Fault
  | [] => none
  | table :: rest =>
    let names := table.databaseNames
    if names.any known.contains || !names.Nodup then some .takenName
    else table.settled.flaw?.or (flawAmong? (names ++ known) rest)

def isClear (classes : List Table) (relation : Relation) : Bool :=
  (classes.filter (·.className == relation.target)).length = 1

def assemble (classes : List Table) : Except Fault (List Table) :=
  let settled := classes.map settled
  match flawAmong? [] classes with
  | some fault => .error fault
  | none =>
    if settled.all fun t => t.relations.all (isClear classes) then .ok (latest (·.className) settled)
    else .error .unclearTarget

end Table

end JsonApi
