import JsonApi.Identifier.Sameness
import JsonApi.Model
import JsonApi.Settings
import JsonApi.Table.Basic
import JsonApi.Value.Members
import JsonApi.Value.Text

/-!
Rows of tables as models. What is set under a name takes the place of whatever rows have under it: an
operation that something else stands for cannot be carried out, and an id, an excluded name or a
delimiter is the one that is set.
-/

namespace JsonApi

/-- What a relation or a further member of a row is set to: a row or several by their places, or a
value. -/
inductive Target where
  | row (place : Nat)
  | rows (places : List Nat)
  | value (v : Value)

structure Row where
  table : Table
  /-- Its place among all rows. -/
  place : Nat
  /-- What is set, in the order in which it was set first. -/
  members : List (String × Target)

namespace Target

def toValue (shown : Nat → Value) : Target → Value
  | .row place => shown place
  | .rows places => .list (places.map shown)
  | .value v => v

end Target

namespace Relation

/-- Why a relation cannot be set. A list takes only lists; one row leads to rows only. -/
def refusal? (r : Relation) : Target → Option Fault
  | .row _ => if r.isList then some .wrongType else none
  | .rows _ => if !r.isList && r.direction = .oneToMany then some .noSuchMember else none
  | .value (.list items) =>
    if r.direction = .oneToMany && !(r.isList && items.all Value.isNull) then some .noSuchMember
    else none
  | .value v =>
    if r.isList then some .wrongType
    else if r.direction = .oneToMany && !v.isNull then some .noSuchMember
    else none

end Relation

namespace Row

def new (t : Table) (place : Nat) : Row := ⟨t, place, []⟩

/-- Why a member that is no column or relation cannot be set. The class of a row is fixed, its id is
made from the keys, and its members are its own: others in their place leave it without a table. -/
def fixedFault? : String → Target → Option Fault
  | "jsonapi_id", _ => some .noSuchMember
  | "__weakref__", _ => some .noSuchMember
  | "__class__", _ => some .wrongType
  | "__dict__", .value (.dict _) => some .detached
  | "__dict__", _ => some .wrongType
  | _, _ => none

def refusal? (r : Row) (name : String) (target : Target) : Option Fault :=
  match r.table.relation? name with
  | some relation => relation.refusal? target
  | none => if r.table.hasColumn name then none else fixedFault? name target

def set (r : Row) (name : String) (target : Target) : Except Fault Row :=
  match r.refusal? name target with
  | some fault => .error fault
  | none => .ok { r with members := Entries.put r.members name target }

def assign (r : Row) (name : String) (v : Value) : Except Fault Row :=
  if r.table.declares name then r.set name (.value v) else .error .wrongType

/-- A new row with the given members. None of them can go by the name of the row itself. -/
def make (t : Table) (place : Nat) (members : Members) : Except Fault Row :=
  if (Entries.get? members "self").isSome then .error .wrongType
  else members.foldlM (fun row member => row.assign member.1 member.2) (new t place)

/-- A row in the place of a value: all that is known of it are its members. -/
def toValue (r : Row) : Value :=
  .foreign (r.members.map fun member => (member.1, member.2.toValue fun _ => .foreign []))

/-- The row with values for all other rows of the family that no relation leads to. -/
def settle (family : List Row) (r : Row) : Row :=
  let shown (place : Nat) : Value := ((family[place]?).map toValue).getD .null
  { r with members := r.members.map fun member =>
      if (r.table.relation? member.1).isSome then member
      else (member.1, .value (member.2.toValue shown)) }

def targetOf (r : Row) (relation : Relation) : Target :=
  match Entries.get? r.members relation.name with
  | some target => target
  | none => if relation.isList then .rows [] else .value .null

def value (r : Row) (name : String) : Value :=
  let target := match r.table.relation? name with
    | some relation => r.targetOf relation
    | none => (Entries.get? r.members name).getD (.value .null)
  target.toValue fun _ => .foreign []

/-- What takes the place of something that rows have anyway. -/
def override? (r : Row) (name : String) : Option Value :=
  if r.table.maps name || (Entries.get? r.members name).isSome then some (r.value name) else none

/-- An operation of a row, unless it is overridden: values are no operations. -/
def operation {α : Type} (r : Row) (name : String) (result : Except Fault α) : Except Fault α :=
  if (r.override? name).isSome then .error .wrongType else result

def kindValue (r : Row) : Value := (r.override? "__tablename__").getD (.text r.table.kind)

def kind (r : Row) : Except Fault Identifier.Kind :=
  r.operation "kind" (.ok (.ofValue r.place r.kindValue))

def keyValues (r : Row) : List Value := r.table.keyNames.map r.value

def delimiter (settings : Settings) (r : Row) : Value :=
  let own := (r.override? "_s_pk_delimiter").getD r.table.delimiter
  if own.isTruthy then own else settings.keyDelimiter

def joinKeys (delimiter : Value) (keys : List Value) : Except Fault String :=
  match delimiter with
  | .text delimiter => .ok (Value.joined delimiter (keys.map Value.display))
  | .bytes _ => .error .wrongType
  | delimiter => .error (delimiter.absenceFault "join")

/-- The id that the keys of a row make up, null as long as one of them is not set. -/
def keyId (settings : Settings) (r : Row) : Except Fault Value :=
  let keys := r.keyValues
  if keys.any Value.isNull then .ok .null
  else match keys with
    | [key] => .ok (.text key.display)
    | keys => (joinKeys (r.delimiter settings) keys).map .text

def id (settings : Settings) (r : Row) : Except Fault Value :=
  match r.override? "jsonapi_id" with
  | some id => .ok id
  | none => r.keyId settings

def identifier (settings : Settings) (r : Row) : Except Fault Identifier :=
  r.operation "identifier" do
    let id ← r.id settings
    let kind ← r.kind
    return if id.isNull then .new kind none else .existing kind id.display

def attributes (r : Row) : Except Fault Attributes :=
  r.operation "attributes" <| r.operation "_s_jsonapi_attrs" do
    let names ← r.table.listing
    return ⟨some (names.map fun name => (name, r.value name)), true⟩

def hides (r : Row) (name : String) : Except Fault Bool :=
  match r.override? "exclude_rels" with
  | none => .ok (r.table.hiddenRelations.contains name)
  | some names => match names.holds? name with
    | some isHidden => .ok isHidden
    | none => .error .wrongType

def stray (v : Value) : Related := .stray (v.absenceFault "identifier")

/-- What a relation of a row leads to. A list is no row, and rows are looked for in lists only. -/
def follow (r : Row) (relation : Relation) : Related :=
  match r.targetOf relation with
  | .row place => .one place
  | .rows places => if relation.isToOne then stray (.list []) else .many places
  | .value .null => .absent
  | .value (.list []) => if relation.isToOne then stray (.list []) else .many []
  | .value (.list (first :: rest)) =>
    stray (if relation.isToOne then .list (first :: rest) else first)
  | .value v => stray v

def followAll (r : Row) : List Relation → Except Fault (List (String × Related))
  | [] => .ok []
  | relation :: rest => do
    let isHidden ← r.hides relation.name
    let others ← r.followAll rest
    return if isHidden then others else (relation.name, r.follow relation) :: others

def relations (r : Row) : Except Fault (List (String × Related)) :=
  r.operation "relationships" (r.followAll r.table.relations)

def toModel (settings : Settings) (r : Row) : Model where
  isResourceful := (r.override? "kind").isNone && (r.override? "identifier").isNone
  kind := Outcome.ofExcept r.kind
  identifier := Outcome.ofExcept (r.identifier settings)
  attributes := Outcome.ofExcept r.attributes
  relations := Outcome.ofExcept (r.relations.map some)
  info := Outcome.ofExcept (r.operation "meta" (.ok none))

end Row

end JsonApi
