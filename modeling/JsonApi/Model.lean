import JsonApi.Outcome
import JsonApi.Query.Basic
import JsonApi.Resource

/-!
Models: what an application tells about the things that documents show. A family of models is a list,
and models refer to each other by their places in it.
-/

namespace JsonApi

inductive Related where
  | absent
  | one (target : Nat)
  | many (targets : List Nat)
  /-- Something in the place of a model that is none; asking it for its identifier fails. -/
  | stray (fault : Fault)
  /-- Something that is no related data at all, in its quoted form. -/
  | foreign (form : String)
deriving DecidableEq, Repr

namespace Related

def targets : Related → List Nat
  | .one target => [target]
  | .many targets => targets
  | _ => []

end Related

structure Attributes where
  members : Option Members
  /-- Only those are shown that the request asks for. -/
  isSelective : Bool

namespace Attributes

def absent : Attributes := ⟨none, false⟩

end Attributes

/-- The operations of a model. An operation that a model does not offer, or does not carry out, fails;
every time that one is carried out it leaves the same records.

What a model tells about its relationships is fixed before anything is built. So no model catches the
failure of a link that it has asked for, and none drops links or changes their order in the light of
what has become of earlier ones. -/
structure Model where
  /-- A model offers a type and an identifier, even if asking for them fails. -/
  isResourceful : Bool
  kind : Outcome Identifier.Kind
  identifier : Outcome Identifier
  attributes : Outcome Attributes
  relations : Outcome (Option (List (String × Related)))
  info : Outcome (Option Members)

namespace Model

def none : Model where
  isResourceful := false
  kind := Outcome.fail .noSuchMember
  identifier := Outcome.fail .noSuchMember
  attributes := Outcome.fail .noSuchMember
  relations := Outcome.fail .noSuchMember
  info := Outcome.fail .noSuchMember

def bare (className : String) : Model where
  isResourceful := true
  kind := Outcome.fail (.missing className "kind")
  identifier := Outcome.fail (.missing className "identifier")
  attributes := pure .absent
  relations := pure Option.none
  info := pure Option.none

def fieldsOf (query : Query) : Identifier.Kind → Option (List String)
  | .text kind => query.fieldsFor kind
  | .value .. => Option.none

/-- What a request asks for among the attributes of a model. Nothing can be selected from attributes
that are not there. -/
def selected (query : Query) (kind : Identifier.Kind) : Option Members → Except Fault Members
  | some members => .ok (Query.narrow (fieldsOf query kind) members)
  | Option.none => .error (if (fieldsOf query kind).isSome then .noSuchMember else .wrongType)

def attributesFor (m : Model) (query : Query) : Outcome (Option Members) := do
  let attributes ← m.attributes
  if attributes.isSelective then
    let kind ← m.kind
    return some (← Outcome.ofExcept (selected query kind attributes.members))
  else return attributes.members

end Model

def modelAt (family : List Model) (place : Nat) : Model := (family[place]?).getD .none

end JsonApi
