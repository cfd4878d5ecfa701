import JsonApi.Identifier.Basic

/-!
Resources: what documents are made of. A resource has attributes, relationships to other resources,
links and metadata; each of them may be absent.
-/

namespace JsonApi

inductive Linkage where
  | empty
  | one (identifier : Identifier)
  | many (identifiers : List Identifier)
deriving DecidableEq, Repr

namespace Linkage

def identifiers : Linkage → List Identifier
  | .empty => []
  | .one identifier => [identifier]
  | .many identifiers => identifiers

def toValue : Linkage → Value
  | .empty => .record .emptyLinkage [] []
  | .one identifier => .record .toOne [("identifier", identifier.toValue)] []
  | .many identifiers =>
    .record .toMany [("identifiers", .tuple (identifiers.map Identifier.toValue))] []

end Linkage

structure Links where
  self : Option String
  related : Option String
  describedby : Option String
deriving DecidableEq, Repr

namespace Links

def toValue (l : Links) : Value :=
  .record .links
    [("self_", .ofOption .text l.self), ("related", .ofOption .text l.related),
      ("describedby", .ofOption .text l.describedby)]
    []

end Links

structure Relationship where
  links : Option Links
  data : Option Linkage
  info : Option Members

namespace Relationship

def toValue (r : Relationship) : Value :=
  .record .relationship
    [("links", .ofOption Links.toValue r.links), ("data", .ofOption Linkage.toValue r.data),
      ("meta", .ofOption .ofMembers r.info)]
    []

def targets (r : Relationship) : List Identifier :=
  match r.data with
  | some linkage => linkage.identifiers
  | none => []

end Relationship

structure Resource where
  identifier : Identifier
  attributes : Option Members
  relationships : Option (List (String × Relationship))
  links : Option Links
  info : Option Members

namespace Resource

def toValue (r : Resource) : Value :=
  .record .resource
    [("identifier", r.identifier.toValue), ("attributes", .ofOption .ofMembers r.attributes),
      ("relationships", .ofOption
        (fun relationships => .ofMembers (relationships.map fun member =>
          (member.1, member.2.toValue)))
        r.relationships),
      ("links", .ofOption Links.toValue r.links), ("meta", .ofOption .ofMembers r.info)]
    []

end Resource

end JsonApi
