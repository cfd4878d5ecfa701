import JsonApi.ErrorObject.Basic
import JsonApi.Fault
import JsonApi.Resource

/-!
Documents. A document has either primary data or errors.
-/

namespace JsonApi

structure Info where
  version : Value
  ext : Option (List String)
  profile : Option (List String)
  info : Option Members

namespace Info

def ofVersion (version : Value) : Info := ⟨version, none, none, none⟩

def toValue (i : Info) : Value :=
  let texts : List String → Value := fun texts => .tuple (texts.map .text)
  .record .info
    [("version", i.version), ("ext", .ofOption texts i.ext), ("profile", .ofOption texts i.profile),
      ("meta", .ofOption .ofMembers i.info)]
    []

end Info

inductive PrimaryData where
  | absent
  | one (resource : Resource)
  | many (resources : List Resource)

namespace PrimaryData

def isAbsent : PrimaryData → Bool
  | .absent => true
  | _ => false

def resources : PrimaryData → List Resource
  | .absent => []
  | .one resource => [resource]
  | .many resources => resources

def toValue : PrimaryData → Value
  | .absent => .null
  | .one resource => resource.toValue
  | .many resources => .list (resources.map Resource.toValue)

end PrimaryData

structure Document where
  data : PrimaryData
  errors : Option (List ErrorObject)
  included : Option (List Resource)
  links : Option Links
  jsonapi : Option Info
  info : Option Members

namespace Document

/-- Errors do not go with primary data, nor with what is included next to it. -/
def isContradictory (d : Document) : Bool :=
  d.errors.isSome && (!d.data.isAbsent || d.included.isSome)

def checked (d : Document) : Except Fault Document :=
  if d.isContradictory then .error (.breach .dataAndErrors) else .ok d

def isCollection (d : Document) : Bool :=
  match d.data with
  | .many _ => true
  | _ => false

def isErrors (d : Document) : Bool := d.errors.isSome

def toValue (d : Document) : Value :=
  .record .document
    [("data", d.data.toValue),
      ("errors", .ofOption (fun errors => .list (errors.map ErrorObject.toValue)) d.errors),
      ("included", .ofOption (fun included => .list (included.map Resource.toValue)) d.included),
      ("links", .ofOption Links.toValue d.links), ("jsonapi", .ofOption Info.toValue d.jsonapi),
      ("meta", .ofOption .ofMembers d.info)]
    []

end Document

end JsonApi
