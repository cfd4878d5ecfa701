import JsonApi.Fault
import JsonApi.Text.Split

/-!
The layout of links. A generator may lay out links as it likes; where it only has a base, a resource
is found under base, type and id, its relationships and the resources related to it below that. Then
only resources that exist have links.
-/

namespace JsonApi.Uri

/-- Root and name space with one slash between, none at the end. -/
def joinBase (root space : List Char) : List Char :=
  let root := Text.stripEnd (· = '/') root
  let space := Text.strip (· = '/') space
  if space = [] then root else root ++ '/' :: space

def link (uri : String) : Except Fault String :=
  match check uri with
  | .ok uri => .ok uri
  | .error flaw => .error (.breach (.invalidUri uri flaw))

def resourceReference (base kind id : String) : String := base ++ "/" ++ kind ++ "/" ++ id

def relationshipReference (resource name : String) : String := resource ++ "/relationships/" ++ name

def relatedReference (resource name : String) : String := resource ++ "/" ++ name

/-- The link of a resource. The base matters only for one that exists. -/
def ofResource (base : Except Fault String) : Identifier → Except Fault String
  | .new kind lid => .error (.breach (.unlinkable (.new kind lid)))
  | .existing kind id =>
    match base with
    | .ok base => link (resourceReference base kind.display id)
    | .error fault => .error fault

def ofRelationship (base : Except Fault String) (identifier : Identifier) (name : String) :
    Except Fault String :=
  match ofResource base identifier with
  | .ok resource => link (relationshipReference resource name)
  | .error fault => .error fault

def ofRelated (base : Except Fault String) (identifier : Identifier) (name : String) :
    Except Fault String :=
  match ofResource base identifier with
  | .ok resource => link (relatedReference resource name)
  | .error fault => .error fault

/-- The generators of one kind: which links they give to a resource and to its relationships. -/
class Layout (γ : Type) where
  resource : γ → Identifier → Except Fault String
  relationship : γ → Identifier → String → Except Fault String
  related : γ → Identifier → String → Except Fault String

instance : Layout (Except Fault String) := ⟨ofResource, ofRelationship, ofRelated⟩

end JsonApi.Uri
