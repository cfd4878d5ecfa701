import JsonApi.Value.Equality
import JsonApi.Value.Text

/-!
Resource identifiers: of resources that exist, by type and id, and of new ones, by type and perhaps a
local id. Only the former can be linked to or kept in a store.
-/

namespace JsonApi

namespace Identifier

/-- The type of a resource: a text as a rule, but nothing keeps an application from giving another
value. A value that no other one is the same as belongs to its holder. -/
inductive Kind where
  | text (name : String)
  | value (v : Value) (holder : Option Nat)
deriving DecidableEq, Repr, Inhabited

namespace Kind

def toValue : Kind → Value
  | .text name => .text name
  | .value v _ => v

def display (kind : Kind) : String := kind.toValue.display

end Kind

end Identifier

inductive Identifier where
  | existing (kind : Identifier.Kind) (id : String)
  | new (kind : Identifier.Kind) (lid : Option String)
deriving DecidableEq, Repr, Inhabited

namespace Identifier

def kind : Identifier → Kind
  | .existing kind _ => kind
  | .new kind _ => kind

def isPersisted : Identifier → Bool
  | .existing .. => true
  | .new .. => false

def toValue : Identifier → Value
  | .existing kind id => .record .existing [("kind", kind.toValue), ("id", .text id)] []
  | .new kind lid => .record .new [("kind", kind.toValue), ("lid", .ofOption .text lid)] []

def describe (identifier : Identifier) : String := identifier.toValue.quoted

end Identifier

end JsonApi
