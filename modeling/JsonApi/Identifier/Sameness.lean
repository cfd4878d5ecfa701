import JsonApi.Identifier.Basic
import JsonApi.Value.Order

/-!
Identifiers that mean the same resource. They need not be written in the same way, for types that are
no texts are compared as keys are: numbers by value, for instance. Main statements: every identifier is
the same as itself, and those with texts for types are the same only if they are equal.
-/

namespace JsonApi.Identifier

namespace Kind

/-- A comparison that is refused tells two types apart. -/
def isSame (a b : Kind) : Bool :=
  decide (a = b) || (Value.sameKey a.toValue b.toValue).toOption.getD false

def isHashable (kind : Kind) : Bool := kind.toValue.isHashable

/-- A value as the type that a holder gives: it is the holder's own if it is not even the same as
itself. -/
def ofValue (holder : Nat) (v : Value) : Kind :=
  match v with
  | .text name => .text name
  | v => .value v (if (Value.sameKey v v).toOption.getD false then none else some holder)

theorem isSame_refl (kind : Kind) : kind.isSame kind = true := by simp [isSame]

theorem isSame_text (a b : String) : (Kind.text a).isSame (.text b) = decide (a = b) := by
  by_cases same : a = b <;>
    simp [isSame, toValue, Value.sameKey, Value.samePlace, Value.samePlain, Except.toOption, same]

end Kind

def HasText (identifier : Identifier) : Prop := ∃ name, identifier.kind = .text name

def isSame : Identifier → Identifier → Bool
  | .existing kind id, .existing kind' id' => kind.isSame kind' && id == id'
  | .new kind lid, .new kind' lid' => kind.isSame kind' && lid == lid'
  | _, _ => false

theorem isSame_refl (identifier : Identifier) : identifier.isSame identifier = true := by
  cases identifier <;> simp [isSame, Kind.isSame_refl]

theorem isSame_existing_text (kind kind' id id' : String) :
    isSame (.existing (.text kind) id) (.existing (.text kind') id') =
      decide (kind = kind' ∧ id = id') := by
  rw [Bool.eq_iff_iff]
  simp [isSame, Kind.isSame_text]

theorem eq_of_isSame {one other : Identifier} (text : one.HasText) (text' : other.HasText)
    (same : one.isSame other = true) : one = other := by
  obtain ⟨name, kind⟩ := text
  obtain ⟨name', kind'⟩ := text'
  cases one with
  | existing =>
    cases other with
    | existing =>
      cases kind
      cases kind'
      rw [isSame_existing_text, decide_eq_true_eq] at same
      rw [same.1, same.2]
    | new => cases same
  | new =>
    cases other with
    | existing => cases same
    | new =>
      cases kind
      cases kind'
      simp only [isSame, Kind.isSame_text, Bool.and_eq_true, decide_eq_true_eq, beq_iff_eq] at same
      rw [same.1, same.2]

end JsonApi.Identifier
