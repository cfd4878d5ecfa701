import JsonApi.Model
import JsonApi.Proofs.Building.Steps
import JsonApi.Proofs.Entries
import JsonApi.Query.Canonical

/-!
What the choices of a request answer. A relationship is included unless the request lists relationships
and leaves it out. Main statement: an attribute shows unless the request lists fields for the type of
the model and leaves it out.
-/

namespace JsonApi

namespace Query

variable {q q' : Query} {name kind : String} {fields : List String}

theorem includes_iff : q.includes name = true ↔ ∀ names ∈ q.inclusions, name ∈ names := by
  unfold includes
  cases q.inclusions with
  | none => simp
  | some names => simp

theorem includes_congr (same : q.inclusions = q'.inclusions) : q.includes = q'.includes := by
  funext name
  rw [Bool.eq_iff_iff, includes_iff, includes_iff, same]

theorem fieldsFor_eq_none_iff :
    q.fieldsFor kind = none ↔ ∀ fieldsets ∈ q.fieldsets, kind ∉ Entries.keys fieldsets := by
  unfold fieldsFor
  cases q.fieldsets with
  | none => simp
  | some fieldsets => simp [Entries.get?_eq_none]

theorem fieldsFor_eq_some_iff (wellFormed : q.WellFormed) :
    q.fieldsFor kind = some fields ↔ ∃ fieldsets ∈ q.fieldsets, (kind, fields) ∈ fieldsets := by
  unfold fieldsFor
  rw [Option.bind_eq_some_iff]
  constructor
  · rintro ⟨fieldsets, present, found⟩
    exact ⟨fieldsets, present, Entries.mem_of_get? found⟩
  · rintro ⟨fieldsets, present, listed⟩
    obtain ⟨_, distinct, _⟩ := wellFormed.fieldsets fieldsets present
    exact ⟨fieldsets, present, Entries.get?_of_mem distinct listed⟩

theorem narrow_eq_filter {β : Type} (chosen : Option (List String)) (members : List (String × β)) :
    narrow chosen members = members.filter fun member => ∀ names ∈ chosen, member.1 ∈ names := by
  unfold narrow
  cases chosen with
  | none => simp
  | some names => simp

end Query

namespace Model

variable {q : Query} {kind : Identifier.Kind} {fields : List String} {m : Model}
  {shown : Option Members}

/-- A request can list fields only for types that are texts. -/
theorem fieldsOf_eq_some_iff :
    fieldsOf q kind = some fields ↔ ∃ name, kind = .text name ∧ q.fieldsFor name = some fields := by
  cases kind with
  | text name => simp [fieldsOf]
  | value v holder => simp [fieldsOf]

/-- A request leaves a model all of its attributes, or narrows them to the fields of its type. -/
theorem attributesFor_ok (told : (m.attributesFor q).result = .ok shown) :
    ∃ attributes, m.attributes.result = .ok attributes ∧
      ((attributes.isSelective = false ∧ shown = attributes.members) ∨
        attributes.isSelective = true ∧ ∃ kind members, m.kind.result = .ok kind ∧
          attributes.members = some members ∧ shown = some (Query.narrow (fieldsOf q kind) members)) := by
  obtain ⟨attributes, given, told⟩ := Outcome.bind_ok told
  refine ⟨attributes, given, ?_⟩
  cases selective : attributes.isSelective with
  | false =>
    rw [selective] at told
    cases told
    exact Or.inl ⟨rfl, rfl⟩
  | true =>
    rw [selective, if_pos rfl] at told
    obtain ⟨kind, known, told⟩ := Outcome.bind_ok told
    obtain ⟨members, selected, told⟩ := Outcome.bind_ok told
    cases told
    cases present : attributes.members with
    | none =>
      rw [present] at selected
      cases Outcome.ofExcept_ok selected
    | some all =>
      rw [present] at selected
      cases Outcome.ofExcept_ok selected
      exact Or.inr ⟨rfl, kind, all, known, rfl, rfl⟩

/-- An attribute of a selective model shows unless the request lists fields for the type and leaves it
out. -/
theorem mem_attributesFor_iff {attributes : Attributes} {members left : Members} {member : String × Value}
    (told : (m.attributesFor q).result = .ok (some left))
    (given : m.attributes.result = .ok attributes) (selective : attributes.isSelective = true)
    (present : attributes.members = some members) (known : m.kind.result = .ok kind) :
    member ∈ left ↔ member ∈ members ∧ ∀ names ∈ fieldsOf q kind, member.1 ∈ names := by
  obtain ⟨attributes', given', ⟨plain, _⟩ | ⟨_, kind', members', known', present', narrowed⟩⟩ :=
    attributesFor_ok told
  · cases given.symm.trans given'
    rw [selective] at plain
    cases plain
  · cases given.symm.trans given'
    cases known.symm.trans known'
    cases present.symm.trans present'
    rw [Option.some.inj narrowed, Query.narrow_eq_filter, List.mem_filter, decide_eq_true_eq]

end Model

end JsonApi
