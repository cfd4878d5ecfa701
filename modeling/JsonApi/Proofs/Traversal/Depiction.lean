import JsonApi.Building.Workspace
import JsonApi.Proofs.Traversal.Walk

/-!
The full resource of a model, straight from what the model tells: no store, no placeholders and no
order of building. Only the spelling of identifiers may depend on other models, for two identifiers
can mean the same resource and be written in different ways.
-/

namespace JsonApi.Walk

variable {γ : Type} {plan : Plan γ}

/-- An identifier as the visited model writes it that stands for it. -/
def spelled (family : List Model) (visited : List Nat) (identifier : Identifier) : Identifier :=
  ((standIn? family visited identifier).bind (identifierAt family)).getD identifier

theorem spelled_of_mem {family : List Model} {visited : List Nat} {place : Nat} {identifier : Identifier}
    (apart : Apart family visited) (member : place ∈ visited)
    (given : identifierAt family place = some identifier) :
    spelled family visited identifier = identifier := by
  rw [spelled, standIn?_of_mem apart member given, Option.bind_some, given, Option.getD_some]

theorem spelled_cases (family : List Model) (visited : List Nat) (identifier : Identifier) :
    spelled family visited identifier = identifier ∨
      ∃ other ∈ visited, identifierAt family other = some (spelled family visited identifier) := by
  unfold spelled
  cases stands : standIn? family visited identifier with
  | none => exact Or.inl rfl
  | some other =>
    obtain ⟨member, like, given, _⟩ := like_of_standIn? stands
    rw [Option.bind_some, given]
    exact Or.inr ⟨other, member, given⟩

/-- The linkage of a relationship. Where it is included, identifiers are written as `spell` says. -/
def linkage? (plan : Plan γ) (spell : Identifier → Identifier) (name : String) :
    Related → Option Linkage
  | .absent => some .empty
  | .one place => do
    let identifier ← identifierAt plan.family place
    return .one (if plan.query.includes name then spell identifier else identifier)
  | .many places => do
    let identifiers ← places.mapM (identifierAt plan.family)
    return .many (if plan.query.includes name then identifiers.map spell else identifiers)
  | .stray _ => none
  | .foreign _ => none

variable [Uri.Layout γ]

def relationship? (plan : Plan γ) (spell : Identifier → Identifier) (identifier : Identifier)
    (relation : String × Related) : Option (String × Relationship) := do
  let self ← (Uri.Layout.relationship plan.generator identifier relation.1).toOption
  let related ← (Uri.Layout.related plan.generator identifier relation.1).toOption
  let linkage ← linkage? plan spell relation.1 relation.2
  return (relation.1, ⟨some ⟨some self, some related, none⟩, some linkage, none⟩)

def relationships? (plan : Plan γ) (spell : Identifier → Identifier) (identifier : Identifier) :
    Option (List (String × Related)) → Option (Option (List (String × Relationship)))
  | none => some none
  | some relations =>
    ((Entries.ofPairs relations).mapM (relationship? plan spell identifier)).map some

def resource? (plan : Plan γ) (spell : Identifier → Identifier) (place : Nat) : Option Resource := do
  let model := modelAt plan.family place
  let identifier ← identifierAt plan.family place
  let self ← (Uri.Layout.resource plan.generator identifier).toOption
  let attributes ← (model.attributesFor plan.query).result.toOption
  let relations ← model.relations.result.toOption
  let relationships ← relationships? plan spell identifier relations
  let info ← model.info.result.toOption
  return ⟨identifier, attributes, relationships, some ⟨some self, none, none⟩, info⟩

theorem resource?_parts {spell : Identifier → Identifier} {place : Nat} {resource : Resource}
    (full : resource? plan spell place = some resource) :
    identifierAt plan.family place = some resource.identifier ∧
      ∃ told, (modelAt plan.family place).relations.result = .ok told ∧
        relationships? plan spell resource.identifier told = some resource.relationships := by
  simp only [resource?, Option.bind_eq_bind, Option.bind_eq_some_iff, Option.pure_def,
    Option.some_inj] at full
  obtain ⟨identifier, given, _, _, _, _, told, telling, relationships, related, _, _, rfl⟩ := full
  refine ⟨given, told, ?_, related⟩
  cases answer : (modelAt plan.family place).relations.result with
  | ok relations =>
    rw [answer] at telling
    cases telling
    rfl
  | error fault =>
    rw [answer] at telling
    cases telling

theorem attributes_of_resource? {spell : Identifier → Identifier} {place : Nat} {resource : Resource}
    (full : resource? plan spell place = some resource) :
    ((modelAt plan.family place).attributesFor plan.query).result = .ok resource.attributes := by
  simp only [resource?, Option.bind_eq_bind, Option.bind_eq_some_iff, Option.pure_def,
    Option.some_inj] at full
  obtain ⟨_, _, _, _, attributes, telling, _, _, _, _, _, _, rfl⟩ := full
  cases answer : ((modelAt plan.family place).attributesFor plan.query).result with
  | ok told =>
    rw [answer] at telling
    exact congrArg Except.ok (Option.some.inj telling)
  | error fault =>
    rw [answer] at telling
    cases telling

theorem relationship?_data {spell : Identifier → Identifier} {identifier : Identifier}
    {relation : String × Related} {member : String × Relationship}
    (written : relationship? plan spell identifier relation = some member) :
    member.1 = relation.1 ∧ ∃ linkage, linkage? plan spell relation.1 relation.2 = some linkage ∧
      member.2.data = some linkage := by
  simp only [relationship?, Option.bind_eq_bind, Option.bind_eq_some_iff, Option.pure_def,
    Option.some_inj] at written
  obtain ⟨_, _, _, _, linkage, links, rfl⟩ := written
  exact ⟨rfl, linkage, links, rfl⟩

end JsonApi.Walk
