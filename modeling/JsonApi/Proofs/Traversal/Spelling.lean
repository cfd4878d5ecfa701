import JsonApi.Proofs.Paired
import JsonApi.Proofs.Traversal.Depiction

/-!
Ways to write identifiers in linkage. An identifier may be written as any model writes it whose
identifier means the same. Main statement: where identifiers are equal if they mean the same there is
one way only, and full resources follow from their models alone.
-/

namespace JsonApi

namespace Walk

variable {γ : Type} {plan : Plan γ} {family : List Model} {spell spell' : Identifier → Identifier}
  {place : Nat} {one other : Resource}

/-- Models whose identifiers are equal if they mean the same. -/
def Plain (family : List Model) : Prop :=
  ∀ place other identifier like, identifierAt family place = some identifier →
    identifierAt family other = some like → identifier.isSame like = true → identifier = like

/-- Types are texts as a rule, and then there is one way to write an identifier. -/
theorem plain_of_texts (texts : ∀ place identifier, identifierAt family place = some identifier →
    identifier.HasText) : Plain family := by
  intro place other identifier like given gives same
  exact Identifier.eq_of_isSame (texts place identifier given) (texts other like gives) same

def Agree (family : List Model) (spell spell' : Identifier → Identifier) : Prop :=
  ∀ place identifier, identifierAt family place = some identifier →
    spell identifier = spell' identifier

/-- A way to write identifiers as some model writes them that means the same. -/
def Faithful (family : List Model) (spell : Identifier → Identifier) : Prop :=
  ∀ place identifier, identifierAt family place = some identifier →
    ∃ other, identifierAt family other = some (spell identifier) ∧
      (spell identifier).isSame identifier = true

theorem faithful_spelled (family : List Model) (visited : List Nat) :
    Faithful family (spelled family visited) := by
  intro place identifier given
  unfold spelled
  cases stands : standIn? family visited identifier with
  | none => exact ⟨place, given, identifier.isSame_refl⟩
  | some other =>
    obtain ⟨_, like, gives, same⟩ := like_of_standIn? stands
    rw [Option.bind_some, gives, Option.getD_some]
    exact ⟨other, gives, same⟩

theorem Faithful.agree (faithful : Faithful family spell) (plain : Plain family) :
    Agree family spell fun identifier => identifier := by
  intro place identifier given
  obtain ⟨other, gives, same⟩ := faithful place identifier given
  exact plain other place _ identifier gives given same

theorem spelled_of_plain (plain : Plain family) (visited : List Nat) {place : Nat}
    {identifier : Identifier} (given : identifierAt family place = some identifier) :
    spelled family visited identifier = identifier :=
  (faithful_spelled family visited).agree plain place identifier given

theorem linkage?_congr (agree : Agree plan.family spell spell') (name : String) (related : Related) :
    linkage? plan spell name related = linkage? plan spell' name related := by
  cases related with
  | one place =>
    cases given : identifierAt plan.family place with
    | none => simp [linkage?, given]
    | some identifier => simp [linkage?, given, agree place identifier given]
  | many places =>
    cases given : places.mapM (identifierAt plan.family) with
    | none => simp [linkage?, given]
    | some identifiers =>
      have written : identifiers.map spell = identifiers.map spell' := by
        refine List.map_congr_left fun identifier member => ?_
        have paired := Paired.mapM_eq_some_iff.mp given
        obtain ⟨place, _, gives⟩ := Paired.exists_of_mem_right paired member
        exact agree place identifier gives
      simp [linkage?, given, written]
  | absent => rfl
  | stray fault => rfl
  | foreign form => rfl

variable [Uri.Layout γ]

theorem resource?_congr (agree : Agree plan.family spell spell') :
    resource? plan spell = resource? plan spell' := by
  have linkages : linkage? plan spell = linkage? plan spell' := by
    funext name related
    exact linkage?_congr agree name related
  have related : relationship? plan spell = relationship? plan spell' := by
    unfold relationship?
    rw [linkages]
  have relations : relationships? plan spell = relationships? plan spell' := by
    funext identifier told
    cases told with
    | none => rfl
    | some relations => simp only [relationships?, related]
  unfold resource?
  rw [relations]

def Full (plan : Plan γ) (place : Nat) (resource : Resource) : Prop :=
  ∃ spell, Faithful plan.family spell ∧ resource? plan spell place = some resource

theorem Full.eq_of_plain (plain : Plain plan.family) (first : Full plan place one)
    (second : Full plan place other) : one = other := by
  obtain ⟨spell, faithful, full⟩ := first
  obtain ⟨spell', faithful', full'⟩ := second
  rw [resource?_congr (faithful.agree plain)] at full
  rw [resource?_congr (faithful'.agree plain), full] at full'
  exact Option.some.inj full'

end Walk

end JsonApi
