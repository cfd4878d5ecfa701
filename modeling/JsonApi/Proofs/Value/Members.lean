import JsonApi.Proofs.Building.Steps
import JsonApi.Proofs.Value.Ordering

/-!
Objects and arrays that have been written. Main statement: an object has the names of its members, each with
the form of its value; only their order may have changed.
-/

namespace JsonApi

variable {encoding : Encoding} {json : Json}

theorem Outcome.length_sequence {α : Type} {os : List (Outcome α)} {as : List α}
    (answer : (Outcome.sequence os).result = .ok as) : as.length = os.length := by
  induction os generalizing as with
  | nil =>
    cases answer
    rfl
  | cons o rest ih =>
    obtain ⟨a, -, answer⟩ := Outcome.bind_ok answer
    obtain ⟨more, further, answer⟩ := Outcome.bind_ok answer
    cases answer
    rw [List.length_cons, List.length_cons, ih further]

namespace Value

variable {parts : List (String × Outcome Json)}

theorem exists_perm_encodeMembers (encoding : Encoding) (parts : List (String × Outcome Json)) :
    ∃ ordered : List (String × Outcome Json), ordered.Perm parts ∧
      encodeMembers encoding (named parts) = objectOf ordered := by
  obtain ⟨debug, sorted⟩ := encoding
  cases sorted with
  | false => exact ⟨parts, .refl _, encodeMembers_unsorted debug parts⟩
  | true => exact ⟨_, List.mergeSort_perm parts Json.nameLe, encodeMembers_sorted debug parts⟩

theorem of_objectOf (written : (objectOf parts).result = .ok json) :
    (∀ part ∈ parts, part.2.result = .ok (treeOf part.2)) ∧
      json = .object (parts.map fun part => (part.1, treeOf part.2)) := by
  have each : ∀ part ∈ parts, ∃ form, part.2.result = .ok form := by
    intro part inside
    cases formed : part.2.result with
    | ok form => exact ⟨form, rfl⟩
    | error fault =>
      obtain ⟨fault', fails⟩ := objectOf_fails inside formed
      rw [fails] at written
      cases written
  refine ⟨fun part inside => ?_, ?_⟩
  · obtain ⟨form, formed⟩ := each part inside
    rw [treeOf_eq formed, formed]
  · rw [objectOf_ok each] at written
    cases written
    rfl

/-- Members keep their names and their forms; only their order may change. -/
theorem encodeMembers_ok (written : (encodeMembers encoding (named parts)).result = .ok json) :
    ∃ members, json = .object members ∧ (Entries.keys members).Perm (Entries.keys parts) ∧
      ∀ member ∈ members, ∃ part ∈ parts, part.1 = member.1 ∧ part.2.result = .ok member.2 := by
  obtain ⟨ordered, permuted, shape⟩ := exists_perm_encodeMembers encoding parts
  rw [shape] at written
  obtain ⟨each, rfl⟩ := of_objectOf written
  refine ⟨_, rfl, ?_, List.forall_mem_map.mpr fun part inside => ?_⟩
  · rw [Entries.keys, List.map_map]
    exact permuted.map Prod.fst
  · exact ⟨part, permuted.mem_iff.mp inside, rfl, each part inside⟩

theorem encodePlain_list_ok {items : List Value}
    (written : (encodePlain encoding (.list items)).result = .ok json) :
    ∃ forms, json = .array forms ∧ forms.length = items.length := by
  rw [encodePlain] at written
  obtain ⟨forms, listed, written⟩ := Outcome.bind_ok written
  cases written
  rw [encodeItems_eq_map] at listed
  exact ⟨forms, rfl, (Outcome.length_sequence listed).trans (List.length_map _)⟩

end Value

end JsonApi
