import JsonApi.Value.Encode

/-!
What the encoding of a value results in, apart from the records that it leaves. Main statement: the result
for a structured value depends on the results for its parts only, as long as nothing is put in order.
-/

namespace JsonApi

namespace Outcome

variable {α β : Type}

def silent (o : Outcome α) : Outcome α := ⟨[], o.result⟩

@[simp]
theorem result_silent (o : Outcome α) : o.silent.result = o.result := rfl

theorem silent_eq_iff {o p : Outcome α} : o.silent = p.silent ↔ o.result = p.result := by
  constructor
  · exact congrArg result
  · exact congrArg (Outcome.mk [])

theorem silent_of_ok {o : Outcome α} {a : α} (ok : o.result = .ok a) : o.silent = pure a :=
  congrArg (Outcome.mk []) ok

theorem result_bind (o : Outcome α) (f : α → Outcome β) :
    (o >>= f).result = match o.result with
      | .ok a => (f a).result
      | .error fault => .error fault := by
  show (match o.result with
    | .ok a => (⟨o.records ++ (f a).records, (f a).result⟩ : Outcome β)
    | .error fault => ⟨o.records, .error fault⟩).result = _
  cases o.result <;> rfl

theorem result_bind_congr {o p : Outcome α} {f g : α → Outcome β} (first : o.result = p.result)
    (then' : ∀ a, o.result = .ok a → (f a).result = (g a).result) :
    (o >>= f).result = (p >>= g).result := by
  rw [result_bind, result_bind, ← first]
  cases shape : o.result with
  | ok a => exact then' a shape
  | error fault => rfl

theorem result_sequence_silent (os : List (Outcome α)) :
    (sequence (os.map silent)).result = (sequence os).result := by
  induction os with
  | nil => rfl
  | cons o rest ih =>
    exact result_bind_congr rfl fun a _ => result_bind_congr ih fun _ _ => rfl

theorem sequence_pure (as : List α) : sequence (as.map pure) = (pure as : Outcome (List α)) := by
  induction as with
  | nil => rfl
  | cons a rest ih =>
    rw [List.map_cons, sequence, ih]
    rfl

end Outcome

namespace Value

variable {encoding : Encoding}

def silentMember (member : Value × Outcome Json) : Value × Outcome Json := (member.1, member.2.silent)

def Part.silent (p : Part) : Part := { p with json := p.json.silent }

theorem result_encodeMembers_silent (unsorted : encoding.sorted = false)
    (members : List (Value × Outcome Json)) :
    (encodeMembers encoding (members.map silentMember)).result =
      (encodeMembers encoding members).result := by
  simp only [encodeMembers, orderMembers, unsorted, Bool.false_eq_true, if_false]
  refine Outcome.result_bind_congr ?_ fun _ _ => rfl
  rw [← Outcome.result_sequence_silent, ← Outcome.result_sequence_silent (List.map _ members),
    List.map_map, List.map_map, List.map_map]
  refine congrArg (fun os => (Outcome.sequence os).result) (List.map_congr_left fun member _ => ?_)
  exact Outcome.silent_eq_iff.mpr
    (Outcome.result_bind_congr rfl fun _ _ => Outcome.result_bind_congr rfl fun _ _ => rfl)

theorem result_encodeMembers_congr (unsorted : encoding.sorted = false)
    {members others : List (Value × Outcome Json)}
    (same : members.map silentMember = others.map silentMember) :
    (encodeMembers encoding members).result = (encodeMembers encoding others).result := by
  rw [← result_encodeMembers_silent unsorted, same, result_encodeMembers_silent unsorted]

theorem encodeMembers_pure (unsorted : encoding.sorted = false) (members : List (String × Json)) :
    encodeMembers encoding (members.map fun member => (.text member.1, pure member.2)) =
      pure (.object members) := by
  have each : (members.map fun member : String × Json => (Value.text member.1, (pure member.2 : Outcome Json))).map
      (fun member => do
        let name ← Outcome.ofExcept (keyName member.1)
        let json ← member.2
        return (name, json)) = members.map pure := by
    rw [List.map_map]
    rfl
  simp only [encodeMembers, orderMembers, unsorted, Bool.false_eq_true, if_false, each,
    Outcome.sequence_pure]
  rfl

theorem presentParts_silent (parts : List Part) :
    presentParts (parts.map Part.silent) = (presentParts parts).map silentMember := by
  rw [presentParts, presentParts, List.filter_map, List.map_map, List.map_map]
  rfl

theorem splicedMembers_silent (json : Outcome Json) :
    (splicedMembers json.silent).map silentMember = (splicedMembers json).map silentMember := by
  unfold splicedMembers
  rw [Outcome.result_silent]
  split
  · rw [List.map_map, List.map_map]
    rfl
  · rfl
  · rfl

theorem result_encodeShape_silent (unsorted : encoding.sorted = false) (shape : Shape)
    (parts : List Part) :
    (encodeShape encoding shape (parts.map Part.silent)).result =
      (encodeShape encoding shape parts).result := by
  have silently (members : List (Value × Outcome Json)) :=
    result_encodeMembers_silent unsorted members
  have plainly (parts : List Part) :
      (encodeMembers encoding (presentParts (parts.map Part.silent))).result =
        (encodeMembers encoding (presentParts parts)).result := by
    rw [presentParts_silent, silently]
  -- A structured value with other fields than its shape has shows all that are there.
  cases shape with
  | existing =>
    match parts with
    | [] => exact plainly []
    | [kind] => exact plainly [kind]
    | [kind, id] => exact silently [kind.member "type", id.member "id"]
    | kind :: id :: next :: rest => exact plainly (kind :: id :: next :: rest)
  | new =>
    match parts with
    | [] => exact plainly []
    | [kind] => exact plainly [kind]
    | [kind, lid] =>
      have present := presentParts_silent [{ lid with name := "lid" }]
      have spelled := silently (kind.member "type" :: presentParts [{ lid with name := "lid" }])
      rw [List.map_cons, ← present] at spelled
      exact spelled
    | kind :: lid :: next :: rest => exact plainly (kind :: lid :: next :: rest)
  | emptyLinkage => rfl
  | toOne =>
    match parts with
    | [] => exact plainly []
    | [identifier] => rfl
    | identifier :: next :: rest => exact plainly (identifier :: next :: rest)
  | toMany =>
    match parts with
    | [] => exact plainly []
    | [identifiers] => rfl
    | identifiers :: next :: rest => exact plainly (identifiers :: next :: rest)
  | links =>
    have renamed := plainly (parts.map fun p => { p with name := linkName p.name })
    rw [List.map_map] at renamed
    rw [encodeShape, encodeShape, List.map_map]
    exact renamed
  | resource =>
    match parts with
    | [] => exact plainly []
    | identifier :: parts =>
      refine result_encodeMembers_congr unsorted ?_
      rw [List.map_append, List.map_append, presentParts_silent, List.map_map]
      exact congrArg (· ++ _) (splicedMembers_silent identifier.json)
  | document =>
    match parts with
    | [] => exact plainly []
    | [data] => exact plainly [data]
    | data :: errors :: parts =>
      refine result_encodeMembers_congr unsorted ?_
      rw [List.map_cons, List.map_cons, presentParts_silent, List.map_map]
      refine congrArg (· :: _) ?_
      show silentMember (if errors.isAbsent then data.silent.member "data"
        else errors.silent.member "errors") = _
      split <;> rfl
  | relationship => exact plainly parts
  | info => exact plainly parts
  | errorObject => exact plainly parts
  | errorLinks => exact plainly parts
  | errorSource => exact plainly parts

end Value

end JsonApi
