import JsonApi.Json.Ordered
import JsonApi.Proofs.Sorting.Stability
import JsonApi.Proofs.Value.Parts
import JsonApi.Proofs.Value.Results
import JsonApi.Value.Keys
import Mathlib.Data.String.Basic

/-!
Trees written in order. Main statement: to encode a value with the members of objects in order is to encode it
as it is and to put the tree in order afterwards, and one of the two fails only if the other does.
-/

namespace JsonApi

namespace Json

variable {α β : Type}

theorem ranking_nameLe : Sorting.Ranking (nameLe : String × β → String × β → Bool) where
  total := fun one other => by
    simp only [nameLe, decide_eq_true_eq]
    exact le_total one.1 other.1
  trans := fun first second => by
    simp only [nameLe, decide_eq_true_eq] at first second ⊢
    exact first.trans second

/-- What is done to the values of members does not move them. -/
theorem mergeSort_map (f : String × α → β) (members : List (String × α)) :
    (members.mergeSort nameLe).map (fun member => (member.1, f member)) =
      (members.map fun member => (member.1, f member)).mergeSort nameLe :=
  List.map_mergeSort fun _ _ _ _ => rfl

end Json

namespace Outcome

variable {α β : Type}

theorem result_sequence_map {as : List α} {f : α → Outcome β} {g : α → β}
    (each : ∀ a ∈ as, (f a).result = .ok (g a)) : (sequence (as.map f)).result = .ok (as.map g) := by
  induction as with
  | nil => rfl
  | cons a rest ih =>
    obtain ⟨here, further⟩ := List.forall_mem_cons.mp each
    rw [List.map_cons, sequence, result_bind, here]
    dsimp only
    rw [result_bind, ih further]
    rfl

theorem result_sequence_fails {as : List α} {f : α → Outcome β} {a : α} {fault : Fault}
    (member : a ∈ as) (failed : (f a).result = .error fault) :
    ∃ fault', (sequence (as.map f)).result = .error fault' := by
  induction as with
  | nil => cases member
  | cons first rest ih =>
    rw [List.map_cons, sequence, result_bind]
    cases shape : (f first).result with
    | error fault' => exact ⟨fault', rfl⟩
    | ok b =>
      rcases List.mem_cons.mp member with rfl | further
      · rw [failed] at shape
        cases shape
      · obtain ⟨fault', fails⟩ := ih further
        refine ⟨fault', ?_⟩
        dsimp only
        rw [result_bind, fails]

end Outcome

namespace Value

theorem lessChars_iff {one other : List Char} : lessChars one other = true ↔ one < other := by
  induction one generalizing other with
  | nil => cases other <;> simp [lessChars]
  | cons c rest ih =>
    cases other with
    | nil => simp [lessChars]
    | cons c' rest' =>
      rw [lessChars, List.cons_lt_cons_iff]
      split
      · next same => simp [ih, same]
      · next different =>
        rw [decide_eq_true_eq, or_iff_left fun both => different both.1]
        exact Iff.rfl

theorem lessText_eq (one other : String) : lessText one other = !decide (other ≤ one) := by
  rw [Bool.eq_iff_iff, lessText, lessChars_iff, ← String.lt_iff_toList_lt, Bool.not_eq_true',
    decide_eq_false_iff_not, not_le]

def named {α : Type} (members : List (String × α)) : List (Value × α) :=
  members.map fun member => (.text member.1, member.2)

def keyText : Value → String
  | .text s => s
  | _ => ""

theorem orderMembers_named {α : Type} (debug : Bool) (members : List (String × α)) :
    orderMembers ⟨debug, true⟩ (named members) = .ok (named (members.mergeSort Json.nameLe)) := by
  let le (one other : Value × α) : Bool := decide (keyText one.1 ≤ keyText other.1)
  have follows : Sorting.Follows (fun one other : Value × α => less one.1 other.1) le
      fun member => ∃ name, member.1 = .text name := by
    refine ⟨⟨fun one other => ?_, fun first second => ?_⟩, ?_⟩
    · simp only [le, decide_eq_true_eq]
      exact le_total _ _
    · simp only [le, decide_eq_true_eq] at first second ⊢
      exact first.trans second
    · rintro ⟨_, one⟩ ⟨_, other⟩ ⟨name, rfl⟩ ⟨name', rfl⟩
      simp only [less, lessText_eq]
      rfl
  have within : ∀ member ∈ named members, ∃ name, member.1 = .text name :=
    List.forall_mem_map.mpr fun member _ => ⟨member.1, rfl⟩
  have sorted : named (members.mergeSort Json.nameLe) = (named members).mergeSort le :=
    List.map_mergeSort fun _ _ _ _ => rfl
  rw [orderMembers, if_pos rfl, Sorting.sort_eq_mergeSort follows within, sorted]

def objectOf (members : List (String × Outcome Json)) : Outcome Json := do
  let members ← Outcome.sequence (members.map fun member => do
    let json ← member.2
    return (member.1, json))
  return .object members

theorem encodeMembers_unsorted (debug : Bool) (members : List (String × Outcome Json)) :
    encodeMembers ⟨debug, false⟩ (named members) = objectOf members := by
  rw [encodeMembers, orderMembers, if_neg Bool.false_ne_true]
  dsimp only
  rw [objectOf, named, List.map_map]
  rfl

theorem encodeMembers_sorted (debug : Bool) (members : List (String × Outcome Json)) :
    encodeMembers ⟨debug, true⟩ (named members) = objectOf (members.mergeSort Json.nameLe) := by
  rw [encodeMembers, orderMembers_named]
  dsimp only
  rw [objectOf, named, List.map_map]
  rfl

def treeOf (o : Outcome Json) : Json := o.result.toOption.getD .null

theorem treeOf_eq {o : Outcome Json} {json : Json} (ok : o.result = .ok json) : treeOf o = json := by
  rw [treeOf, ok]
  rfl

theorem objectOf_ok {members : List (String × Outcome Json)}
    (each : ∀ member ∈ members, ∃ json, member.2.result = .ok json) :
    (objectOf members).result = .ok (.object (members.map fun member => (member.1, treeOf member.2))) := by
  rw [objectOf, Outcome.result_bind, Outcome.result_sequence_map]
  · rfl
  · intro member inside
    obtain ⟨json, ok⟩ := each member inside
    rw [Outcome.result_bind, ok, treeOf_eq ok]
    rfl

theorem objectOf_fails {members : List (String × Outcome Json)} {member : String × Outcome Json}
    {fault : Fault} (inside : member ∈ members) (failed : member.2.result = .error fault) :
    ∃ fault', (objectOf members).result = .error fault' := by
  obtain ⟨fault', fails⟩ := Outcome.result_sequence_fails inside (f := fun member => do
    let json ← member.2
    return (member.1, json)) (by rw [Outcome.result_bind, failed])
  refine ⟨fault', ?_⟩
  rw [objectOf, Outcome.result_bind, fails]

/-- The results of two ways to write a value, as it is and in order. -/
inductive Agree : Except Fault Json → Except Fault Json → Prop where
  | written (json : Json) : Agree (.ok json) (.ok json.inOrder)
  | refused (fault fault' : Fault) : Agree (.error fault) (.error fault')

namespace Agree

variable {o p : Outcome Json}

theorem of_ok (agree : Agree o.result p.result) {json : Json} (ok : o.result = .ok json) :
    p.result = .ok json.inOrder := by
  rw [ok] at agree
  generalize p.result = result at agree
  cases agree
  rfl

theorem of_error (agree : Agree o.result p.result) {fault : Fault} (failed : o.result = .error fault) :
    ∃ fault', p.result = .error fault' := by
  rw [failed] at agree
  generalize p.result = result at agree
  cases agree
  exact ⟨_, rfl⟩

theorem both_ok (json : Json) (ok : o.result = .ok json) (ok' : p.result = .ok json.inOrder) :
    Agree o.result p.result := by
  rw [ok, ok']
  exact .written json

theorem both_fail (fault fault' : Fault) (failed : o.result = .error fault)
    (failed' : p.result = .error fault') : Agree o.result p.result := by
  rw [failed, failed']
  exact .refused fault fault'

end Agree

structure Twin where
  name : String
  plain : Outcome Json
  ordered : Outcome Json

namespace Twin

def agrees (t : Twin) : Prop := Agree t.plain.result t.ordered.result

def plainMember (t : Twin) : String × Outcome Json := (t.name, t.plain)

def orderedMember (t : Twin) : String × Outcome Json := (t.name, t.ordered)

end Twin

/-- Members that agree one by one make objects that agree, also if those that are put in order do not come
in the same order from the start. -/
theorem agree_objectOf {twins : List Twin} (each : ∀ t ∈ twins, t.agrees)
    {others : List (String × Outcome Json)}
    (same : others.mergeSort Json.nameLe = (twins.map Twin.orderedMember).mergeSort Json.nameLe) :
    Agree (objectOf (twins.map Twin.plainMember)).result
      (objectOf (others.mergeSort Json.nameLe)).result := by
  rw [same]
  by_cases all : ∀ t ∈ twins, ∃ json, t.plain.result = .ok json
  · have plain : ∀ member ∈ twins.map Twin.plainMember, ∃ json, member.2.result = .ok json :=
      List.forall_mem_map.mpr all
    have ordered : ∀ member ∈ (twins.map Twin.orderedMember).mergeSort Json.nameLe,
        ∃ json, member.2.result = .ok json := by
      intro member inside
      obtain ⟨t, listed, rfl⟩ := List.mem_map.mp ((List.mergeSort_perm _ _).mem_iff.mp inside)
      obtain ⟨json, ok⟩ := all t listed
      exact ⟨json.inOrder, (each t listed).of_ok ok⟩
    have trees : ∀ t ∈ twins, (t.name, treeOf t.ordered) = (t.name, (treeOf t.plain).inOrder) := by
      intro t listed
      obtain ⟨json, ok⟩ := all t listed
      rw [treeOf_eq ok, treeOf_eq ((each t listed).of_ok ok)]
    refine .both_ok _ (objectOf_ok plain) ?_
    rw [objectOf_ok ordered, Json.mergeSort_map fun member : String × Outcome Json => treeOf member.2,
      Json.inOrder_object]
    simp only [List.map_map, Function.comp_def, Twin.orderedMember, Twin.plainMember]
    rw [List.map_congr_left trees]
  · simp only [not_forall, not_exists] at all
    obtain ⟨t, listed, fails⟩ := all
    cases shape : t.plain.result with
    | ok json => exact absurd shape (fails json)
    | error fault =>
      obtain ⟨fault', shape'⟩ := (each t listed).of_error shape
      have inside : t.orderedMember ∈ (twins.map Twin.orderedMember).mergeSort Json.nameLe :=
        (List.mergeSort_perm _ _).mem_iff.mpr (List.mem_map_of_mem listed)
      obtain ⟨one, failed⟩ := objectOf_fails (List.mem_map_of_mem listed : t.plainMember ∈ _) shape
      obtain ⟨other, failed'⟩ := objectOf_fails inside shape'
      exact .both_fail _ _ failed failed'

variable {α : Type} {debug : Bool}

theorem agree_encodeMembers (debug : Bool) (twins : List Twin) (each : ∀ t ∈ twins, t.agrees)
    {others : List (String × Outcome Json)}
    (same : others.mergeSort Json.nameLe = (twins.map Twin.orderedMember).mergeSort Json.nameLe) :
    Agree (encodeMembers ⟨debug, false⟩ (named (twins.map Twin.plainMember))).result
      (encodeMembers ⟨debug, true⟩ (named others)).result := by
  rw [encodeMembers_unsorted, encodeMembers_sorted]
  exact agree_objectOf each same

theorem agree_self {o : Outcome Json} (plain : ∀ json, o.result = .ok json → json.inOrder = json) :
    Agree o.result o.result := by
  cases shape : o.result with
  | ok json =>
    have agree := Agree.written json
    rwa [plain json shape] at agree
  | error fault => exact .refused fault fault

theorem agree_array {items : List α} {one other : α → Outcome Json}
    (each : ∀ item ∈ items, Agree (one item).result (other item).result) :
    Agree (do return Json.array (← Outcome.sequence (items.map one)) : Outcome Json).result
      (do return Json.array (← Outcome.sequence (items.map other)) : Outcome Json).result := by
  by_cases all : ∀ item ∈ items, ∃ json, (one item).result = .ok json
  · have trees : ∀ item ∈ items, (one item).result = .ok (treeOf (one item)) := by
      intro item member
      obtain ⟨json, ok⟩ := all item member
      rw [treeOf_eq ok, ok]
    have found := Outcome.result_sequence_map trees
    have found' := Outcome.result_sequence_map fun item member =>
      (each item member).of_ok (trees item member)
    refine Agree.both_ok (.array (items.map fun item => treeOf (one item))) ?_ ?_
    · rw [Outcome.result_bind, found]
      rfl
    · rw [Outcome.result_bind, found', Json.inOrder_array, List.map_map]
      rfl
  · simp only [not_forall, not_exists] at all
    obtain ⟨item, member, fails⟩ := all
    cases shape : (one item).result with
    | ok json => exact absurd shape (fails json)
    | error fault =>
      obtain ⟨fault', shape'⟩ := (each item member).of_error shape
      obtain ⟨gone, failed⟩ := Outcome.result_sequence_fails member shape
      obtain ⟨gone', failed'⟩ := Outcome.result_sequence_fails member shape'
      refine Agree.both_fail gone gone' ?_ ?_
      · rw [Outcome.result_bind, failed]
      · rw [Outcome.result_bind, failed']

def Agrees (debug : Bool) (v : Value) : Prop :=
  Agree (encodePlain ⟨debug, false⟩ v).result (encodePlain ⟨debug, true⟩ v).result

def encodeField (encoding : Encoding) (field : String × Value) : String × Outcome Json :=
  (field.1, encodePlain encoding field.2)

def twin (debug : Bool) (field : String × Value) : Twin :=
  ⟨field.1, encodePlain ⟨debug, false⟩ field.2, encodePlain ⟨debug, true⟩ field.2⟩

def present (fields : Members) : Members := fields.filter fun field => !field.2.isNull

theorem presentParts_map (encoding : Encoding) (fields : Members) :
    presentParts (fields.map (part encoding)) = named ((present fields).map (encodeField encoding)) := by
  rw [presentParts, named, present, List.filter_map, List.map_map, List.map_map]
  rfl

theorem agree_members (fields : Members) (each : ∀ field ∈ fields, Agrees debug field.2) :
    Agree (encodeMembers ⟨debug, false⟩ (named (fields.map (encodeField ⟨debug, false⟩)))).result
      (encodeMembers ⟨debug, true⟩ (named (fields.map (encodeField ⟨debug, true⟩)))).result := by
  have agree := agree_encodeMembers debug (fields.map (twin debug)) (List.forall_mem_map.mpr each) rfl
  rwa [List.map_map, List.map_map] at agree

theorem agree_present (fields : Members) (each : ∀ field ∈ fields, Agrees debug field.2) :
    Agree (encodeMembers ⟨debug, false⟩ (presentParts (fields.map (part ⟨debug, false⟩)))).result
      (encodeMembers ⟨debug, true⟩ (presentParts (fields.map (part ⟨debug, true⟩)))).result := by
  rw [presentParts_map, presentParts_map]
  exact agree_members _ fun field member => each field (List.mem_of_mem_filter member)

end Value

end JsonApi
