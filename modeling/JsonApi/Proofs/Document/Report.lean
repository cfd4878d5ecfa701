import JsonApi.Document.Composition
import Mathlib.Data.List.Basic

/-!
Content that reports errors. Main statement: it is this content alone that stands for errors, and a list in
which errors and other items stand side by side stands for nothing.
-/

namespace JsonApi

namespace Content

variable {content : Content} {values : List Value}

def listed? : Content → Option (List Item)
  | .sequence items => some items
  | .single (.value (.list items)) => some (items.map .value)
  | .single (.value (.tuple items)) => some (items.map .value)
  | _ => none

/-- Content that reports errors: one error, or a list of errors, which may be dictionaries there. -/
inductive Reports : Content → List Value → Prop where
  | one {v : Value} (error : v.isErrorLike = true) : Reports (.single (.value v)) [v]
  | list {content : Content} {values : List Value} (listed : content.listed? = some (values.map .value))
    (nonempty : values ≠ []) (errors : ∀ v ∈ values, v.isErrorItem = true) : Reports content values

def Mixed (content : Content) : Prop := ∃ items, content.listed? = some items ∧
  (∃ item ∈ items, item.error?.isSome = true) ∧ ∃ item ∈ items, item.error? = none

end Content

namespace Subject

variable {content : Content} {values : List Value} {family : List Model} {items : List Item}

theorem ofContent_of_listed (listed : content.listed? = some items) :
    ofContent family content = ofSequence items := by
  unfold Content.listed? at listed
  split at listed
  · cases listed
    rfl
  · cases listed
    rfl
  · cases listed
    rfl
  · cases listed

theorem error?_value {v : Value} (error : v.isErrorItem = true) : (Item.value v).error? = some v :=
  if_pos error

theorem ofSequence_errors (nonempty : values ≠ []) (errors : ∀ v ∈ values, v.isErrorItem = true) :
    ofSequence (values.map .value) = .ok (.errors values) := by
  have kept : (values.map Item.value).filterMap Item.error? = values := by
    rw [List.filterMap_map]
    exact (List.filterMap_congr fun v member => error?_value (errors v member)).trans List.filterMap_some
  have filled : values.isEmpty = false := List.isEmpty_eq_false_iff.mpr nonempty
  simp only [ofSequence, kept, filled, List.length_map, Bool.false_eq_true, if_false, if_true]

theorem ofContent_of_reports (reports : content.Reports values) :
    ofContent family content = .ok (.errors values) := by
  cases reports with
  | @one v error =>
    have alone : ofValue v = .ok (.errors [v]) := by
      cases v with
      | list | tuple => cases error
      | _ => simp only [ofValue, error, if_true]
    exact alone
  | list listed some errors =>
    rw [ofContent_of_listed listed]
    exact ofSequence_errors some errors

theorem ofContent_of_mixed (mixed : content.Mixed) : ofContent family content = .error .mixedContent := by
  obtain ⟨items, listed, ⟨item, member, error⟩, other, member', plain⟩ := mixed
  rw [ofContent_of_listed listed]
  obtain ⟨v, shape⟩ := Option.isSome_iff_exists.mp error
  have filled : (items.filterMap Item.error?).isEmpty = false :=
    List.isEmpty_eq_false_iff.mpr (List.ne_nil_of_mem (List.mem_filterMap.mpr ⟨item, member, shape⟩))
  have fewer : (items.filterMap Item.error?).length ≠ items.length := by
    intro same
    have all := List.filterMap_length_eq_length.mp same other member'
    rw [plain] at all
    cases all
  simp only [ofSequence, filled, fewer, Bool.false_eq_true, if_false]

theorem eq_value_of_error? {item : Item} {v : Value} (error : item.error? = some v) :
    item = .value v ∧ v.isErrorItem = true := by
  cases item with
  | model place => cases error
  | value w =>
    by_cases passes : w.isErrorItem = true
    · rw [error?_value passes] at error
      cases error
      exact ⟨rfl, passes⟩
    · rw [Item.error?, if_neg passes] at error
      cases error

theorem map_filterMap_error? (errors : ∀ item ∈ items, item.error?.isSome = true) :
    (items.filterMap Item.error?).map .value = items := by
  induction items with
  | nil => rfl
  | cons item rest ih =>
    obtain ⟨here, further⟩ := List.forall_mem_cons.mp errors
    obtain ⟨v, shape⟩ := Option.isSome_iff_exists.mp here
    rw [List.filterMap_cons_some shape, List.map_cons, ih further, (eq_value_of_error? shape).1]

theorem reports_of_ofSequence (listed : content.listed? = some items)
    (stands : ofSequence items = .ok (.errors values)) : content.Reports values := by
  simp only [ofSequence] at stands
  split at stands
  · cases stands
  · next filled =>
    split at stands
    · next same =>
      cases stands
      have all := map_filterMap_error? (List.filterMap_length_eq_length.mp same)
      refine .list (listed.trans (congrArg Option.some all.symm)) (fun empty => filled ?_) fun v member => ?_
      · rw [empty]
        rfl
      · obtain ⟨item, -, error⟩ := List.mem_filterMap.mp member
        exact (eq_value_of_error? error).2
    · cases stands

theorem reports_of_ofContent (stands : ofContent family content = .ok (.errors values)) :
    content.Reports values := by
  cases content with
  | single item =>
    cases item with
    | model place =>
      simp only [ofContent] at stands
      split at stands <;> cases stands
    | value v =>
      simp only [ofContent, ofValue] at stands
      split at stands
      · exact reports_of_ofSequence rfl stands
      · exact reports_of_ofSequence rfl stands
      · split at stands
        · next error =>
          cases stands
          exact .one error
        · split at stands <;> cases stands
  | sequence items => exact reports_of_ofSequence rfl stands
  | stream items => cases stands

theorem ofContent_ne_breach {violation : Violation} :
    ofContent family content ≠ .error (.breach violation) := by
  intro failed
  have listed {items : List Item} : ofSequence items ≠ .error (.breach violation) := by
    intro failed
    simp only [ofSequence] at failed
    split at failed
    · cases failed
    · split at failed <;> cases failed
  cases content with
  | single item =>
    cases item with
    | model place =>
      simp only [ofContent] at failed
      split at failed <;> cases failed
    | value v =>
      simp only [ofContent, ofValue] at failed
      split at failed
      · exact listed failed
      · exact listed failed
      · split at failed
        · cases failed
        · split at failed <;> cases failed
  | sequence items => exact listed failed
  | stream items => cases failed

end Subject

namespace ErrorObject

theorem accept_error {α : Type} {c : Checked α} {fault : Fault} (refused : accept c = .error fault) :
    fault = .invalidMembers c.details := by
  unfold accept at refused
  split at refused
  · cases refused
  · cases refused
    rfl

theorem ofItem_ne_breach {item : Value} {violation : Violation} : ofItem item ≠ .error (.breach violation) := by
  intro refused
  have checked {α : Type} {c : Checked α} : accept c ≠ .error (.breach violation) := by
    intro refused
    cases accept_error refused
  have ofProblem (problem : Problem) : problem.toErrorObject ≠ .error (.breach violation) := by
    intro refused
    unfold Problem.toErrorObject at refused
    cases object : ofEntries problem.entries with
    | error fault =>
      rw [object] at refused
      cases refused
      exact checked object
    | ok object' =>
      rw [object] at refused
      simp only [bind, Except.bind] at refused
      split at refused
      · cases source : accept (checkSourceMembers [(.text "parameter", problem.parameter)]) with
        | error fault =>
          rw [source] at refused
          cases refused
          exact checked source
        | ok source' =>
          rw [source] at refused
          cases refused
      · cases refused
  unfold ofItem at refused
  split at refused
  · cases refused
  · exact ofProblem _ refused
  · exact checked refused
  · cases refused

end ErrorObject

end JsonApi
