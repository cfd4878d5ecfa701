import JsonApi.Proofs.Building.Faults
import JsonApi.Proofs.Document.Coverage
import JsonApi.Proofs.Document.Report
import JsonApi.Proofs.Value.Members

/-!
Errors and primary data. Main statement: content makes a document with errors or with primary data, never with
both, and that is what the document shows.
-/

namespace JsonApi

namespace Document

variable {encoding : Encoding} {json : Json} {d : Document}

def otherFields (d : Document) : Members :=
  [("included", .ofOption (fun included => .list (included.map Resource.toValue)) d.included),
    ("links", .ofOption Links.toValue d.links), ("jsonapi", .ofOption Info.toValue d.jsonapi),
    ("meta", .ofOption .ofMembers d.info)]

def mainName (d : Document) : String := if d.errors.isSome then "errors" else "data"

theorem otherNames_apart : ∀ name ∈ Entries.keys d.otherFields, name ≠ "data" ∧ name ≠ "errors" := by
  have names : Entries.keys d.otherFields = ["included", "links", "jsonapi", "meta"] := rfl
  rw [names]
  decide

theorem present_expand (fields : Members) :
    Value.present (fields.map fun field => (field.1, field.2.expand)) =
      (Value.present fields).map fun field => (field.1, field.2.expand) := by
  simp only [Value.present, List.filter_map, Function.comp_def, Value.isNull_expand]

def errorsValue (d : Document) : Value :=
  .ofOption (fun errors => .list (errors.map ErrorObject.toValue)) d.errors

theorem expand_toValue (d : Document) : d.toValue.expand = .record .document
    (Value.expandFields (("data", d.data.toValue) :: ("errors", d.errorsValue) :: d.otherFields)) [] := by
  rw [toValue, Value.expand, if_neg (by simp), if_neg (by simp [Value.Shape.isOpen])]
  rfl

theorem exists_main (encoding : Encoding) (d : Document) : ∃ main : Outcome Json,
    (if (Value.part encoding ("errors", d.errorsValue.expand)).isAbsent = true then
      (Value.part encoding ("data", d.data.toValue.expand)).member "data"
    else (Value.part encoding ("errors", d.errorsValue.expand)).member "errors") =
      (Value.text d.mainName, main) := by
  unfold mainName errorsValue
  cases d.errors with
  | none => exact ⟨_, rfl⟩
  | some errors => exact ⟨_, rfl⟩

/-- What a document shows: data or errors, and the other fields as far as they are there. -/
theorem encode_ok (written : (d.toValue.encode encoding).result = .ok json) :
    ∃ members, json = .object members ∧
      (Entries.keys members).Perm (d.mainName :: Entries.keys (Value.present d.otherFields)) ∧
      ∀ member ∈ members, member.1 ≠ d.mainName → ∃ field ∈ d.otherFields, field.1 = member.1 ∧
        field.2.isNull = false ∧ (Value.encodePlain encoding field.2.expand).result = .ok member.2 := by
  rw [Value.encode, expand_toValue, Value.encodePlain] at written
  split at written
  · cases written
  rw [if_neg (by simp [Value.Shape.isOpen]), Value.encodeFields_eq_map, Value.expandFields_eq_map] at written
  simp only [List.map_cons, Value.encodeShape, Value.presentParts_map, present_expand] at written
  obtain ⟨main, chosen⟩ := exists_main encoding d
  rw [chosen] at written
  let parts : List (String × Outcome Json) := (d.mainName, main) ::
    ((Value.present d.otherFields).map fun field => (field.1, field.2.expand)).map (Value.encodeField encoding)
  have shown : (Value.encodeMembers encoding (Value.named parts)).result = .ok json := written
  obtain ⟨members, rfl, names, forms⟩ := Value.encodeMembers_ok shown
  refine ⟨members, rfl, names.trans (.of_eq ?_), fun member inside other => ?_⟩
  · rw [Entries.keys, List.map_cons, List.map_map, List.map_map]
    rfl
  · obtain ⟨part, listed, same, form⟩ := forms member inside
    rcases List.mem_cons.mp listed with rfl | listed
    · exact absurd same.symm other
    · rw [List.map_map] at listed
      obtain ⟨field, filtered, rfl⟩ := List.mem_map.mp listed
      obtain ⟨inside, present⟩ := List.mem_filter.mp filtered
      exact ⟨field, inside, same, by simpa using present, form⟩

end Document

namespace Build

variable {γ : Type} [Uri.Layout γ]

theorem caused_makeItems (plan : Plan γ) (items : List Item) : Caused plan (makeItems plan items) := by
  induction items with
  | nil => exact caused_pure []
  | cons item rest ih =>
    have first : Caused plan (makeItem plan item) := by
      cases item with
      | model place => exact caused_make plan place
      | value v =>
        refine caused_fail ?_
        unfold Value.absenceFault
        split
        · exact .type
        · exact .member
    exact first.bind fun item => ih.map _

end Build

namespace Document

variable {γ : Type} [Uri.Layout γ] {settings : Settings} {generator : γ} {family : List Model}
  {content : Content} {uri : String} {info : Option Members} {d : Document} {encoding : Encoding} {json : Json}
  {values : List Value}

/-- A JSON object with one of data and errors; what is included stands next to data, and there is some. -/
def Exclusive (json : Json) : Prop := ∃ members, json = .object members ∧ (Entries.keys members).Nodup ∧
  ("data" ∈ Entries.keys members ↔ "errors" ∉ Entries.keys members) ∧
  ∀ form, ("included", form) ∈ members →
    "data" ∈ Entries.keys members ∧ ∃ first rest, form = .array (first :: rest)

theorem nodup_shownNames (d : Document) :
    (d.mainName :: Entries.keys (Value.present d.otherFields)).Nodup := by
  have inside := (List.filter_sublist (l := d.otherFields) (p := fun field => !field.2.isNull)).map Prod.fst
  refine List.nodup_cons.mpr ⟨fun member => ?_, ?_⟩
  · obtain ⟨noData, noErrors⟩ := otherNames_apart _ (inside.subset member)
    unfold mainName at noData noErrors
    cases given : d.errors.isSome with
    | true => exact noErrors (if_pos given)
    | false => exact noData (if_neg (by rw [given]; exact Bool.false_ne_true))
  · exact inside.nodup (by decide : ["included", "links", "jsonapi", "meta"].Nodup)

theorem eq_included {field : String × Value} (listed : field ∈ d.otherFields) (name : field.1 = "included") :
    field.2 = .ofOption (fun included => .list (included.map Resource.toValue)) d.included := by
  simp only [otherFields, List.mem_cons, List.not_mem_nil, or_false] at listed
  rcases listed with rfl | rfl | rfl | rfl
  · rfl
  all_goals exact absurd name (by simp)

theorem exists_cons_of_included {included : List Resource} {form : Json} (nonempty : included ≠ [])
    (written : (Value.encodePlain encoding
      (Value.list (included.map Resource.toValue)).expand).result = .ok form) :
    ∃ first rest, form = .array (first :: rest) := by
  rw [Value.expand, Value.expandItems_eq_map] at written
  obtain ⟨items, rfl, length⟩ := Value.encodePlain_list_ok written
  rw [List.length_map, List.length_map] at length
  have filled : items ≠ [] := by
    rintro rfl
    exact nonempty (List.length_eq_zero_iff.mp length.symm)
  obtain ⟨first, rest, rfl⟩ := List.exists_cons_of_ne_nil filled
  exact ⟨first, rest, rfl⟩

theorem exclusive_encode (apart : ∀ included ∈ d.included, d.errors = none ∧ included ≠ [])
    (written : (d.toValue.encode encoding).result = .ok json) : Exclusive json := by
  obtain ⟨members, rfl, names, forms⟩ := encode_ok written
  have others : ∀ name ∈ Entries.keys (Value.present d.otherFields), name ≠ "data" ∧ name ≠ "errors" :=
    fun name member => otherNames_apart name ((List.filter_sublist.map _).subset member)
  have data : "data" ∈ Entries.keys members ↔ d.errors = none := by
    rw [names.mem_iff, List.mem_cons, or_iff_left fun member => (others "data" member).1 rfl, mainName]
    cases d.errors <;> simp
  have errors : "errors" ∈ Entries.keys members ↔ d.errors ≠ none := by
    rw [names.mem_iff, List.mem_cons, or_iff_left fun member => (others "errors" member).2 rfl, mainName]
    cases d.errors <;> simp
  refine ⟨members, rfl, names.nodup_iff.mpr (nodup_shownNames d), ?_, fun form inside => ?_⟩
  · rw [data, errors, not_not]
  · have other : "included" ≠ d.mainName := by
      unfold mainName
      split <;> decide
    obtain ⟨field, listed, name, present, formed⟩ := forms _ inside other
    rw [eq_included listed name] at present formed
    cases given : d.included with
    | none =>
      rw [given] at present
      cases present
    | some included =>
      obtain ⟨noErrors, nonempty⟩ := apart included given
      rw [given] at formed
      exact ⟨data.mpr noErrors, exists_cons_of_included nonempty formed⟩

theorem errorObjects_cases (values : List Value) :
    (∃ objects, errorObjects values = .ok objects ∧
      List.Forall₂ (fun v object => ErrorObject.ofItem v = .ok object) values objects) ∨
    ∃ before v after fault, values = before ++ v :: after ∧
      (∀ w ∈ before, ∃ object, ErrorObject.ofItem w = .ok object) ∧ ErrorObject.ofItem v = .error fault ∧
      errorObjects values = .error fault := by
  induction values with
  | nil => exact Or.inl ⟨[], rfl, .nil⟩
  | cons v rest ih =>
    cases converted : ErrorObject.ofItem v with
    | error fault =>
      refine Or.inr ⟨[], v, rest, fault, rfl, List.forall_mem_nil _, converted, ?_⟩
      rw [errorObjects, converted]
      rfl
    | ok object =>
      rcases ih with ⟨objects, listed, each⟩ | ⟨before, w, after, fault, rfl, each, refused, fails⟩
      · refine Or.inl ⟨object :: objects, ?_, .cons converted each⟩
        rw [errorObjects, converted, listed]
        rfl
      · refine Or.inr ⟨v :: before, w, after, fault, rfl, List.forall_mem_cons.mpr ⟨⟨object, converted⟩, each⟩,
          refused, ?_⟩
        rw [errorObjects, converted, fails]
        rfl

theorem result_compose : (compose settings generator family content uri info).result =
    match Subject.ofContent family content with
    | .ok subject =>
      (ofSubject settings ⟨Query.ofReference uri.toList, generator, family⟩ uri info subject).result
    | .error fault => .error fault := by
  unfold compose
  cases Subject.ofContent family content <;> rfl

theorem result_assemble_errors (settings : Settings) (uri : String) (info : Option Members)
    (objects : List ErrorObject) :
    ∃ d, (assemble settings uri info .absent (some objects) .empty).result = .ok d ∧
      d.errors = some objects ∧ d.data = .absent ∧ d.included = none :=
  ⟨_, rfl, rfl, rfl, rfl⟩

/-- Content that reports errors makes a document of their error objects, unless one of them has none. -/
theorem compose_reports (settings : Settings) (generator : γ) (family : List Model) (uri : String)
    (info : Option Members) (reports : content.Reports values) :
    (∃ objects d, List.Forall₂ (fun v object => ErrorObject.ofItem v = .ok object) values objects ∧
      (compose settings generator family content uri info).result = .ok d ∧
      d.errors = some objects ∧ d.data = .absent ∧ d.included = none) ∨
    ∃ before v after fault, values = before ++ v :: after ∧
      (∀ w ∈ before, ∃ object, ErrorObject.ofItem w = .ok object) ∧ ErrorObject.ofItem v = .error fault ∧
      (compose settings generator family content uri info).result = .error fault := by
  have steps : (compose settings generator family content uri info).result =
      (Outcome.ofExcept (errorObjects values) >>= fun objects =>
        assemble settings uri info .absent (some objects) .empty).result := by
    rw [result_compose, Subject.ofContent_of_reports reports]
    rfl
  rcases errorObjects_cases values with
    ⟨objects, listed, each⟩ | ⟨before, v, after, fault, shape, each, refused, fails⟩
  · obtain ⟨d, made, rest⟩ := result_assemble_errors settings uri info objects
    rw [listed] at steps
    exact Or.inl ⟨objects, d, each, steps.trans made, rest⟩
  · rw [fails] at steps
    exact Or.inr ⟨before, v, after, fault, shape, each, refused, steps⟩

/-- Of a list in which errors and other items stand side by side nobody is asked anything: whatever the models
and the generator do, only the query has left records. -/
theorem compose_mixed (mixed : content.Mixed) : compose settings generator family content uri info =
    ⟨Query.recordsOfReference uri.toList, .error .mixedContent⟩ := by
  unfold compose
  rw [Subject.ofContent_of_mixed mixed]
  exact congrArg (Outcome.mk · (.error .mixedContent)) (List.append_nil _)

theorem presentIncluded_ne_nil {resources included : List Resource}
    (present : presentIncluded resources = some included) : included ≠ [] := by
  unfold presentIncluded at present
  split at present
  · cases present
  · next filled =>
    cases present
    exact fun empty => filled (List.isEmpty_iff.mpr empty)

theorem data_of_compose (other : ¬∃ values, content.Reports values)
    (composed : (compose settings generator family content uri info).result = .ok d) :
    d.data.isAbsent = false ∧ d.errors = none ∧ ∀ included ∈ d.included, included ≠ [] := by
  rw [result_compose] at composed
  cases stands : Subject.ofContent family content with
  | error fault =>
    rw [stands] at composed
    cases composed
  | ok subject =>
    rw [stands] at composed
    cases subject with
    | errors values => exact absurd ⟨values, Subject.reports_of_ofContent stands⟩ other
    | one place =>
      obtain ⟨built, -, assembled⟩ := Outcome.bind_ok composed
      rw [assemble_ok assembled]
      exact ⟨rfl, rfl, fun _ => presentIncluded_ne_nil⟩
    | many items =>
      obtain ⟨built, -, assembled⟩ := Outcome.bind_ok composed
      rw [assemble_ok assembled]
      exact ⟨rfl, rfl, fun _ => presentIncluded_ne_nil⟩

theorem result_assemble_data (settings : Settings) (uri : String) (info : Option Members) (data : PrimaryData)
    (store : Store) :
    ∃ d, (assemble settings uri info data none store).result = .ok d :=
  ⟨_, rfl⟩

/-- Of the failures of a build this one can only be that of a model or of the generator. -/
theorem fails_of_cause {plan : Plan γ} (cause : Build.Cause plan (.breach .dataAndErrors)) :
    (∃ model ∈ plan.family, model.FailsWith (.breach .dataAndErrors)) ∨
      Uri.Layout.FailsWith plan.generator (.breach .dataAndErrors) := by
  cases cause with
  | model inside fails => exact Or.inl ⟨_, inside, fails⟩
  | generator fails => exact Or.inr fails

/-- Putting a document together never fails because of both data and errors. -/
theorem fails_of_compose
    (failed : (compose settings generator family content uri info).result = .error (.breach .dataAndErrors)) :
    (∃ model ∈ family, model.FailsWith (.breach .dataAndErrors)) ∨
      Uri.Layout.FailsWith generator (.breach .dataAndErrors) := by
  rw [result_compose] at failed
  cases stands : Subject.ofContent family content with
  | error fault =>
    rw [stands] at failed
    cases failed
    exact absurd stands Subject.ofContent_ne_breach
  | ok subject =>
    rw [stands] at failed
    cases subject with
    | errors values =>
      rcases Outcome.bind_error failed with failed | ⟨objects, -, failed⟩
      · have refused := Outcome.ofExcept_error failed
        rcases errorObjects_cases values with ⟨objects, listed, -⟩ | ⟨_, v, _, fault, -, -, refused', fails⟩
        · rw [listed] at refused
          cases refused
        · rw [fails] at refused
          cases refused
          exact absurd refused' ErrorObject.ofItem_ne_breach
      · obtain ⟨d, made, -⟩ := result_assemble_errors settings uri info objects
        cases made.symm.trans failed
    | one place =>
      rcases Outcome.bind_error failed with failed | ⟨built, -, failed⟩
      · obtain ⟨left, failed⟩ := Build.run_error failed
        exact fails_of_cause (Build.caused_make _ place _ _ left failed)
      · obtain ⟨d, made⟩ := result_assemble_data settings uri info _ _
        cases made.symm.trans failed
    | many items =>
      rcases Outcome.bind_error failed with failed | ⟨built, -, failed⟩
      · obtain ⟨left, failed⟩ := Build.run_error failed
        exact fails_of_cause (Build.caused_makeItems _ items _ _ left failed)
      · obtain ⟨d, made⟩ := result_assemble_data settings uri info _ _
        cases made.symm.trans failed

/-- Content that reports errors makes a document of their error objects, in order, or fails as the first item
does that has none; in a list of errors and other items nobody is asked anything; all other documents have
primary data. So no document is refused for having both, and what it shows has one of them, with something
included only next to data. -/
theorem compose_exclusive (settings : Settings) (generator : γ) (family : List Model) (content : Content)
    (uri : String) (info : Option Members) :
    (∀ values, content.Reports values →
      (∃ objects d, List.Forall₂ (fun v object => ErrorObject.ofItem v = .ok object) values objects ∧
        (compose settings generator family content uri info).result = .ok d ∧
        d.errors = some objects ∧ d.data = .absent ∧ d.included = none) ∨
      ∃ before v after fault, values = before ++ v :: after ∧
        (∀ w ∈ before, ∃ object, ErrorObject.ofItem w = .ok object) ∧ ErrorObject.ofItem v = .error fault ∧
        (compose settings generator family content uri info).result = .error fault) ∧
    (content.Mixed → compose settings generator family content uri info =
      ⟨Query.recordsOfReference uri.toList, .error .mixedContent⟩) ∧
    ((¬∃ values, content.Reports values) → ∀ d,
      (compose settings generator family content uri info).result = .ok d →
        d.data.isAbsent = false ∧ d.errors = none) ∧
    ((compose settings generator family content uri info).result = .error (.breach .dataAndErrors) →
      (∃ model ∈ family, model.FailsWith (.breach .dataAndErrors)) ∨
        Uri.Layout.FailsWith generator (.breach .dataAndErrors)) ∧
    ∀ d, (compose settings generator family content uri info).result = .ok d →
      ∀ encoding json, (d.toValue.encode encoding).result = .ok json → Exclusive json := by
  refine ⟨fun _ => compose_reports settings generator family uri info, compose_mixed,
    fun other d composed => ?_, fails_of_compose, fun d composed encoding json written => ?_⟩
  · obtain ⟨data, errors, -⟩ := data_of_compose other composed
    exact ⟨data, errors⟩
  · refine exclusive_encode (fun included given => ?_) written
    by_cases reports : ∃ values, content.Reports values
    · obtain ⟨values, reports⟩ := reports
      rcases compose_reports settings generator family uri info reports with
        ⟨objects, d', -, composed', -, -, nothing⟩ | ⟨_, _, _, fault, -, -, -, fails⟩
      · cases composed.symm.trans composed'
        rw [nothing] at given
        cases given
      · rw [fails] at composed
        cases composed
    · obtain ⟨-, errors, filled⟩ := data_of_compose reports composed
      exact ⟨errors, filled included given⟩

def unbased : Except Fault String := .ok ""

def composeAlone (content : Content) : Outcome Document :=
  compose ⟨none, [], []⟩ unbased [Model.bare "Cup"] content "/cups" none

def teapot : Value := .dict [(.text "status", .int 418)]

/-- A dictionary in a list is an error, next to a model it is too much, and no items are primary data. -/
theorem teapot_exclusive :
    (∃ d, (composeAlone (.sequence [.value teapot])).result = .ok d ∧ d.errors.isSome = true ∧
      d.data = .absent) ∧
    composeAlone (.sequence [.value teapot, .model 0]) =
      ⟨Query.recordsOfReference "/cups".toList, .error .mixedContent⟩ ∧
    ∃ d json, (composeAlone (.sequence [])).result = .ok d ∧ d.data.isAbsent = false ∧ d.errors = none ∧
      (d.toValue.encode ⟨false, true⟩).result = .ok json ∧ Exclusive json := by
  have facts (content : Content) :=
    compose_exclusive ⟨none, [], []⟩ unbased [Model.bare "Cup"] content "/cups" none
  refine ⟨?_, ?_, ?_⟩
  · have passes : (composeAlone (.sequence [.value teapot])).result.toOption.any (fun _ => true) = true := by
      decide +kernel
    obtain ⟨_, answer, -⟩ := Outcome.exists_ok passes
    have reports : (Content.sequence [.value teapot]).Reports [teapot] :=
      .list rfl (List.cons_ne_nil _ _) (List.forall_mem_singleton.mpr rfl)
    rcases (facts _).1 _ reports with ⟨objects, d, -, composed, errors, data, -⟩ | ⟨_, _, _, _, -, -, -, fails⟩
    · exact ⟨d, composed, by rw [errors]; rfl, data⟩
    · cases answer.symm.trans fails
  · exact (facts _).2.1
      ⟨_, rfl, ⟨_, List.mem_cons_self, rfl⟩, _, List.mem_cons_of_mem _ List.mem_cons_self, rfl⟩
  · have passes : (composeAlone (.sequence [])).result.toOption.any
        (fun d => (d.toValue.encode ⟨false, true⟩).result.toOption.any fun _ => true) = true := by
      decide +kernel
    obtain ⟨d, composed, written⟩ := Outcome.exists_ok passes
    obtain ⟨json, written, -⟩ := Outcome.exists_ok written
    obtain ⟨-, -, data, -, exclusive⟩ := facts (.sequence [])
    have plain : ¬∃ values, (Content.sequence []).Reports values := by
      rintro ⟨values, reports⟩
      cases reports with
      | list listed some => exact some (List.map_eq_nil_iff.mp (Option.some.inj listed).symm)
    obtain ⟨present, errors⟩ := data plain d composed
    exact ⟨d, json, composed, present, errors, written, exclusive d composed _ json written⟩

end Document

end JsonApi
