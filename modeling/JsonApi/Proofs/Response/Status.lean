import JsonApi.Proofs.Building.Steps
import JsonApi.Proofs.Text.Integer
import JsonApi.Response

/-!
The status of a response. Main statement: the status of errors is made from the statuses of any two parts that
they fall into, so it depends on the set of errors alone, and no error that is not the fault of a client is
reported as one.
-/

namespace JsonApi.Response

def combine (a b : Int) : Int :=
  if a = b then a else if isClientError a && isClientError b then 400 else 500

section Statuses

variable {statuses others : List Int} {s t : Int}

theorem commonStatus_of_same (member : s ∈ statuses) (same : ∀ t ∈ statuses, t = s) :
    commonStatus statuses = s := by
  cases statuses with
  | nil => cases member
  | cons first rest =>
    obtain ⟨head, further⟩ := List.forall_mem_cons.mp same
    have all : rest.all (· = first) = true :=
      List.all_eq_true.mpr fun t inside => decide_eq_true ((further t inside).trans head.symm)
    rw [commonStatus, if_pos all, head]

theorem commonStatus_of_different (member : s ∈ statuses) (member' : t ∈ statuses)
    (different : s ≠ t) : commonStatus statuses = if statuses.all isClientError then 400 else 500 := by
  cases statuses with
  | nil => cases member
  | cons first rest =>
    have several : ¬rest.all (· = first) = true := by
      intro all
      have same : ∀ u ∈ first :: rest, u = first :=
        List.forall_mem_cons.mpr ⟨rfl, by simpa using all⟩
      exact different ((same s member).trans (same t member').symm)
    rw [commonStatus, if_neg several, List.all_cons]

/-- Statuses are all the same, or the most general one of their class stands for them. -/
theorem commonStatus_cases (nonempty : statuses ≠ []) : (∀ s ∈ statuses, s = commonStatus statuses) ∨
    commonStatus statuses = if statuses.all isClientError then 400 else 500 := by
  obtain ⟨s, member⟩ := List.exists_mem_of_ne_nil statuses nonempty
  by_cases same : ∀ t ∈ statuses, t = s
  · rw [commonStatus_of_same member same]
    exact Or.inl same
  · push Not at same
    obtain ⟨t, member', different⟩ := same
    exact Or.inr (commonStatus_of_different member' member different)

/-- The common status is of clients exactly if all are. -/
theorem isClientError_commonStatus (nonempty : statuses ≠ []) :
    isClientError (commonStatus statuses) = statuses.all isClientError := by
  rcases commonStatus_cases nonempty with same | general
  · obtain ⟨s, member⟩ := List.exists_mem_of_ne_nil statuses nonempty
    rw [Bool.eq_iff_iff, List.all_eq_true]
    constructor
    · intro client t inside
      rwa [same t inside]
    · intro client
      rw [← same s member]
      exact client s member
  · rw [general]
    cases statuses.all isClientError <;> rfl

theorem combine_self (s : Int) : combine s s = s := if_pos rfl

theorem commonStatus_append (nonempty : statuses ≠ []) (nonempty' : others ≠ []) :
    commonStatus (statuses ++ others) = combine (commonStatus statuses) (commonStatus others) := by
  obtain ⟨s, member⟩ := List.exists_mem_of_ne_nil statuses nonempty
  obtain ⟨t, member'⟩ := List.exists_mem_of_ne_nil others nonempty'
  rcases commonStatus_cases (List.append_ne_nil_of_left_ne_nil nonempty others) with same | general
  · obtain ⟨left, right⟩ := List.forall_mem_append.mp same
    have first := commonStatus_of_same member fun u inside =>
      (left u inside).trans (left s member).symm
    have second := commonStatus_of_same member' fun u inside =>
      (right u inside).trans (right t member').symm
    rw [first, second, left s member, right t member', combine_self]
  · rw [List.all_append, ← isClientError_commonStatus nonempty, ← isClientError_commonStatus nonempty'] at general
    by_cases alike : commonStatus statuses = commonStatus others
    · rw [alike, combine_self]
      rw [alike, Bool.and_self] at general
      -- Equal statuses of the parts are those of all errors, or the most general ones.
      rcases commonStatus_cases nonempty' with right | stands'
      · rcases commonStatus_cases nonempty with left | stands
        · rw [alike] at left
          refine commonStatus_of_same ?_ (List.forall_mem_append.mpr ⟨left, right⟩)
          rw [← left s member]
          exact List.mem_append_left _ member
        · rw [general, ← alike, isClientError_commonStatus nonempty, ← stands]
      · rw [general, isClientError_commonStatus nonempty', ← stands']
    · rw [general, combine, if_neg alike]

/-- Neither the order nor the number of statuses counts. -/
theorem commonStatus_congr (members : ∀ s, s ∈ statuses ↔ s ∈ others) :
    commonStatus statuses = commonStatus others := by
  rcases eq_or_ne statuses [] with rfl | nonempty
  · rw [List.eq_nil_iff_forall_not_mem.mpr fun s member => List.not_mem_nil ((members s).mpr member)]
  · obtain ⟨s, member⟩ := List.exists_mem_of_ne_nil statuses nonempty
    have nonempty' : others ≠ [] := List.ne_nil_of_mem ((members s).mp member)
    rcases commonStatus_cases nonempty with same | general
    · refine (commonStatus_of_same (s := commonStatus statuses) ?_ ?_).symm
      · rw [← same s member]
        exact (members s).mp member
      · exact fun t inside => same t ((members t).mpr inside)
    · rcases commonStatus_cases nonempty' with same | general'
      · refine commonStatus_of_same (s := commonStatus others) ?_ ?_
        · rw [← same s ((members s).mp member)]
          exact member
        · exact fun t inside => same t ((members t).mp inside)
      · have all : statuses.all isClientError = others.all isClientError := by
          rw [Bool.eq_iff_iff, List.all_eq_true, List.all_eq_true]
          exact forall_congr' fun s => imp_congr_left (members s)
        rw [general, general', all]

theorem commonStatus_of_other (member : s ∈ statuses) (other : isClientError s = false) :
    commonStatus statuses = s ∨ commonStatus statuses = 500 := by
  rcases commonStatus_cases (List.ne_nil_of_mem member) with same | general
  · exact Or.inl (same s member).symm
  · have mixed : statuses.all isClientError = false := by
      rw [List.all_eq_false]
      exact ⟨s, member, by rw [other]; exact Bool.false_ne_true⟩
    rw [mixed] at general
    exact Or.inr general

end Statuses

section Errors

theorem statusCode_of_whole {e : ErrorObject} {text : String} {i : Int} (status : e.status = some text)
    (written : Text.Whole text.toList i) : e.statusCode = i := by
  rw [ErrorObject.statusCode, status]
  exact congrArg (Option.getD · 500) (Text.readInteger?_eq_some_iff.mpr written)

theorem statusCode_of_unreadable {e : ErrorObject}
    (unreadable : ∀ text ∈ e.status, ∀ i, ¬Text.Whole text.toList i) : e.statusCode = 500 := by
  rw [ErrorObject.statusCode]
  split
  · next text status =>
    have nothing : Text.readInteger? text.toList = none :=
      Option.eq_none_iff_forall_ne_some.mpr fun i read =>
        unreadable text status i (Text.readInteger?_eq_some_iff.mp read)
    rw [nothing]
    rfl
  · rfl

/-- A response without a status of its own has that of the errors of its document, or that of success. -/
theorem status_of_make {settings : Settings} {debug : Bool} {request : Request} {order : Order}
    {response : Response} (derived : order.status = none)
    (made : (make settings debug (some request) order).result = .ok response) :
    ∃ document, (Document.compose settings (order.generator.base settings (some request)) order.family
      order.content request.url order.info).result = .ok document ∧
        response.status = (document.errors.map statusOf).getD 200 := by
  obtain ⟨document, composed, rest⟩ := Outcome.bind_ok made
  obtain ⟨body, -, rest⟩ := Outcome.bind_ok rest
  obtain ⟨mediaType, -, rest⟩ := Outcome.bind_ok rest
  cases rest
  refine ⟨document, composed, ?_⟩
  rw [derived, Option.getD_none, documentStatus]
  cases document.errors <;> rfl

/-- The status of errors is combined from those of any two parts of them; a single error has the one that its
text reads as. So neither order nor repetition counts, errors of clients only are one of a client, and an error
that is none shows as itself or as the general error of servers. Responses have the status of their errors. -/
theorem statusOf_combines :
    (∀ xs ys, xs ≠ [] → ys ≠ [] → statusOf (xs ++ ys) = combine (statusOf xs) (statusOf ys)) ∧
    (∀ e : ErrorObject,
      (∀ text ∈ e.status, ∀ i, Text.Whole text.toList i → statusOf [e] = i) ∧
      ((∀ text ∈ e.status, ∀ i, ¬Text.Whole text.toList i) → statusOf [e] = 500)) ∧
    statusOf [] = 500 ∧
    (∀ xs ys, (∀ e, e ∈ xs ↔ e ∈ ys) → statusOf xs = statusOf ys) ∧
    (∀ xs, xs ≠ [] → (∀ e ∈ xs, isClientError (statusOf [e]) = true) →
      isClientError (statusOf xs) = true) ∧
    (∀ xs, ∀ e ∈ xs, isClientError (statusOf [e]) = false →
      isClientError (statusOf xs) = false ∧ (statusOf xs = statusOf [e] ∨ statusOf xs = 500)) ∧
    ∀ settings debug request order response, order.status = none →
      (make settings debug (some request) order).result = .ok response →
        ∃ document, (Document.compose settings (order.generator.base settings (some request)) order.family
          order.content request.url order.info).result = .ok document ∧
            response.status = (document.errors.map statusOf).getD 200 := by
  have coded {xs : List ErrorObject} (nonempty : xs ≠ []) : xs.map ErrorObject.statusCode ≠ [] :=
    List.map_eq_nil_iff.not.mpr nonempty
  refine ⟨fun xs ys nonempty nonempty' => ?_, fun e => ⟨fun text status i => ?_, ?_⟩, rfl, fun xs ys members => ?_,
    fun xs nonempty client => ?_, fun xs e member other => ?_, fun _ _ _ _ _ => status_of_make⟩
  · rw [statusOf, List.map_append]
    exact commonStatus_append (coded nonempty) (coded nonempty')
  · exact statusCode_of_whole status
  · exact statusCode_of_unreadable
  · refine commonStatus_congr fun s => ?_
    simp only [List.mem_map, members]
  · rw [statusOf, isClientError_commonStatus (coded nonempty), List.all_map]
    exact List.all_eq_true.mpr client
  · have code : e.statusCode ∈ xs.map ErrorObject.statusCode := List.mem_map_of_mem member
    refine ⟨?_, commonStatus_of_other code other⟩
    rw [statusOf, isClientError_commonStatus (List.ne_nil_of_mem code), List.all_eq_false]
    exact ⟨_, code, Bool.eq_false_iff.mp other⟩

def reported (status : String) : ErrorObject := { ErrorObject.empty with status := some status }

def refusedOrder : Order where
  generator := .rooted
  family := []
  content := .sequence [.value (reported "404").toValue, .value (.dict [(.text "status", .int 409)])]
  status := none
  info := none

def plainSettings : Settings := ⟨none, [], []⟩

/-- Errors of clients are summed up as such, but not next to one that cannot be read. -/
theorem statusOf_reported :
    statusOf ([reported "404", reported "409"] ++ [reported "unknown"]) =
      combine (statusOf [reported "404", reported "409"]) (statusOf [reported "unknown"]) ∧
    statusOf [reported " +4_04"] = 404 ∧ statusOf [reported "unknown"] = 500 ∧
    statusOf [reported "404", reported "409", reported "404"] = statusOf [reported "409", reported "404"] ∧
    isClientError (statusOf [reported "404", reported "409"]) = true ∧
    isClientError (statusOf [reported "404", reported "503"]) = false ∧
    ∃ (response : Response) (document : Document),
      (make plainSettings false (some ⟨"/", "/"⟩) refusedOrder).result = .ok response ∧
      response.status = (document.errors.map statusOf).getD 200 := by
  obtain ⟨append, single, -, members, clients, other, made⟩ := statusOf_combines
  have read : Text.Whole " +4_04".toList 404 := Text.readInteger?_eq_some_iff.mp (by decide +kernel)
  have unread (text : String) (status : text ∈ (reported "unknown").status) (i : Int) :
      ¬Text.Whole text.toList i := by
    cases status
    rw [← Text.readInteger?_eq_some_iff]
    have nothing : Text.readInteger? "unknown".toList = none := by decide +kernel
    rw [nothing]
    exact Option.some_ne_none i ∘ Eq.symm
  refine ⟨append _ _ (List.cons_ne_nil _ _) (List.cons_ne_nil _ _), (single _).1 _ rfl _ read,
    (single _).2 unread, members _ _ fun e => ?_, clients _ (List.cons_ne_nil _ _) ?_,
    (other _ (reported "503") ?_ ?_).1, ?_⟩
  · simp only [List.mem_cons, List.not_mem_nil, or_false]
    tauto
  · simp only [List.forall_mem_cons]
    decide +kernel
  · exact List.mem_cons_of_mem _ List.mem_cons_self
  · decide +kernel
  · have passes : (make plainSettings false (some ⟨"/", "/"⟩) refusedOrder).result.toOption.any
        (fun _ => true) = true := by decide +kernel
    obtain ⟨response, answer, -⟩ := Outcome.exists_ok passes
    obtain ⟨document, -, status⟩ := made _ _ _ _ _ rfl answer
    exact ⟨response, document, answer, status⟩

end Errors

end JsonApi.Response
