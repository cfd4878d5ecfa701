import JsonApi.Application
import JsonApi.Proofs.Value.Outline
import Mathlib.Data.List.Forall2

/-!
What responses keep to themselves. Main statement: while details are hidden, responses do not depend on the
messages of problems other than those of validation, nor on anything in values that documents have no form
for.
-/

namespace JsonApi

variable {debug : Bool} {v w : Value}

namespace Problem

def Kind.hides : Kind → Bool
  | .notFound => true
  | .forbidden => true
  | .failed => true
  | _ => false

variable {kind : Kind} {r r' : Report} {p p' : Problem}

/-- Without details a hidden message shows nowhere but in the message itself. -/
theorem report_hidden (hides : kind.hides = true) (made : (report false kind r).result = .ok p) :
    p.kind = kind ∧ p.detail = kind.lead ++ hiddenDetail ∧ p.status = r.status.getD (.int kind.status) ∧
      p.code = r.code.getD .null := by
  have shown : shownMessage? false kind (r.message.getD (.text "")) = some hiddenDetail := by
    cases kind <;> first | rfl | cases hides
  unfold report at made
  split at made
  · cases made
  · simp only [shown] at made
    cases made
    exact ⟨rfl, rfl, rfl, rfl⟩

theorem toErrorObject_congr (hides : p.kind.hides = true) (kind : p.kind = p'.kind)
    (detail : p.detail = p'.detail) (status : p.status = p'.status) (code : p.code = p'.code) :
    p.toErrorObject = p'.toErrorObject := by
  have other : p.kind ≠ .invalid := by
    intro invalid
    rw [invalid] at hides
    cases hides
  have other' : p'.kind ≠ .invalid := by rwa [← kind]
  simp only [toErrorObject, entries, kind, detail, status, code, other', false_and, if_false]

end Problem

/-- Items of a list of errors that differ at most in what was said about a problem whose message is
hidden. -/
inductive Value.Reworded (debug : Bool) : Value → Value → Prop where
  | same (v : Value) : Reworded debug v v
  | message {kind : Problem.Kind} {r r' : Problem.Report} {p p' : Problem} (hides : kind.hides = true)
    (status : r.status = r'.status) (code : r.code = r'.code)
    (made : (Problem.report debug kind r).result = .ok p)
    (made' : (Problem.report debug kind r').result = .ok p') : Reworded debug p.toValue p'.toValue

namespace Value

theorem Reworded.cases (reworded : Reworded false v w) :
    v = w ∨ ∃ p p' : Problem, v = p.toValue ∧ w = p'.toValue ∧ p.kind = p'.kind ∧
      p.toErrorObject = p'.toErrorObject := by
  cases reworded with
  | same => exact Or.inl rfl
  | message hides status code made made' =>
    obtain ⟨kind, detail, status₁, code₁⟩ := Problem.report_hidden hides made
    obtain ⟨kind', detail', status₂, code₂⟩ := Problem.report_hidden hides made'
    refine Or.inr ⟨_, _, rfl, rfl, kind.trans kind'.symm, ?_⟩
    refine Problem.toErrorObject_congr (by rw [kind]; exact hides) (kind.trans kind'.symm)
      (detail.trans detail'.symm) ?_ ?_
    · rw [status₁, status₂, status]
    · rw [code₁, code₂, code]

theorem Reworded.isErrorItem (reworded : Reworded false v w) : v.isErrorItem = w.isErrorItem := by
  rcases reworded.cases with rfl | ⟨p, p', rfl, rfl, _⟩ <;> rfl

theorem Reworded.absenceFault (reworded : Reworded false v w) (operation : String) :
    v.absenceFault operation = w.absenceFault operation := by
  rcases reworded.cases with rfl | ⟨p, p', rfl, rfl, _⟩ <;> rfl

theorem Reworded.ofItem (reworded : Reworded false v w) :
    ErrorObject.ofItem v = ErrorObject.ofItem w := by
  rcases reworded.cases with rfl | ⟨p, p', rfl, rfl, _, same⟩
  · rfl
  · exact same

end Value

/-- Errors that are reworded have the same error objects, or none for the same reason. -/
theorem errorObjects_reworded {items items' : List Value}
    (reworded : List.Forall₂ (Value.Reworded false) items items') :
    Document.errorObjects items = Document.errorObjects items' := by
  induction reworded with
  | nil => rfl
  | cons first _ ih => rw [Document.errorObjects, Document.errorObjects, first.ofItem, ih]

inductive Item.Reworded (debug : Bool) : Item → Item → Prop where
  | model (place : Nat) : Reworded debug (.model place) (.model place)
  | value {v w : Value} (reworded : v.Reworded debug w) : Reworded debug (.value v) (.value w)

inductive Content.Reworded (debug : Bool) : Content → Content → Prop where
  | single {item item' : Item} (reworded : item.Reworded debug item') :
    Reworded debug (.single item) (.single item')
  | list {items items' : List Value} (reworded : List.Forall₂ (Value.Reworded debug) items items') :
    Reworded debug (.single (.value (.list items))) (.single (.value (.list items')))
  | tuple {items items' : List Value} (reworded : List.Forall₂ (Value.Reworded debug) items items') :
    Reworded debug (.single (.value (.tuple items))) (.single (.value (.tuple items')))
  | sequence {items items' : List Item} (reworded : List.Forall₂ (Item.Reworded debug) items items') :
    Reworded debug (.sequence items) (.sequence items')
  | stream {items items' : List Item} (reworded : List.Forall₂ (Item.Reworded debug) items items') :
    Reworded debug (.stream items) (.stream items')

inductive Subject.Reworded (debug : Bool) : Subject → Subject → Prop where
  | errors {items items' : List Value} (reworded : List.Forall₂ (Value.Reworded debug) items items') :
    Reworded debug (.errors items) (.errors items')
  | one (place : Nat) : Reworded debug (.one place) (.one place)
  | many {items items' : List Item} (reworded : List.Forall₂ (Item.Reworded debug) items items') :
    Reworded debug (.many items) (.many items')

namespace Item

variable {items items' : List Item}

theorem filterMap_reworded (reworded : List.Forall₂ (Item.Reworded false) items items') :
    List.Forall₂ (Value.Reworded false) (items.filterMap error?) (items'.filterMap error?) := by
  induction reworded with
  | nil => exact .nil
  | cons first _ ih =>
    cases first with
    | model place => exact ih
    | @value v w reworded =>
      have same := reworded.isErrorItem
      cases error : v.isErrorItem with
      | true =>
        rw [error] at same
        rw [List.filterMap_cons_some (b := v) (by simp [error?, error]),
          List.filterMap_cons_some (b := w) (by simp [error?, ← same])]
        exact .cons reworded ih
      | false =>
        rw [error] at same
        rw [List.filterMap_cons_none (by simp [error?, error]),
          List.filterMap_cons_none (by simp [error?, ← same])]
        exact ih

theorem reworded_values {values values' : List Value}
    (reworded : List.Forall₂ (Value.Reworded debug) values values') :
    List.Forall₂ (Item.Reworded debug) (values.map .value) (values'.map .value) := by
  rw [List.forall₂_map_left_iff, List.forall₂_map_right_iff]
  exact reworded.imp fun _ _ => .value

end Item

namespace Subject

def Akin (debug : Bool) (left right : Except Fault Subject) : Prop :=
  (∃ fault, left = .error fault ∧ right = .error fault) ∨
    ∃ subject subject', left = .ok subject ∧ right = .ok subject' ∧ Reworded debug subject subject'

theorem akin_refl (stands : Except Fault Subject) : Akin debug stands stands := by
  have items (items : List Item) : List.Forall₂ (Item.Reworded debug) items items :=
    List.forall₂_same.mpr fun item _ => match item with
      | .model place => .model place
      | .value v => .value (.same v)
  cases stands with
  | error fault => exact Or.inl ⟨fault, rfl, rfl⟩
  | ok subject =>
    refine Or.inr ⟨subject, subject, rfl, rfl, ?_⟩
    cases subject with
    | errors errors => exact .errors (List.forall₂_same.mpr fun v _ => .same v)
    | one place => exact .one place
    | many listed => exact .many (items listed)

theorem akin_ofSequence {items items' : List Item}
    (reworded : List.Forall₂ (Item.Reworded false) items items') :
    Akin false (ofSequence items) (ofSequence items') := by
  have errors := Item.filterMap_reworded reworded
  have lengths := errors.length_eq
  have errorless : (items.filterMap Item.error?).isEmpty = (items'.filterMap Item.error?).isEmpty := by
    rw [Bool.eq_iff_iff, List.isEmpty_iff_length_eq_zero, List.isEmpty_iff_length_eq_zero, lengths]
  unfold ofSequence
  simp only [← errorless, ← lengths, ← reworded.length_eq]
  split
  · exact Or.inr ⟨_, _, rfl, rfl, .many reworded⟩
  split
  · exact Or.inr ⟨_, _, rfl, rfl, .errors errors⟩
  · exact Or.inl ⟨_, rfl, rfl⟩

theorem akin_ofValue {v w : Value} (reworded : v.Reworded false w) :
    Akin false (ofValue v) (ofValue w) := by
  rcases reworded.cases with rfl | ⟨p, p', rfl, rfl, _⟩
  · exact akin_refl _
  · exact Or.inr ⟨_, _, rfl, rfl, .errors (.cons reworded .nil)⟩

theorem akin_ofContent (family : List Model) {content content' : Content}
    (reworded : content.Reworded false content') :
    Akin false (ofContent family content) (ofContent family content') := by
  cases reworded with
  | single item =>
    cases item with
    | model place => exact akin_refl _
    | value value => exact akin_ofValue value
  | list items => exact akin_ofSequence (Item.reworded_values items)
  | tuple items => exact akin_ofSequence (Item.reworded_values items)
  | sequence items => exact akin_ofSequence items
  | stream items => exact Or.inr ⟨_, _, rfl, rfl, .many items⟩

end Subject

section Documents

variable {γ : Type} [Uri.Layout γ]

theorem Build.makeItems_reworded (plan : Plan γ) {items items' : List Item}
    (reworded : List.Forall₂ (Item.Reworded false) items items') :
    Build.makeItems plan items = Build.makeItems plan items' := by
  induction reworded with
  | nil => rfl
  | @cons item item' items items' first _ ih =>
    have made : Build.makeItem plan item = Build.makeItem plan item' := by
      cases first with
      | model place => rfl
      | value reworded => rw [Build.makeItem, Build.makeItem, reworded.absenceFault]
    rw [Build.makeItems, Build.makeItems, made, ih]

namespace Document

theorem ofSubject_reworded (settings : Settings) (plan : Plan γ) (uri : String) (info : Option Members)
    {subject subject' : Subject} (reworded : subject.Reworded false subject') :
    ofSubject settings plan uri info subject = ofSubject settings plan uri info subject' := by
  cases reworded with
  | errors items => rw [ofSubject, ofSubject, errorObjects_reworded items]
  | one place => rfl
  | many items => rw [ofSubject, ofSubject, Build.makeItems_reworded plan items]

/-- Errors that are reworded make up the same document, or fail in the same way. -/
theorem compose_reworded (settings : Settings) (generator : γ) (family : List Model)
    {content content' : Content} (reworded : content.Reworded false content') (uri : String)
    (info : Option Members) :
    compose settings generator family content uri info =
      compose settings generator family content' uri info := by
  unfold compose
  refine congrArg (Outcome.recordAll _ >>= ·) (funext fun _ => ?_)
  rcases Subject.akin_ofContent family reworded with ⟨fault, left, right⟩ |
    ⟨subject, subject', left, right, same⟩
  · rw [left, right]
  · rw [left, right]
    exact ofSubject_reworded settings _ uri info same

end Document

end Documents

theorem Response.make_reworded (settings : Settings) (debug : Bool) (request : Option Request)
    (order : Response.Order) {content content' : Content} (reworded : content.Reworded false content') :
    Response.make settings debug request { order with content := content } =
      Response.make settings debug request { order with content := content' } := by
  cases request with
  | none => rfl
  | some request =>
    simp only [Response.make, Document.compose_reworded settings _ _ reworded]

namespace Application

theorem answer_reworded (settings : Settings) (debug : Bool) (request : Request)
    (reworded : v.Reworded false w) :
    answer settings debug request (.raises v) = answer settings debug request (.raises w) := by
  rcases reworded.cases with rfl | ⟨p, p', rfl, rfl, kind, _⟩
  · rfl
  · have listed : (errorOrder p).content.Reworded false (errorOrder p').content :=
      .sequence (.cons (.value reworded) .nil)
    have made := Response.make_reworded settings debug (some request) (errorOrder p) listed
    show (do
        Outcome.record .debug ("Returning errors document for " ++ p.kind.label)
        Response.make settings debug (some request) (errorOrder p)) =
      (do
        Outcome.record .debug ("Returning errors document for " ++ p'.kind.label)
        Response.make settings debug (some request) (errorOrder p'))
    rw [kind]
    exact congrArg (Outcome.record _ _ >>= ·) (funext fun _ => made)

end Application

namespace Response

theorem isDebug_of_quiet {verbosity : Verbosity} (quiet : 20 ≤ verbosity.effective) :
    verbosity.isDebug = false :=
  decide_eq_false (Int.not_lt.mpr quiet)

/-- While details are hidden, documents and responses are the same whatever hidden messages say, and so is
the text of a document whatever there is in values that it has no form for. -/
theorem make_reticent {γ : Type} [Uri.Layout γ] (verbosity : Verbosity) (quiet : 20 ≤ verbosity.effective)
    {content content' : Content} (reworded : content.Reworded verbosity.isDebug content')
    {problem problem' : Value} (reported : problem.Reworded verbosity.isDebug problem')
    {d d' : Document} (alike : d.toValue.outline = d'.toValue.outline) :
    (∀ (settings : Settings) (generator : γ) (family : List Model) (uri : String) (info : Option Members),
      Document.compose settings generator family content uri info =
        Document.compose settings generator family content' uri info) ∧
    (∀ (settings : Settings) (request : Option Request) (order : Order),
      make settings verbosity.isDebug request { order with content := content } =
        make settings verbosity.isDebug request { order with content := content' }) ∧
    (∀ (settings : Settings) (request : Request),
      Application.serve settings verbosity.isDebug request (.raises problem) =
        Application.serve settings verbosity.isDebug request (.raises problem')) ∧
    (d.jsonText verbosity.isDebug).result = (d'.jsonText verbosity.isDebug).result := by
  rw [isDebug_of_quiet quiet] at reworded reported ⊢
  refine ⟨fun settings generator family => Document.compose_reworded settings generator family reworded,
    fun settings request order => make_reworded settings false request order reworded,
    fun settings request => ?_, Value.jsonText_congr alike .spaced⟩
  rw [Application.serve, Application.serve, Application.answer_reworded settings false request reported]

def outage (message : String) : Problem :=
  ⟨.failed, "Generic Error: (debug logging disabled)", .text message, .int 503, .text "E7", .null⟩

theorem outage_reworded (message message' : String) :
    Value.Reworded false (outage message).toValue (outage message').toValue := by
  have made (message : String) :
      (Problem.report false .failed ⟨some (.text message), some (.int 503), some (.text "E7"), none⟩).result =
        .ok (outage message) := rfl
  exact .message rfl (by rfl) (by rfl) (made message) (made message')

def sealed (attributes : Members) : Document where
  data := .one ⟨.existing (.text "keys") "1",
    some [("parts", .list [.int 1, .dict [(.text "key", .foreign attributes)]])], none, none, none⟩
  errors := none
  included := none
  links := none
  jsonapi := none
  info := some [("owner", .foreign attributes)]

/-- Neither the reason of an outage nor a key shows. -/
theorem outage_reticent : 20 ≤ (Verbosity.mk 20).effective ∧
    (sealed [("secret", .text "a")]).toValue.outline =
      (sealed [("secret", .text "b"), ("owner", .int 2)]).toValue.outline ∧
    Document.compose (Settings.make none [] []) (.ok "" : Except Fault String) []
        (.sequence [.value (outage "disk 1").toValue]) "/keys" none =
      Document.compose (Settings.make none [] []) (.ok "" : Except Fault String) []
        (.sequence [.value (outage "disk 2").toValue]) "/keys" none ∧
    Application.serve (Settings.make none [] []) false ⟨"http://localhost/keys", "http://localhost/"⟩
        (.raises (outage "disk 1").toValue) =
      Application.serve (Settings.make none [] []) false ⟨"http://localhost/keys", "http://localhost/"⟩
        (.raises (outage "disk 2").toValue) ∧
    ((sealed [("secret", .text "a")]).jsonText false).result =
      ((sealed [("secret", .text "b"), ("owner", .int 2)]).jsonText false).result := by
  have quiet : 20 ≤ (Verbosity.mk 20).effective := by decide
  have alike : (sealed [("secret", .text "a")]).toValue.outline =
      (sealed [("secret", .text "b"), ("owner", .int 2)]).toValue.outline := rfl
  have reworded := outage_reworded "disk 1" "disk 2"
  obtain ⟨composed, _, served, written⟩ := @make_reticent (Except Fault String) _ ⟨20⟩ quiet _ _
    (.sequence (.cons (.value reworded) .nil)) _ _ reworded _ _ alike
  exact ⟨quiet, alike, composed _ _ _ _ _, served _ _, written⟩

end Response

end JsonApi
