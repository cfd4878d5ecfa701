import JsonApi.Proofs.ErrorObject.Validation

/-!
Error objects that are read again. Main statement: what a document shows of an error object that was read from
a dictionary is read as an object that shows in the same way; it has the declared members first, then the others
as they were given.
-/

namespace JsonApi.ErrorObject

section Accepted

variable {α : Type} {entries : List (Value × Value)} {v : Value}

theorem accept_ok {c : Checked α} {a : α} (accepted : accept c = .ok a) : c.details = [] ∧ a = c.value := by
  unfold accept at accepted
  split at accepted
  · next fine =>
    cases accepted
    exact ⟨fine, rfl⟩
  · cases accepted

/-- What stands for a part of an error object: a dictionary, or a part that was made from one before. -/
inductive Given (toValue : α → Value) (read : List (Value × Value) → Checked α) :
    Value → List (Value × Value) → Prop where
  | entries (entries : List (Value × Value)) : Given toValue read (.dict entries) entries
  | made {entries : List (Value × Value)} {part : α} (accepted : accept (read entries) = .ok part) :
    Given toValue read (toValue part) entries

theorem checkLinks_toValue (l : ErrorLinks) : (checkLinks (some l.toValue)).value = some l := by
  obtain ⟨about, type, extra⟩ := l
  cases about <;> cases type <;> rfl

theorem checkSource_toValue (s : ErrorSource) : (checkSource (some s.toValue)).value = some s := by
  obtain ⟨pointer, parameter, header, extra⟩ := s
  cases pointer <;> cases parameter <;> cases header <;> rfl

theorem checkLinks_given (given : Given ErrorLinks.toValue checkLinksMembers v entries) :
    (checkLinks (some v)).value = some (checkLinksMembers entries).value := by
  cases given with
  | entries => rfl
  | @made _ l accepted =>
    rw [← (accept_ok accepted).2]
    exact checkLinks_toValue l

theorem checkSource_given (given : Given ErrorSource.toValue checkSourceMembers v entries) :
    (checkSource (some v)).value = some (checkSourceMembers entries).value := by
  cases given with
  | entries => rfl
  | @made _ s accepted =>
    rw [← (accept_ok accepted).2]
    exact checkSource_toValue s

theorem member?_eq (entries : List (Value × Value)) (name : String) :
    member? entries name = Entries.get? (membersOf entries) name := by
  induction entries with
  | nil => rfl
  | cons entry rest ih =>
    obtain ⟨key, value⟩ := entry
    cases key with
    | text key =>
      show (if key = name then some value else member? rest name) =
        if key = name then some value else Entries.get? (membersOf rest) name
      rw [ih]
    | _ => exact ih

theorem apart_of_undeclared {declared : List String} {name : String}
    (member : name ∈ Entries.keys (undeclared declared entries)) : name ∉ declared := by
  obtain ⟨pair, listed, rfl⟩ := List.mem_map.mp member
  exact of_decide_eq_true (List.mem_filter.mp listed).2

theorem extra_source (entries : List (Value × Value)) :
    (checkSourceMembers entries).value.extra = undeclared ["pointer", "parameter", "header"] entries :=
  checkExtra_value _ entries

theorem extra_links (single : member? entries "type" = none ∨ member? entries "type_" = none) :
    (checkLinksMembers entries).value.extra = undeclared ["about", "type", "type_"] entries := by
  have missing {other name : String} (absent : member? entries other = none)
      (inside : name ∈ Entries.keys (membersOf entries)) : name ≠ other := by
    rintro rfl
    rw [member?_eq, Entries.get?_eq_none] at absent
    exact absent inside
  rw [show (checkLinksMembers entries).value.extra = _ from checkExtra_value _ entries]
  refine List.filter_congr fun member inside => decide_eq_decide.mpr ?_
  have named : member.1 ∈ Entries.keys (membersOf entries) := List.mem_map_of_mem inside
  simp only [List.mem_cons, List.not_mem_nil, or_false, not_or]
  rcases single with absent | absent
  · rw [absent]
    exact and_congr_right fun _ => ⟨fun other => ⟨missing absent named, other⟩, And.right⟩
  · have other := missing absent named
    cases typed : member? entries "type" with
    | none => exact and_congr_right fun _ => ⟨fun other => ⟨missing typed named, other⟩, And.right⟩
    | some type => exact and_congr_right fun _ => ⟨fun apart => ⟨apart, other⟩, And.left⟩

theorem proper_links (single : member? entries "type" = none ∨ member? entries "type_" = none) :
    (checkLinksMembers entries).value.Proper := by
  intro name member
  rw [extra_links single] at member
  exact apart_of_undeclared member

theorem proper_source : (checkSourceMembers entries).value.Proper := by
  intro name member
  rw [extra_source] at member
  exact apart_of_undeclared member

theorem mem_part {toValue : α → Value} {read : List (Value × Value) → Checked α}
    {check : Option Value → Checked (Option α)} (absent : (check none).value = none)
    (null : (check (some .null)).value = none)
    (reads : ∀ v entries, Given toValue read v entries → (check (some v)).value = some (read entries).value)
    {P : List (Value × Value) → Prop} {given : Option Value}
    (made : ∀ v, given = some v → v.isNull = false → ∃ entries, Given toValue read v entries ∧ P entries) :
    ∀ part ∈ (check given).value, ∃ v entries, given = some v ∧ Given toValue read v entries ∧
      part = (read entries).value ∧ P entries := by
  intro part member
  cases given with
  | none =>
    rw [absent] at member
    cases member
  | some v =>
    cases present : v.isNull with
    | true =>
      cases v with
      | null =>
        rw [null] at member
        cases member
      | _ => cases present
    | false =>
      obtain ⟨entries, stands, holds⟩ := made v rfl present
      rw [reads v entries stands] at member
      exact ⟨v, entries, rfl, stands, (Option.some.inj member).symm, holds⟩

theorem mem_info {given : Option Value} : ∀ members ∈ (checkInfo given).value,
    ∃ entries, given = some (.dict entries) ∧ members = Entries.ofPairs (named entries) := by
  intro members member
  cases given with
  | none => cases member
  | some v =>
    cases v with
    | dict entries =>
      refine ⟨entries, rfl, (Option.some.inj member).symm.trans ?_⟩
      exact checkInfoEntries_value [] entries
    | _ => cases member

end Accepted

section Formed

variable {e : ErrorObject} {members : Members}

def Formed (members : Members) : Prop := ∀ member ∈ members, member.2.hasPlainForm = true

theorem Formed.dumpFields (formed : Formed members) : Formed (Value.dumpFields members) := by
  rw [Value.dumpFields_eq_map]
  exact List.forall_mem_map.mpr fun member inside => Value.hasPlainForm_dump (formed member inside)

theorem Formed.present (formed : Formed members) : Formed (Value.present members) :=
  fun member inside => formed member (List.mem_filter.mp inside).1

theorem hasPlainForm_ofOption {α : Type} {f : α → Value} {given : Option α} :
    (Value.ofOption f given).hasPlainForm = true ↔ ∀ a ∈ given, (f a).hasPlainForm = true := by
  cases given with
  | none => exact ⟨fun _ a member => (nomatch member), fun _ => rfl⟩
  | some a => exact ⟨fun formed b member => Option.some.inj member ▸ formed, fun formed => formed a rfl⟩

theorem hasPlainForm_text (t : Option String) : (Value.ofOption .text t).hasPlainForm = true :=
  hasPlainForm_ofOption.mpr fun _ _ => rfl

theorem hasPlainForm_links {l : ErrorLinks} : l.toValue.hasPlainForm = true ↔ Formed l.extra := by
  simp only [ErrorLinks.toValue, Value.hasPlainForm, Value.fieldsHavePlainForm, hasPlainForm_text,
    Bool.and_true, Bool.true_and, Value.fieldsHavePlainForm_iff, Formed]

theorem hasPlainForm_source {s : ErrorSource} : s.toValue.hasPlainForm = true ↔ Formed s.extra := by
  simp only [ErrorSource.toValue, Value.hasPlainForm, Value.fieldsHavePlainForm, hasPlainForm_text,
    Bool.and_true, Bool.true_and, Value.fieldsHavePlainForm_iff, Formed]

theorem hasPlainForm_toValue : e.toValue.hasPlainForm = true ↔ (∀ l ∈ e.links, Formed l.extra) ∧
    (∀ s ∈ e.source, Formed s.extra) ∧ (∀ members ∈ e.info, Formed members) ∧ Formed e.extra := by
  simp only [toValue, fields, Value.hasPlainForm, Value.fieldsHavePlainForm, hasPlainForm_text,
    Bool.and_true, Bool.true_and, Bool.and_eq_true, hasPlainForm_ofOption, hasPlainForm_links,
    hasPlainForm_source, Value.hasPlainForm_ofMembers, Value.fieldsHavePlainForm_iff, and_assoc, Formed]

theorem hasPlainForm_settled (formed : e.toValue.hasPlainForm = true) :
    e.settled.toValue.hasPlainForm = true := by
  obtain ⟨links, source, info, extra⟩ := hasPlainForm_toValue.mp formed
  refine hasPlainForm_toValue.mpr ⟨?_, ?_, ?_, extra.dumpFields.present⟩
  · rintro _ member
    obtain ⟨l, inside, rfl⟩ := Option.map_eq_some_iff.mp member
    exact (links l inside).dumpFields.present
  · rintro _ member
    obtain ⟨s, inside, rfl⟩ := Option.map_eq_some_iff.mp member
    exact (source s inside).dumpFields.present
  · rintro _ member
    obtain ⟨members, inside, rfl⟩ := Option.map_eq_some_iff.mp member
    exact (info members inside).dumpFields

theorem expand_toValue (formed : e.toValue.hasPlainForm = true) :
    e.toValue.expand = .ofMembers e.members := by
  rw [← dump_toValue]
  exact (Value.expand_errorObject e.fields e.extra).trans (if_pos formed)

end Formed

section Stable

variable {entries : List (Value × Value)} {object : ErrorObject}

def texts (e : ErrorObject) : List (String × Option String) :=
  [("id", e.id), ("status", e.status), ("code", e.code), ("title", e.title), ("detail", e.detail)]

theorem kept_texts (fine : (check entries).details = []) :
    ∀ field ∈ (check entries).value.texts, Kept field.1 (member? entries field.1) field.2 := by
  simp only [check, List.append_eq_nil_iff] at fine
  obtain ⟨⟨⟨⟨⟨⟨⟨⟨id, -⟩, status⟩, code⟩, title⟩, detail⟩, -⟩, -⟩, -⟩ := fine
  simp only [texts, List.forall_mem_cons]
  exact ⟨kept_of_checkText id, kept_of_checkStatus status, kept_of_checkText code, kept_of_checkText title,
    kept_of_checkText detail, List.forall_mem_nil _⟩

theorem of_mem_present {members : Members} {member : String × Value} (inside : member ∈ Value.present members) :
    member ∈ members ∧ member.2.isNull = false := by
  obtain ⟨listed, present⟩ := List.mem_filter.mp inside
  exact ⟨listed, Bool.not_eq_true' _ ▸ present⟩

theorem eq_text_of_ofOption {t : Option String} (present : (Value.ofOption .text t).isNull = false) :
    ∃ s, t = some s ∧ Value.ofOption .text t = .text s := by
  cases t with
  | none => cases present
  | some s => exact ⟨s, rfl, rfl⟩

theorem dumpFields_of_unstructured {members : Members} (plain : ∀ member ∈ members, member.2.Unstructured) :
    Value.dumpFields members = members := by
  rw [Value.dumpFields_eq_map]
  exact Value.map_snd_eq_self fun member inside => (plain member inside).dump

/-- What a document shows of a part: the declared members, which are texts, in their order, and then the plain
forms of those that it was given besides, in theirs. Nothing in it is null, and plain values stay as they are. -/
inductive Tidy (names reserved : List String) (given : List (Value × Value)) : Value → Prop where
  | part {declared further : Members} (order : (Entries.keys declared).Sublist names)
    (texts : ∀ member ∈ declared, ∃ s, member.2 = .text s)
    (extra : further = Value.present (Value.dumpFields (undeclared reserved given)))
    (present : ∀ member ∈ declared ++ further, member.2.isNull = false)
    (kept : (∀ member ∈ undeclared reserved given, member.2.Unstructured) →
      further = Value.present (undeclared reserved given)) :
    Tidy names reserved given (.ofMembers (declared ++ further))

theorem tidy_members {names reserved : List String} {declared : Members} (named : Entries.keys declared = names)
    (texts : ∀ member ∈ declared, member.2.isNull = false → ∃ s, member.2 = .text s) :
    Tidy names reserved entries
      (.ofMembers (Value.present declared ++ Value.present (Value.dumpFields (undeclared reserved entries)))) := by
  refine .part ?_ ?_ rfl ?_ fun plain => by rw [dumpFields_of_unstructured plain]
  · rw [← named]
    exact List.filter_sublist.map _
  · exact fun member inside => texts member (of_mem_present inside).1 (of_mem_present inside).2
  · exact List.forall_mem_append.mpr
      ⟨fun _ inside => (of_mem_present inside).2, fun _ inside => (of_mem_present inside).2⟩

theorem tidy_links (single : member? entries "type" = none ∨ member? entries "type_" = none) :
    Tidy ["about", "type"] ["about", "type", "type_"] entries
      (.ofMembers (checkLinksMembers entries).value.members) := by
  rw [ErrorLinks.members, extra_links single]
  refine tidy_members rfl fun member listed present => ?_
  simp only [ErrorLinks.declared, List.mem_cons, List.not_mem_nil, or_false] at listed
  rcases listed with rfl | rfl
  all_goals exact (eq_text_of_ofOption present).imp fun _ => And.right

theorem tidy_source (entries : List (Value × Value)) :
    Tidy ["pointer", "parameter", "header"] ["pointer", "parameter", "header"] entries
      (.ofMembers (checkSourceMembers entries).value.members) := by
  rw [ErrorSource.members, extra_source]
  refine tidy_members rfl fun member listed present => ?_
  simp only [ErrorSource.declared, List.mem_cons, List.not_mem_nil, or_false] at listed
  rcases listed with rfl | rfl | rfl
  all_goals exact (eq_text_of_ofOption present).imp fun _ => And.right

/-- What a document shows of a declared member: a text that was read, a part that is tidy, or the metadata. -/
inductive Shown (entries : List (Value × Value)) : String → Value → Prop where
  | text {name s : String} {given : Value} (texts : name ∈ ["id", "status", "code", "title", "detail"])
    (member : member? entries name = some given) (reads : Reads name given s) : Shown entries name (.text s)
  | links {stands v : Value} {given : List (Value × Value)} (member : member? entries "links" = some stands)
    (made : Given ErrorLinks.toValue checkLinksMembers stands given)
    (tidy : Tidy ["about", "type"] ["about", "type", "type_"] given v) : Shown entries "links" v
  | source {stands v : Value} {given : List (Value × Value)} (member : member? entries "source" = some stands)
    (made : Given ErrorSource.toValue checkSourceMembers stands given)
    (tidy : Tidy ["pointer", "parameter", "header"] ["pointer", "parameter", "header"] given v) :
    Shown entries "source" v
  | info {given : List (Value × Value)} (member : member? entries "meta" = some (.dict given)) :
    Shown entries "meta" (.ofMembers (Entries.ofPairs (named given)))

/-- What the parts and the metadata of a dictionary may hold for its error object to be read again: links have
one type at most, links and source have a plain form, and metadata and further members are plain. -/
structure Readable (entries : List (Value × Value)) : Prop where
  links : ∀ v, member? entries "links" = some v → v.isNull = false →
    ∃ given, Given ErrorLinks.toValue checkLinksMembers v given ∧
      (member? given "type" = none ∨ member? given "type_" = none) ∧ Formed (membersOf given)
  source : ∀ v, member? entries "source" = some v → v.isNull = false →
    ∃ given, Given ErrorSource.toValue checkSourceMembers v given ∧ Formed (membersOf given)
  info : ∀ given, member? entries "meta" = some (.dict given) → ∀ entry ∈ given, entry.2.Unstructured
  extra : ∀ member ∈ undeclared declaredNames entries, member.2.Unstructured

theorem Formed.undeclared {names : List String} (formed : Formed (membersOf entries)) :
    Formed (undeclared names entries) :=
  fun member inside => formed member (List.mem_filter.mp inside).1

theorem Readable.mem_links (readable : Readable entries) : ∀ l ∈ (check entries).value.links, ∃ stands given,
    member? entries "links" = some stands ∧ Given ErrorLinks.toValue checkLinksMembers stands given ∧
      l = (checkLinksMembers given).value ∧ (member? given "type" = none ∨ member? given "type_" = none) ∧
        Formed (membersOf given) :=
  mem_part rfl rfl (fun _ _ => checkLinks_given) readable.links

theorem Readable.mem_source (readable : Readable entries) : ∀ s ∈ (check entries).value.source,
    ∃ stands given, member? entries "source" = some stands ∧
      Given ErrorSource.toValue checkSourceMembers stands given ∧ s = (checkSourceMembers given).value ∧
        Formed (membersOf given) :=
  mem_part rfl rfl (fun _ _ => checkSource_given) readable.source

theorem extra_eq (entries : List (Value × Value)) :
    (check entries).value.extra = undeclared declaredNames entries :=
  checkExtra_value declaredNames entries

theorem Readable.proper (readable : Readable entries) : (check entries).value.Proper where
  links := by
    intro l member
    obtain ⟨stands, given, -, -, rfl, single, -⟩ := readable.mem_links l member
    exact proper_links single
  source := by
    intro s member
    obtain ⟨stands, given, -, -, rfl, -⟩ := readable.mem_source s member
    exact proper_source
  info := by
    intro members member
    obtain ⟨given, -, rfl⟩ := mem_info members member
    exact Entries.nodup_keys_ofPairs (named given)
  extra := by
    intro name member
    rw [extra_eq] at member
    exact apart_of_undeclared member

theorem Readable.plain_info (readable : Readable entries) :
    ∀ members ∈ (check entries).value.info, ∀ pair ∈ members, pair.2.Unstructured := by
  intro members member pair inside
  obtain ⟨given, stands, rfl⟩ := mem_info members member
  obtain ⟨entry, listed, same⟩ := List.mem_filterMap.mp (Entries.mem_of_mem_ofPairs inside)
  obtain ⟨name, -, rfl⟩ := Option.map_eq_some_iff.mp same
  exact readable.info given stands entry listed

theorem Readable.formed (readable : Readable entries) :
    (check entries).value.toValue.hasPlainForm = true := by
  refine hasPlainForm_toValue.mpr ⟨?_, ?_, ?_, ?_⟩
  · intro l member
    obtain ⟨stands, given, -, -, rfl, single, formed⟩ := readable.mem_links l member
    rw [extra_links single]
    exact formed.undeclared
  · intro s member
    obtain ⟨stands, given, -, -, rfl, formed⟩ := readable.mem_source s member
    rw [extra_source]
    exact formed.undeclared
  · exact fun members member pair inside => (readable.plain_info members member pair inside).hasPlainForm
  · rw [extra_eq]
    exact fun member inside => (readable.extra member inside).hasPlainForm

/-- The declared members that are there, and the others as they were given. -/
theorem Readable.members_eq (readable : Readable entries) : (check entries).value.members =
    Value.present (check entries).value.declared ++ Value.present (undeclared declaredNames entries) := by
  rw [ErrorObject.members_eq, extra_eq, dumpFields_of_unstructured readable.extra]

theorem shown_text (fine : (check entries).details = []) {field : String × Option String}
    (listed : field ∈ (check entries).value.texts) (present : (Value.ofOption .text field.2).isNull = false) :
    Shown entries field.1 (.ofOption .text field.2) := by
  have reserved : field.1 ∈ ["id", "status", "code", "title", "detail"] :=
    List.mem_map_of_mem (f := Prod.fst) listed
  have kept := kept_texts fine field listed
  obtain ⟨s, written, shape⟩ := eq_text_of_ofOption present
  rw [shape]
  rw [written] at kept
  generalize given : member? entries field.1 = stands at kept
  cases kept with
  | read reads => exact .text reserved given reads

theorem Readable.shown (readable : Readable entries) (fine : (check entries).details = []) :
    ∀ member ∈ Value.present (check entries).value.declared, Shown entries member.1 member.2 := by
  intro member inside
  obtain ⟨listed, present⟩ := of_mem_present inside
  have text (field : String × Option String) (listed : field ∈ (check entries).value.texts) :
      (Value.ofOption .text field.2).isNull = false → Shown entries field.1 (.ofOption .text field.2) :=
    shown_text fine listed
  simp only [texts, List.forall_mem_cons] at text
  obtain ⟨id, status, code, title, detail, -⟩ := text
  simp only [declared, List.mem_cons, List.not_mem_nil, or_false] at listed
  rcases listed with rfl | rfl | rfl | rfl | rfl | rfl | rfl | rfl
  · exact id present
  · cases shape : (check entries).value.links with
    | none =>
      rw [shape] at present
      cases present
    | some l =>
      obtain ⟨stands, given, member, made, rfl, single, -⟩ := readable.mem_links l shape
      exact .links member made (tidy_links single)
  · exact status present
  · exact code present
  · exact title present
  · exact detail present
  · cases shape : (check entries).value.source with
    | none =>
      rw [shape] at present
      cases present
    | some s =>
      obtain ⟨stands, given, member, made, rfl, -⟩ := readable.mem_source s shape
      exact .source member made (tidy_source given)
  · cases shape : (check entries).value.info with
    | none =>
      rw [shape] at present
      cases present
    | some members =>
      rw [Value.ofOption, dumpFields_of_unstructured (readable.plain_info members shape)]
      obtain ⟨given, stands, rfl⟩ := mem_info members shape
      exact .info stands

theorem Kept.exists_text {name : String} {given : Value} {t : Option String} (kept : Kept name (some given) t)
    (present : given.isNull = false) : ∃ s, t = some s := by
  cases kept with
  | null => cases present
  | read => exact ⟨_, rfl⟩

theorem isNull_ofOption {α : Type} {f : α → Value} {given : Option α} {a : α} (here : given = some a)
    (other : ∀ a, (f a).isNull = false) : (Value.ofOption f given).isNull = false := by
  rw [here]
  exact other a

theorem Readable.present (readable : Readable entries) (fine : (check entries).details = []) {name : String}
    {given : Value} (reserved : name ∈ declaredNames) (stands : member? entries name = some given)
    (present : given.isNull = false) :
    ∃ v, Entries.get? (check entries).value.declared name = some v ∧ v.isNull = false := by
  have text {t : Option String} (listed : Entries.get? (check entries).value.texts name = some t) :
      (Value.ofOption .text t).isNull = false := by
    have kept := kept_texts fine (name, t) (Entries.mem_of_get? listed)
    rw [stands] at kept
    obtain ⟨s, given⟩ := kept.exists_text present
    exact isNull_ofOption given fun _ => rfl
  have details := fine
  simp only [check, List.append_eq_nil_iff] at details
  simp only [declaredNames, List.mem_cons, List.not_mem_nil, or_false] at reserved
  rcases reserved with rfl | rfl | rfl | rfl | rfl | rfl | rfl | rfl
  · exact ⟨_, rfl, text rfl⟩
  · refine ⟨_, rfl, ?_⟩
    obtain ⟨links, made, -⟩ := readable.links given stands present
    have checked : (check entries).value.links = some (checkLinksMembers links).value := by
      rw [show (check entries).value.links = (checkLinks (member? entries "links")).value from rfl, stands,
        checkLinks_given made]
    exact isNull_ofOption checked fun _ => rfl
  · exact ⟨_, rfl, text rfl⟩
  · exact ⟨_, rfl, text rfl⟩
  · exact ⟨_, rfl, text rfl⟩
  · exact ⟨_, rfl, text rfl⟩
  · refine ⟨_, rfl, ?_⟩
    obtain ⟨source, made, -⟩ := readable.source given stands present
    have checked : (check entries).value.source = some (checkSourceMembers source).value := by
      rw [show (check entries).value.source = (checkSource (member? entries "source")).value from rfl, stands,
        checkSource_given made]
    exact isNull_ofOption checked fun _ => rfl
  · refine ⟨_, rfl, ?_⟩
    obtain ⟨⟨-, info⟩, -⟩ := details
    rw [stands] at info
    cases given with
    | null => cases present
    | dict pairs =>
      have checked : (check entries).value.info = some (checkInfoEntries [] pairs).value := by
        rw [show (check entries).value.info = (checkInfo (member? entries "meta")).value from rfl, stands]
        rfl
      exact isNull_ofOption checked fun _ => rfl
    | _ => cases info

theorem ofPairs_named {members : Members} (distinct : (Entries.keys members).Nodup) :
    Entries.ofPairs (named (Value.named members)) = members := by
  rw [named_ofTexts, Entries.ofPairs_of_nodup distinct]

theorem Shown.eq_of_meta {name : String} {v : Value} (shown : Shown entries name v) (same : name = "meta") :
    ∃ given, member? entries "meta" = some (.dict given) ∧
      v = .ofMembers (Entries.ofPairs (named given)) := by
  cases shown with
  | text texts =>
    rw [same] at texts
    exact absurd texts (by decide)
  | links => exact absurd same (by decide)
  | source => exact absurd same (by decide)
  | info given => exact ⟨_, given, rfl⟩

/-- The error object of a dictionary shows as a dictionary whose own error object shows in just the same way.
It has the declared members in their order, as far as they were given, and then the others as they were given;
nothing in it is null, and metadata stays as it is. -/
theorem ofItem_stable (accepted : ofItem (.dict entries) = .ok object) (readable : Readable entries) :
    ∃ e : Members, object.toValue.expand = .ofMembers e ∧
      (∃ again, ofItem (.ofMembers e) = .ok again ∧ again.toValue.expand = .ofMembers e) ∧
      (∃ declared, e = declared ++ Value.present (undeclared declaredNames entries) ∧
        (Entries.keys declared).Sublist declaredNames ∧
        (∀ member ∈ declared, Shown entries member.1 member.2) ∧
        ∀ name ∈ declaredNames, ∀ given, member? entries name = some given → given.isNull = false →
          name ∈ Entries.keys declared) ∧
      (∀ member ∈ e, member.2.isNull = false) ∧
      ∀ members : Members, (Entries.keys members).Nodup →
        member? entries "meta" = some (.ofMembers members) → ("meta", .ofMembers members) ∈ e := by
  obtain ⟨fine, rfl⟩ := accept_ok (show accept (check entries) = .ok object from accepted)
  have again : ofItem (.ofMembers (check entries).value.members) = .ok (check entries).value.settled := by
    show accept (check (Value.named (check entries).value.members)) = _
    rw [check_members readable.proper]
    rfl
  have there (name : String) (reserved : name ∈ declaredNames) (given : Value)
      (stands : member? entries name = some given) (present : given.isNull = false) :
      name ∈ Entries.keys (Value.present (check entries).value.declared) := by
    obtain ⟨v, listed, present⟩ := readable.present fine reserved stands present
    have listed := Entries.mem_of_get? listed
    exact List.mem_map_of_mem (List.mem_filter.mpr ⟨listed, Bool.not_eq_true' _ ▸ present⟩)
  refine ⟨_, expand_toValue readable.formed, ⟨_, again, ?_⟩,
    ⟨_, readable.members_eq, List.filter_sublist.map _, readable.shown fine, there⟩, ?_, ?_⟩
  · rw [expand_toValue (hasPlainForm_settled readable.formed), members_settled]
  · rw [readable.members_eq]
    exact List.forall_mem_append.mpr ⟨fun _ inside => (of_mem_present inside).2,
      fun _ inside => (of_mem_present inside).2⟩
  · intro members distinct stands
    obtain ⟨⟨name, v⟩, inside, rfl⟩ := List.mem_map.mp (there "meta" (by decide) _ stands rfl)
    have shown : Shown entries "meta" v := readable.shown fine _ inside
    obtain ⟨given, stands', rfl⟩ := shown.eq_of_meta rfl
    cases stands.symm.trans stands'
    have same : Entries.ofPairs (named (Value.named members)) = members := ofPairs_named distinct
    rw [readable.members_eq, ← same]
    exact List.mem_append_left _ inside

def slip : List (Value × Value) :=
  [(.text "note", .list [.null]), (.text "status", .bool true),
    (.text "meta", .dict [(.text "tries", .null)]),
    (.text "links", .dict [(.text "type_", .text "/slips"), (.text "about", .null), (.text "hint", .null)]),
    (.text "source", ErrorSource.toValue ⟨none, some "sort", none, []⟩),
    (.text "title", .bytes [83, 108, 105, 112]), (.text "gone", .null)]

theorem readable_slip : Readable slip where
  links := by
    rintro v ⟨⟩ -
    exact ⟨_, .entries _, Or.inl rfl, by unfold Formed; decide +kernel⟩
  source := by
    rintro v ⟨⟩ -
    have made : accept (checkSourceMembers [(.text "parameter", .text "sort")]) =
        .ok ⟨none, some "sort", none, []⟩ := rfl
    exact ⟨_, .made made, by unfold Formed; decide +kernel⟩
  info := by
    rintro given ⟨⟩
    exact List.forall_mem_singleton.mpr (.single rfl)
  extra := by
    have listed : undeclared declaredNames slip = [("note", .list [.null]), ("gone", .null)] := rfl
    rw [listed]
    exact List.forall_mem_cons.mpr ⟨.list (List.forall_mem_singleton.mpr (.single rfl)),
      List.forall_mem_singleton.mpr (.single rfl)⟩

theorem slip_stable : ∃ object e, ofItem (.dict slip) = .ok object ∧ object.toValue.expand = .ofMembers e ∧
    (∃ again, ofItem (.ofMembers e) = .ok again ∧ again.toValue.expand = .ofMembers e) ∧
    ("meta", .ofMembers [("tries", .null)]) ∈ e := by
  have accepted : ofItem (.dict slip) = .ok (check slip).value := rfl
  obtain ⟨e, shown, again, -, -, kept⟩ := ofItem_stable accepted readable_slip
  exact ⟨_, e, accepted, shown, again, kept [("tries", .null)] (by decide) rfl⟩

example : Entries.keys (check slip).value.members =
    ["links", "status", "title", "source", "meta", "note"] := by decide +kernel

end Stable

end JsonApi.ErrorObject
