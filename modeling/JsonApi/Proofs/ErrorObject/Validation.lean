import JsonApi.Problem.Basic
import JsonApi.Proofs.Entries
import JsonApi.Proofs.Value.Ordering
import JsonApi.Proofs.Value.Plain

/-!
What is read from the members of an error object. Main statement: members that are present and have been read
before are read as they are.
-/

namespace JsonApi

theorem membersOf_named (members : Members) : membersOf (Value.named members) = members := by
  rw [membersOf, Value.named, List.filterMap_map]
  exact List.filterMap_some

namespace ErrorObject

variable {entries : List (Value × Value)} {members : Members} {name : String} {given : Option Value}

section Members

theorem member?_named (members : Members) (name : String) :
    member? (Value.named members) name = Entries.get? members name := by
  induction members with
  | nil => rfl
  | cons member rest ih =>
    rw [Value.named, List.map_cons, member?, Entries.get?, ← ih]
    rfl

def undeclared (declared : List String) (entries : List (Value × Value)) : Members :=
  (membersOf entries).filter fun member => member.1 ∉ declared

theorem checkExtra_value (declared : List String) (entries : List (Value × Value)) :
    (checkExtra declared entries).value = undeclared declared entries := by
  induction entries with
  | nil => rfl
  | cons entry rest ih =>
    obtain ⟨key, value⟩ := entry
    rw [undeclared] at ih ⊢
    cases key with
    | text name =>
      have first : membersOf ((.text name, value) :: rest) = (name, value) :: membersOf rest := rfl
      rw [checkExtra, first]
      by_cases inside : name ∈ declared
      · simp [inside, ih]
      · simp [inside, ih]
    | _ => exact ih

theorem checkExtra_named (declared : List String) (members : Members) :
    checkExtra declared (Value.named members) = .fine (members.filter fun member => member.1 ∉ declared) := by
  have details : (checkExtra declared (Value.named members)).details = [] := by
    induction members with
    | nil => rfl
    | cons member rest ih =>
      rw [Value.named, List.map_cons, checkExtra]
      split
      · exact ih
      · exact ih
  have value := checkExtra_value declared (Value.named members)
  rw [undeclared, membersOf_named] at value
  rw [Checked.fine, ← value, ← details]

def named (entries : List (Value × Value)) : Members :=
  entries.filterMap fun entry => (checkKey entry.1).value.map (·, entry.2)

theorem named_ofTexts (members : Members) : named (Value.named members) = members := by
  rw [named, Value.named, List.filterMap_map]
  exact List.filterMap_some

theorem checkInfoEntries_value (members : Members) (entries : List (Value × Value)) :
    (checkInfoEntries members entries).value = Entries.putAll members (named entries) := by
  induction entries generalizing members with
  | nil => rfl
  | cons entry rest ih =>
    rw [checkInfoEntries, named, List.filterMap_cons]
    cases (checkKey entry.1).value with
    | none => exact ih members
    | some name => exact ih (Entries.put members name entry.2)

theorem checkInfoEntries_named (members others : Members) :
    checkInfoEntries members (Value.named others) = .fine (Entries.putAll members others) := by
  have details : (checkInfoEntries members (Value.named others)).details = [] := by
    induction others generalizing members with
    | nil => rfl
    | cons member rest ih => exact ih (Entries.put members member.1 member.2)
  have value := checkInfoEntries_value members (Value.named others)
  rw [named_ofTexts] at value
  rw [Checked.fine, ← value, ← details]

end Members

section Texts

/-- What a declared text is read as; a status may be given as a number. -/
inductive Reads (name : String) : Value → String → Prop where
  | text (s : String) : Reads name (.text s) s
  | bytes {content : List UInt8} {text : List Char} (decoded : Text.Utf8.decode? content = some text) :
    Reads name (.bytes content) (String.ofList text)
  | int (status : name = "status") (i : Int) : Reads name (.int i) (toString i)
  | bool (status : name = "status") (b : Bool) : Reads name (.bool b) (if b then "1" else "0")

inductive Kept (name : String) : Option Value → Option String → Prop where
  | absent : Kept name none none
  | null : Kept name (some .null) none
  | read {v : Value} {s : String} (reads : Reads name v s) : Kept name (some v) (some s)

theorem kept_of_checkText (fine : (checkText name given).details = []) :
    Kept name given (checkText name given).value := by
  cases given with
  | none => exact .absent
  | some v =>
    cases v with
    | null => exact .null
    | text s => exact .read (.text s)
    | bytes content =>
      rw [checkText] at fine ⊢
      split
      · next decoded => exact .read (.bytes decoded)
      · next decoded =>
        rw [decoded] at fine
        cases fine
    | _ => cases fine

theorem kept_of_checkStatus (fine : (checkStatus given).details = []) :
    Kept "status" given (checkStatus given).value := by
  cases given with
  | none => exact .absent
  | some v =>
    cases v with
    | int i =>
      rw [checkStatus] at fine ⊢
      split
      · exact .read (.int rfl i)
      · next long =>
        rw [if_neg long] at fine
        cases fine
    | bool b => exact .read (.bool rfl b)
    | _ => exact kept_of_checkText fine

def present? (given : Option Value) : Option Value := given.filter fun v => !v.isNull

theorem checkText_present (name : String) (t : Option String) :
    checkText name (present? (some (.ofOption .text t))) = .fine t := by
  cases t <;> rfl

theorem checkStatus_present (t : Option String) :
    checkStatus (present? (some (.ofOption .text t))) = .fine t := by
  cases t <;> rfl

end Texts

section Present

variable {declared extra : Members} {names : List String}

theorem keys_dumpFields (members : Members) :
    Entries.keys (Value.dumpFields members) = Entries.keys members := by
  rw [Value.dumpFields_eq_map, Entries.keys, List.map_map]
  rfl

theorem mem_keys_present (member : name ∈ Entries.keys (Value.present members)) : name ∈ Entries.keys members :=
  (List.filter_sublist.map _).subset member

theorem present_dumpFields (members : Members) :
    Value.present (Value.dumpFields (Value.present (Value.dumpFields members))) =
      Value.present (Value.dumpFields members) := by
  have plain : ∀ member ∈ Value.present (Value.dumpFields members), member.2.dump = member.2 := by
    intro member inside
    have listed := (List.mem_filter.mp inside).1
    rw [Value.dumpFields_eq_map] at listed
    obtain ⟨before, -, rfl⟩ := List.mem_map.mp listed
    exact Value.dump_dump before.2
  rw [Value.dumpFields_eq_map (Value.present _), Value.map_snd_eq_self plain]
  simp only [Value.present, List.filter_filter, Bool.and_self]

theorem dumpFields_dumpFields (members : Members) :
    Value.dumpFields (Value.dumpFields members) = Value.dumpFields members := by
  rw [Value.dumpFields_eq_map, Value.dumpFields_eq_map, List.map_map]
  exact List.map_congr_left fun member _ => congrArg (member.1, ·) (Value.dump_dump member.2)

theorem member?_present (distinct : (Entries.keys declared).Nodup) (apart : name ∉ Entries.keys extra) :
    member? (Value.named (Value.present declared ++ Value.present extra)) name =
      present? (Entries.get? declared name) := by
  have further : Entries.get? (Value.present extra) name = none :=
    Entries.get?_eq_none.mpr fun member => apart (mem_keys_present member)
  rw [member?_named, Entries.get?_append, further, Option.or_none, Value.present,
    Entries.get?_filter distinct fun v => !v.isNull]
  rfl

theorem checkExtra_present (inside : ∀ name ∈ Entries.keys (Value.present declared), name ∈ names)
    (apart : ∀ name ∈ Entries.keys extra, name ∉ names) :
    checkExtra names (Value.named (Value.present declared ++ Value.present extra)) = .fine (Value.present extra) := by
  have nothing : (Value.present declared).filter (fun member => member.1 ∉ names) = [] := by
    rw [List.filter_eq_nil_iff]
    intro member listed
    simpa using inside member.1 (List.mem_map_of_mem listed)
  have all : (Value.present extra).filter (fun member => member.1 ∉ names) = Value.present extra := by
    rw [List.filter_eq_self]
    intro member listed
    simpa using apart member.1 (mem_keys_present (List.mem_map_of_mem listed))
  rw [checkExtra_named, List.filter_append, nothing, all, List.nil_append]

end Present

end ErrorObject

namespace ErrorLinks

def declared (l : ErrorLinks) : Members :=
  [("about", .ofOption .text l.about), ("type", .ofOption .text l.type)]

def members (l : ErrorLinks) : Members :=
  Value.present l.declared ++ Value.present (Value.dumpFields l.extra)

theorem dump_toValue (l : ErrorLinks) : l.toValue.dump = .ofMembers l.members := by
  obtain ⟨about, type, extra⟩ := l
  rw [toValue, Value.dump_record]
  cases about <;> cases type <;> rfl

def settled (l : ErrorLinks) : ErrorLinks := { l with extra := Value.present (Value.dumpFields l.extra) }

theorem members_settled (l : ErrorLinks) : l.settled.members = l.members :=
  congrArg (Value.present l.declared ++ ·) (ErrorObject.present_dumpFields l.extra)

def Proper (l : ErrorLinks) : Prop := ∀ name ∈ Entries.keys l.extra, name ∉ ["about", "type", "type_"]

theorem check_members {l : ErrorLinks} (proper : l.Proper) :
    ErrorObject.checkLinksMembers (Value.named l.members) = .fine l.settled := by
  obtain ⟨about, type, extra⟩ := l
  have apart : ∀ name ∈ Entries.keys (Value.dumpFields extra), name ∉ ["about", "type", "type_"] := by
    rwa [ErrorObject.keys_dumpFields]
  have member (name : String) (reserved : name ∈ ["about", "type", "type_"]) :
      ErrorObject.member? (Value.named (members ⟨about, type, extra⟩)) name =
        ErrorObject.present? (Entries.get? (declared ⟨about, type, extra⟩) name) :=
    ErrorObject.member?_present (by decide : ["about", "type"].Nodup) fun inside => apart name inside reserved
  have about' : ErrorObject.member? (Value.named (members ⟨about, type, extra⟩)) "about" =
      ErrorObject.present? (some (.ofOption .text about)) := member "about" (by decide)
  have type_ : ErrorObject.member? (Value.named (members ⟨about, type, extra⟩)) "type_" = none :=
    member "type_" (by decide)
  rw [ErrorObject.checkLinksMembers, about', ErrorObject.checkText_present]
  cases type with
  | none =>
    have type' : ErrorObject.member? (Value.named (members ⟨about, none, extra⟩)) "type" = none :=
      member "type" (by decide)
    have further : ErrorObject.checkExtra ["about", "type_"] (Value.named (members ⟨about, none, extra⟩)) =
        .fine (Value.present (Value.dumpFields extra)) := by
      have shown : Value.present (declared ⟨about, none, extra⟩) =
          Value.present [("about", .ofOption .text about)] := by
        cases about <;> rfl
      refine ErrorObject.checkExtra_present (fun name inside => ?_) fun name inside listed =>
        apart name inside ((by decide : ["about", "type_"] ⊆ ["about", "type", "type_"]) listed)
      rw [shown] at inside
      exact (by decide : ["about"] ⊆ ["about", "type_"]) (ErrorObject.mem_keys_present inside)
    simp only [type', type_, Option.isSome_none, Bool.false_eq_true, if_false, further]
    rfl
  | some type =>
    have type' : ErrorObject.member? (Value.named (members ⟨about, some type, extra⟩)) "type" =
        some (.text type) := member "type" (by decide)
    have further : ErrorObject.checkExtra ["about", "type"] (Value.named (members ⟨about, some type, extra⟩)) =
        .fine (Value.present (Value.dumpFields extra)) :=
      ErrorObject.checkExtra_present (fun name inside => ErrorObject.mem_keys_present inside)
        fun name inside listed =>
          apart name inside ((by decide : ["about", "type"] ⊆ ["about", "type", "type_"]) listed)
    simp only [type', Option.isSome_some, if_true, further]
    rfl

end ErrorLinks

namespace ErrorSource

def declared (s : ErrorSource) : Members :=
  [("pointer", .ofOption .text s.pointer), ("parameter", .ofOption .text s.parameter),
    ("header", .ofOption .text s.header)]

def members (s : ErrorSource) : Members :=
  Value.present s.declared ++ Value.present (Value.dumpFields s.extra)

theorem dump_toValue (s : ErrorSource) : s.toValue.dump = .ofMembers s.members := by
  obtain ⟨pointer, parameter, header, extra⟩ := s
  rw [toValue, Value.dump_record]
  cases pointer <;> cases parameter <;> cases header <;> rfl

def settled (s : ErrorSource) : ErrorSource := { s with extra := Value.present (Value.dumpFields s.extra) }

theorem members_settled (s : ErrorSource) : s.settled.members = s.members :=
  congrArg (Value.present s.declared ++ ·) (ErrorObject.present_dumpFields s.extra)

def Proper (s : ErrorSource) : Prop :=
  ∀ name ∈ Entries.keys s.extra, name ∉ ["pointer", "parameter", "header"]

theorem check_members {s : ErrorSource} (proper : s.Proper) :
    ErrorObject.checkSourceMembers (Value.named s.members) = .fine s.settled := by
  have apart : ∀ name ∈ Entries.keys (Value.dumpFields s.extra),
      name ∉ ["pointer", "parameter", "header"] := by
    rwa [ErrorObject.keys_dumpFields]
  have member (name : String) (reserved : name ∈ ["pointer", "parameter", "header"]) :
      ErrorObject.member? (Value.named s.members) name =
        ErrorObject.present? (Entries.get? s.declared name) :=
    ErrorObject.member?_present (by decide : ["pointer", "parameter", "header"].Nodup)
      fun inside => apart name inside reserved
  have pointer : ErrorObject.member? (Value.named s.members) "pointer" =
      ErrorObject.present? (some (.ofOption .text s.pointer)) := member "pointer" (by decide)
  have parameter : ErrorObject.member? (Value.named s.members) "parameter" =
      ErrorObject.present? (some (.ofOption .text s.parameter)) := member "parameter" (by decide)
  have header : ErrorObject.member? (Value.named s.members) "header" =
      ErrorObject.present? (some (.ofOption .text s.header)) := member "header" (by decide)
  have further : ErrorObject.checkExtra ["pointer", "parameter", "header"] (Value.named s.members) =
      .fine (Value.present (Value.dumpFields s.extra)) :=
    ErrorObject.checkExtra_present (fun name inside => ErrorObject.mem_keys_present inside) apart
  rw [ErrorObject.checkSourceMembers, pointer, parameter, header, further]
  simp only [ErrorObject.checkText_present]
  rfl

end ErrorSource

namespace ErrorObject

def declared (e : ErrorObject) : Members :=
  [("id", .ofOption .text e.id), ("links", .ofOption (fun l => .ofMembers l.members) e.links),
    ("status", .ofOption .text e.status), ("code", .ofOption .text e.code),
    ("title", .ofOption .text e.title), ("detail", .ofOption .text e.detail),
    ("source", .ofOption (fun s => .ofMembers s.members) e.source),
    ("meta", .ofOption (fun info => .ofMembers (Value.dumpFields info)) e.info)]

theorem dump_ofOption {α : Type} {f g : α → Value} (same : ∀ a, (f a).dump = g a) (given : Option α) :
    (Value.ofOption f given).dump = .ofOption g given := by
  cases given with
  | none => rfl
  | some a => exact same a

theorem dumpFields_fields (e : ErrorObject) : Value.dumpFields e.fields = e.declared := by
  have text (t : Option String) : (Value.ofOption .text t).dump = .ofOption .text t :=
    dump_ofOption (fun _ => rfl) t
  have info (members : Members) : (Value.ofMembers members).dump = .ofMembers (Value.dumpFields members) := by
    rw [Value.dump_ofMembers, Value.dumpFields_eq_map]
  simp only [fields, declared, Value.dumpFields, text, dump_ofOption ErrorLinks.dump_toValue,
    dump_ofOption ErrorSource.dump_toValue, dump_ofOption info]

theorem members_eq (e : ErrorObject) :
    e.members = Value.present e.declared ++ Value.present (Value.dumpFields e.extra) := by
  have names :
      e.declared.map (fun field => (Value.plainName .errorObject field.1, field.2)) = e.declared := rfl
  rw [members, dumpFields_fields, Value.presentMembers, names]
  rfl

theorem dump_toValue (e : ErrorObject) : e.toValue.dump = .ofMembers e.members := by
  rw [toValue, Value.dump_record]
  rfl

/-- An object without a further member that has the name of a declared one, and whose metadata has distinct
names. -/
structure Proper (e : ErrorObject) : Prop where
  links : ∀ l ∈ e.links, l.Proper
  source : ∀ s ∈ e.source, s.Proper
  info : ∀ members ∈ e.info, (Entries.keys members).Nodup
  extra : ∀ name ∈ Entries.keys e.extra, name ∉ declaredNames

def settled (e : ErrorObject) : ErrorObject :=
  { e with
    links := e.links.map ErrorLinks.settled
    source := e.source.map ErrorSource.settled
    info := e.info.map Value.dumpFields
    extra := Value.present (Value.dumpFields e.extra) }

theorem declared_settled (e : ErrorObject) : e.settled.declared = e.declared := by
  obtain ⟨id, links, status, code, title, detail, source, info, extra⟩ := e
  simp only [declared, settled]
  cases links <;> cases source <;> cases info <;>
    simp only [Option.map, Value.ofOption, ErrorLinks.members_settled, ErrorSource.members_settled,
      dumpFields_dumpFields]

theorem members_settled (e : ErrorObject) : e.settled.members = e.members := by
  rw [members_eq, members_eq, declared_settled]
  exact congrArg (Value.present e.declared ++ ·) (present_dumpFields e.extra)

theorem checkLinks_present {links : Option ErrorLinks} (proper : ∀ l ∈ links, l.Proper) :
    checkLinks (present? (some (.ofOption (fun l => .ofMembers l.members) links))) =
      .fine (links.map ErrorLinks.settled) := by
  cases links with
  | none => rfl
  | some l =>
    show ((checkLinksMembers (Value.named l.members)).map some).below (.member "links") = _
    rw [ErrorLinks.check_members (proper l rfl)]
    rfl

theorem checkSource_present {source : Option ErrorSource} (proper : ∀ s ∈ source, s.Proper) :
    checkSource (present? (some (.ofOption (fun s => .ofMembers s.members) source))) =
      .fine (source.map ErrorSource.settled) := by
  cases source with
  | none => rfl
  | some s =>
    show ((checkSourceMembers (Value.named s.members)).map some).below (.member "source") = _
    rw [ErrorSource.check_members (proper s rfl)]
    rfl

theorem checkInfo_present {info : Option Members}
    (distinct : ∀ members ∈ info, (Entries.keys members).Nodup) :
    checkInfo (present? (some (.ofOption (fun info => .ofMembers (Value.dumpFields info)) info))) =
      .fine (info.map Value.dumpFields) := by
  cases info with
  | none => rfl
  | some members =>
    have same : Entries.putAll [] (Value.dumpFields members) = Value.dumpFields members :=
      Entries.ofPairs_of_nodup (by rw [keys_dumpFields]; exact distinct members rfl)
    show (checkInfoEntries [] (Value.named (Value.dumpFields members))).map some = _
    rw [checkInfoEntries_named, same]
    rfl

/-- What a document shows of a proper error object is read as that object. -/
theorem check_members {e : ErrorObject} (proper : e.Proper) :
    check (Value.named e.members) = .fine e.settled := by
  have apart : ∀ name ∈ Entries.keys (Value.dumpFields e.extra), name ∉ declaredNames := by
    rw [keys_dumpFields]
    exact proper.extra
  have distinct : (Entries.keys e.declared).Nodup := (by decide : declaredNames.Nodup)
  have member {name : String} {v : Value} (reserved : name ∈ declaredNames)
      (listed : Entries.get? e.declared name = some v) :
      member? (Value.named e.members) name = present? (some v) := by
    rw [members_eq, member?_present distinct fun inside => apart name inside reserved, listed]
  have text (name : String) (reserved : name ∈ declaredNames) (t : Option String)
      (listed : Entries.get? e.declared name = some (.ofOption .text t)) :
      checkText name (member? (Value.named e.members) name) = .fine t := by
    rw [member reserved listed, checkText_present]
  have links : checkLinks (member? (Value.named e.members) "links") =
      .fine (e.links.map ErrorLinks.settled) := by
    rw [member (by decide) rfl]
    exact checkLinks_present proper.links
  have status : checkStatus (member? (Value.named e.members) "status") = .fine e.status := by
    rw [member (by decide) rfl]
    exact checkStatus_present e.status
  have source : checkSource (member? (Value.named e.members) "source") =
      .fine (e.source.map ErrorSource.settled) := by
    rw [member (by decide) rfl]
    exact checkSource_present proper.source
  have info : checkInfo (member? (Value.named e.members) "meta") = .fine (e.info.map Value.dumpFields) := by
    rw [member (by decide) rfl]
    exact checkInfo_present proper.info
  have further : checkExtra declaredNames (Value.named e.members) =
      .fine (Value.present (Value.dumpFields e.extra)) := by
    rw [members_eq]
    exact checkExtra_present (fun name inside => mem_keys_present inside) apart
  rw [check, text "id" (by decide) e.id rfl, links, status, text "code" (by decide) e.code rfl,
    text "title" (by decide) e.title rfl, text "detail" (by decide) e.detail rfl, source, info, further]
  rfl

end ErrorObject

end JsonApi
