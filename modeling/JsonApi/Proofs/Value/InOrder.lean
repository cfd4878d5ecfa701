import JsonApi.Proofs.Value.Ordering

/-!
Values written in order. Main statement: as long as all keys of dictionaries are texts, the text of a value
with members in order is the text of its tree put in order, and it is there if the plain text is there.
-/

namespace JsonApi.Value

variable {debug : Bool}

/-- The members that a resource takes over from its identifier come in order already. -/
theorem splicedMembers_agree {o p : Outcome Json} (agree : Agree o.result p.result) :
    ∃ twins : List Twin, (∀ t ∈ twins, t.agrees) ∧
      splicedMembers o = named (twins.map Twin.plainMember) ∧
      splicedMembers p = named ((twins.map Twin.orderedMember).mergeSort Json.nameLe) := by
  cases shape : o.result with
  | error fault =>
    obtain ⟨fault', shape'⟩ := agree.of_error shape
    refine ⟨[⟨"type", ⟨o.records, .error fault⟩, ⟨p.records, .error fault'⟩⟩], ?_, ?_, ?_⟩
    · exact List.forall_mem_singleton.mpr (.refused fault fault')
    · rw [splicedMembers, shape]
      rfl
    · rw [splicedMembers, shape', List.map_singleton, List.mergeSort_singleton]
      rfl
  | ok json =>
    have shape' := agree.of_ok shape
    let records (o : Outcome Json) (name : String) := if name = "type" then o.records else []
    cases json with
    | object members =>
      refine ⟨members.map fun member => ⟨member.1, ⟨records o member.1, .ok member.2⟩,
        ⟨records p member.1, .ok member.2.inOrder⟩⟩, ?_, ?_, ?_⟩
      · exact List.forall_mem_map.mpr fun member _ => .written member.2
      · rw [splicedMembers, shape, named, List.map_map, List.map_map]
        rfl
      · rw [Json.inOrder_object] at shape'
        have kept := Json.mergeSort_map
          (fun member : String × Json => (⟨records p member.1, .ok member.2⟩ : Outcome Json))
          (members.map fun member => (member.1, member.2.inOrder))
        rw [List.map_map] at kept
        rw [splicedMembers, shape', List.map_map]
        refine Eq.trans ?_ (congrArg named kept)
        rw [named, List.map_map]
        rfl
    | _ =>
      refine ⟨[], List.forall_mem_nil _, ?_, ?_⟩
      · rw [splicedMembers, shape]
        rfl
      · rw [splicedMembers, shape', List.map_nil, List.mergeSort_nil]
        rfl

theorem agree_first (first : String × Value) (fields : Members) (here : Agrees debug first.2)
    (each : ∀ field ∈ fields, Agrees debug field.2) :
    Agree
      (encodeMembers ⟨debug, false⟩ ((.text first.1, encodePlain ⟨debug, false⟩ first.2) ::
        presentParts (fields.map (part ⟨debug, false⟩)))).result
      (encodeMembers ⟨debug, true⟩ ((.text first.1, encodePlain ⟨debug, true⟩ first.2) ::
        presentParts (fields.map (part ⟨debug, true⟩)))).result := by
  rw [presentParts_map, presentParts_map]
  exact agree_members (first :: present fields) (List.forall_mem_cons.mpr
    ⟨here, fun field member => each field (List.mem_of_mem_filter member)⟩)

theorem agree_resource {identifier : String × Value} {fields : Members}
    (here : Agrees debug identifier.2) (each : ∀ field ∈ fields, Agrees debug field.2) :
    Agree
      (encodeMembers ⟨debug, false⟩ (splicedMembers (encodePlain ⟨debug, false⟩ identifier.2) ++
        presentParts (fields.map (part ⟨debug, false⟩)))).result
      (encodeMembers ⟨debug, true⟩ (splicedMembers (encodePlain ⟨debug, true⟩ identifier.2) ++
        presentParts (fields.map (part ⟨debug, true⟩)))).result := by
  obtain ⟨twins, agrees, plain, ordered⟩ := splicedMembers_agree here
  have all : ∀ t ∈ twins ++ (present fields).map (twin debug), t.agrees :=
    List.forall_mem_append.mpr ⟨agrees, List.forall_mem_map.mpr fun field member =>
      each field (List.mem_of_mem_filter member)⟩
  have same : ((twins.map Twin.orderedMember).mergeSort Json.nameLe ++
        ((present fields).map (twin debug)).map Twin.orderedMember).mergeSort Json.nameLe =
      ((twins ++ (present fields).map (twin debug)).map Twin.orderedMember).mergeSort Json.nameLe := by
    rw [List.map_append]
    exact Sorting.mergeSort_append Json.ranking_nameLe _ _
  have agree := agree_encodeMembers debug _ all same
  rw [plain, ordered, presentParts_map, presentParts_map]
  simp only [named, List.map_append, List.map_map] at agree ⊢
  exact agree

theorem encodeShape_agree (shape : Shape) {fields : Members}
    (each : ∀ field ∈ fields, Agrees debug field.2) :
    Agree (encodeShape ⟨debug, false⟩ shape (fields.map (part ⟨debug, false⟩))).result
      (encodeShape ⟨debug, true⟩ shape (fields.map (part ⟨debug, true⟩))).result := by
  cases shape with
  | existing =>
    rcases fields with _ | ⟨kind, _ | ⟨id, _ | ⟨third, rest⟩⟩⟩
    · exact agree_present _ each
    · exact agree_present _ each
    · exact agree_members [("type", kind.2), ("id", id.2)] (by simpa using each)
    · exact agree_present _ each
  | new =>
    rcases fields with _ | ⟨kind, _ | ⟨lid, _ | ⟨third, rest⟩⟩⟩
    · exact agree_present _ each
    · exact agree_present _ each
    · exact agree_first ("type", kind.2) [("lid", lid.2)]
        (each kind List.mem_cons_self) (by simpa using each lid (by simp))
    · exact agree_present _ each
  | emptyLinkage => exact .written .null
  | toOne =>
    rcases fields with _ | ⟨identifier, _ | ⟨second, rest⟩⟩
    · exact agree_present _ each
    · exact each identifier List.mem_cons_self
    · exact agree_present _ each
  | toMany =>
    rcases fields with _ | ⟨identifiers, _ | ⟨second, rest⟩⟩
    · exact agree_present _ each
    · exact each identifiers List.mem_cons_self
    · exact agree_present _ each
  | links =>
    have agree := agree_present (fields.map fun field => (linkName field.1, field.2))
      (List.forall_mem_map.mpr each)
    rw [List.map_map, List.map_map] at agree
    rw [encodeShape, encodeShape, List.map_map, List.map_map]
    exact agree
  | resource =>
    rcases fields with _ | ⟨identifier, rest⟩
    · exact agree_present _ each
    · exact agree_resource (each identifier List.mem_cons_self) fun field member =>
        each field (List.mem_cons_of_mem _ member)
  | document =>
    rcases fields with _ | ⟨data, _ | ⟨errors, rest⟩⟩
    · exact agree_present _ each
    · exact agree_present _ each
    · have further : ∀ field ∈ rest, Agrees debug field.2 := fun field member =>
        each field (List.mem_cons_of_mem _ (List.mem_cons_of_mem _ member))
      cases absent : errors.2.isNull with
      | true =>
        have agree := agree_first ("data", data.2) rest (each data (by simp)) further
        simpa only [encodeShape, List.map_cons, part, absent, if_true, if_false, Bool.false_eq_true,
          Part.member] using agree
      | false =>
        have agree := agree_first ("errors", errors.2) rest (each errors (by simp)) further
        simpa only [encodeShape, List.map_cons, part, absent, if_true, if_false, Bool.false_eq_true,
          Part.member] using agree
  | relationship => exact agree_present _ each
  | info => exact agree_present _ each
  | errorObject => exact agree_present _ each
  | errorLinks => exact agree_present _ each
  | errorSource => exact agree_present _ each

theorem agree_pure (json : Json) (plain : json.inOrder = json) :
    Agree (pure json : Outcome Json).result (pure json : Outcome Json).result :=
  agree_self fun _ ok => by
    cases ok
    exact plain

theorem encodeInt_agree (i : Int) : Agree (encodeInt i).result (encodeInt i).result := by
  refine agree_self fun json ok => ?_
  unfold encodeInt at ok
  split at ok <;> cases ok
  rfl

theorem attributeJson_agree (v : Value) : Agree (attributeJson v).result (attributeJson v).result := by
  cases v with
  | int i => exact encodeInt_agree i
  | _ => exact agree_pure _ rfl

/-- Members whose values are the same in both ways. -/
theorem agree_shared (debug : Bool) (members : List (String × Outcome Json))
    (each : ∀ member ∈ members, Agree member.2.result member.2.result) :
    Agree (encodeMembers ⟨debug, false⟩ (named members)).result
      (encodeMembers ⟨debug, true⟩ (named members)).result := by
  let twinOf (member : String × Outcome Json) : Twin := ⟨member.1, member.2, member.2⟩
  have agrees : ∀ t ∈ members.map twinOf, t.agrees := List.forall_mem_map.mpr each
  have agree := agree_encodeMembers debug _ agrees rfl
  rw [List.map_map, List.map_map] at agree
  have same : members.map (fun member => (member.1, member.2)) = members := List.map_id members
  exact same ▸ agree

theorem publicForm_agree (v : Value) :
    Agree (publicForm ⟨debug, false⟩ v).result (publicForm ⟨debug, true⟩ v).result := by
  unfold publicForm
  dsimp only
  split
  · exact agree_pure _ rfl
  · next attributes _ =>
    have agree := agree_shared debug ((attributes.filter fun member => isPublic member.1).map
      fun member => (member.1, attributeJson member.2))
      (List.forall_mem_map.mpr fun member _ => attributeJson_agree member.2)
    rw [named, List.map_map] at agree
    exact agree

theorem unknownForm_agree (v : Value) :
    Agree (unknownForm ⟨debug, false⟩ v).result (unknownForm ⟨debug, true⟩ v).result := by
  unfold unknownForm
  dsimp only
  split
  · exact publicForm_agree v
  · refine .both_ok (.object [("error", .text "JADocJSONEncoder invalid object")]) rfl ?_
    rw [Json.inOrder_object, List.map_singleton, List.mergeSort_singleton]
    rfl

def textForm (encoding : Encoding) : Value → Outcome Json
  | .text s => pure (.text s)
  | .dict entries => encodeMembers encoding (entries.map fun entry => (entry.1, attributeJson entry.2))
  | _ => pure .null

theorem exists_named {entries : List (Value × Value)} (keyed : ∀ entry ∈ entries, ∃ name, entry.1 = .text name) :
    ∃ members : Members, entries = named members := by
  induction entries with
  | nil => exact ⟨[], rfl⟩
  | cons entry rest ih =>
    obtain ⟨⟨name, shape⟩, further⟩ := List.forall_mem_cons.mp keyed
    obtain ⟨members, rfl⟩ := ih further
    exact ⟨(name, entry.2) :: members, congrArg (· :: named members) (Prod.ext shape rfl)⟩

theorem textForm_agree {v : Value}
    (keyed : ∀ entries, v = .dict entries → ∀ entry ∈ entries, ∃ name, entry.1 = .text name) :
    Agree (textForm ⟨debug, false⟩ v).result (textForm ⟨debug, true⟩ v).result := by
  unfold textForm
  split
  · exact agree_pure _ rfl
  · next entries =>
    obtain ⟨members, rfl⟩ := exists_named (keyed entries rfl)
    have agree := agree_shared debug (members.map fun member => (member.1, attributeJson member.2))
      (List.forall_mem_map.mpr fun member _ => attributeJson_agree member.2)
    simp only [named, List.map_map] at agree ⊢
    exact agree
  · exact agree_pure _ rfl

theorem encodeTextMembers_agree {members : Members}
    (keyed : ∀ member ∈ members, ∀ entries, member.2 = .dict entries →
      ∀ entry ∈ entries, ∃ name, entry.1 = .text name) :
    Agree (encodeTextMembers ⟨debug, false⟩ members).result
      (encodeTextMembers ⟨debug, true⟩ members).result := by
  let twinOf (member : String × Value) : Twin :=
    ⟨member.1, textForm ⟨debug, false⟩ member.2, textForm ⟨debug, true⟩ member.2⟩
  have agrees : ∀ t ∈ members.map twinOf, t.agrees :=
    List.forall_mem_map.mpr fun member inside => textForm_agree (keyed member inside)
  have agree := agree_encodeMembers debug _ agrees rfl
  simp only [named, List.map_map] at agree
  exact agree

theorem text_keys_ofMembers {members : Members} {entries : List (Value × Value)}
    (shape : ofMembers members = .dict entries) : ∀ entry ∈ entries, ∃ name, entry.1 = .text name := by
  cases shape
  exact List.forall_mem_map.mpr fun member _ => ⟨member.1, rfl⟩

/-- Of an error object without further members every part has a plain form with texts as keys. -/
theorem text_keys_errorObject {e : ErrorObject} (nothing : e.extra = []) :
    ∀ member ∈ e.members, ∀ entries, member.2 = .dict entries →
      ∀ entry ∈ entries, ∃ name, entry.1 = .text name := by
  have texts (o : Option String) (entries : List (Value × Value)) : dump (.ofOption .text o) ≠ .dict entries := by
    cases o <;> nofun
  have declared : ∀ field ∈ e.fields, ∀ entries, dump field.2 = .dict entries →
      ∀ entry ∈ entries, ∃ name, entry.1 = .text name := by
    intro field member entries shape
    simp only [ErrorObject.fields, List.mem_cons, List.not_mem_nil, or_false] at member
    rcases member with rfl | rfl | rfl | rfl | rfl | rfl | rfl | rfl
    · exact absurd shape (texts e.id entries)
    · cases links : e.links with
      | none =>
        rw [links] at shape
        cases shape
      | some l =>
        rw [links] at shape
        exact text_keys_ofMembers shape
    · exact absurd shape (texts e.status entries)
    · exact absurd shape (texts e.code entries)
    · exact absurd shape (texts e.title entries)
    · exact absurd shape (texts e.detail entries)
    · cases source : e.source with
      | none =>
        rw [source] at shape
        cases shape
      | some s =>
        rw [source] at shape
        exact text_keys_ofMembers shape
    · cases info : e.info with
      | none =>
        rw [info] at shape
        cases shape
      | some members =>
        rw [info] at shape
        exact text_keys_ofMembers ((dump_ofMembers members).symm.trans shape)
  intro member inside entries shape
  rw [ErrorObject.members, nothing, dumpFields_eq_map] at inside
  rcases mem_presentMembers inside with ⟨field, listed, same⟩ | further
  · obtain ⟨given, among, rfl⟩ := List.mem_map.mp listed
    exact declared given among entries (same.trans shape)
  · cases further

theorem extra_toErrorObject {p : Problem} {object : ErrorObject} (ok : p.toErrorObject = .ok object) :
    object.extra = [] := by
  unfold Problem.toErrorObject at ok
  cases made : ErrorObject.ofEntries p.entries with
  | error fault =>
    rw [made] at ok
    cases ok
  | ok plain =>
    have nothing : plain.extra = [] := by
      rw [ErrorObject.ofEntries, ErrorObject.accept] at made
      split at made <;> cases made
      rfl
    rw [made] at ok
    change (if _ then _ else Except.ok plain) = Except.ok object at ok
    split at ok
    · cases accepted : ErrorObject.accept
          (ErrorObject.checkSourceMembers [(.text "parameter", p.parameter)]) with
      | error fault =>
        rw [accepted] at ok
        cases ok
      | ok source =>
        rw [accepted] at ok
        cases ok
        exact nothing
    · cases ok
      exact nothing

theorem encodeProblem_agree (p : Problem) :
    Agree (encodeProblem ⟨debug, false⟩ p).result (encodeProblem ⟨debug, true⟩ p).result := by
  unfold encodeProblem
  split
  · next fault _ => exact .refused fault fault
  · next object ok => exact encodeTextMembers_agree (text_keys_errorObject (extra_toErrorObject ok))

theorem agrees_of_isSingle {v : Value} (single : v.isSingle = true) : Agrees debug v := by
  cases v with
  | list _ => cases single
  | tuple _ => cases single
  | set _ _ => cases single
  | dict _ => cases single
  | record _ _ _ => cases single
  | bytes content =>
    refine agree_self fun json ok => ?_
    simp only [encodePlain, encodeBytes] at ok
    split at ok <;> cases ok <;> rfl
  | decimal d =>
    refine agree_self fun json ok => ?_
    simp only [encodePlain, encodeDecimal] at ok
    split at ok <;> cases ok
    rfl
  | int i => exact encodeInt_agree i
  | complex re im => exact unknownForm_agree _
  | problem kind detail message status code parameter => exact encodeProblem_agree _
  | breach kind message => exact unknownForm_agree _
  | foreign attributes => exact unknownForm_agree _
  | _ => exact agree_pure _ rfl

/-- The two ways to write a value agree if they do on its parts, and dictionaries have texts as keys. -/
theorem agrees_of_hasTextKeys (v : Value) (keyed : v.hasTextKeys = true) : Agrees debug v := by
  induction v using byParts with
  | single v single => exact agrees_of_isSingle single
  | list items ih =>
    rw [hasTextKeys, itemsHaveTextKeys_iff] at keyed
    rw [Agrees, encodePlain, encodePlain, encodeItems_eq_map, encodeItems_eq_map]
    exact agree_array fun item member => ih item member (keyed item member)
  | tuple items ih =>
    rw [hasTextKeys, itemsHaveTextKeys_iff] at keyed
    rw [Agrees, encodePlain, encodePlain, encodeItems_eq_map, encodeItems_eq_map]
    exact agree_array fun item member => ih item member (keyed item member)
  | set frozen items ih =>
    rw [hasTextKeys, itemsHaveTextKeys_iff] at keyed
    rw [Agrees, encodePlain, encodePlain, encodeItems_eq_map, encodeItems_eq_map]
    exact agree_array fun item member => ih item member (keyed item member)
  | dict entries ih =>
    rw [hasTextKeys, entriesHaveTextKeys_iff] at keyed
    obtain ⟨members, rfl⟩ := exists_named fun entry member => (keyed entry member).1
    have each : ∀ member ∈ members, Agrees debug member.2 := by
      intro member inside
      have entry := List.mem_map_of_mem (f := fun m : String × Value => (Value.text m.1, m.2)) inside
      exact ih _ entry (keyed _ entry).2
    have agree := agree_members members each
    rw [Agrees, encodePlain, encodePlain, encodeEntries_eq_map, encodeEntries_eq_map]
    simp only [named, List.map_map] at agree ⊢
    exact agree
  | record shape fields extra ih _ =>
    rw [hasTextKeys, Bool.and_eq_true, fieldsHaveTextKeys_iff] at keyed
    rw [Agrees, encodePlain, encodePlain]
    split
    · exact .refused _ _
    split
    · exact unknownForm_agree _
    · rw [encodeFields_eq_map, encodeFields_eq_map]
      exact encodeShape_agree shape fun field member => ih field member (keyed.1 field member)

theorem hasTextKeys_dump (v : Value) (keyed : v.hasTextKeys = true) : (dump v).hasTextKeys = true := by
  induction v using byParts with
  | single v single => cases v <;> first | exact keyed | cases single
  | list items ih =>
    rw [dump, dumpItems_eq_map]
    exact itemsHaveTextKeys_map ih keyed
  | tuple items ih =>
    rw [dump, dumpItems_eq_map]
    exact itemsHaveTextKeys_map ih keyed
  | set frozen items ih =>
    rw [dump, dumpItems_eq_map]
    exact itemsHaveTextKeys_map ih keyed
  | dict entries ih =>
    rw [dump, dumpEntries_eq_map]
    exact entriesHaveTextKeys_map ih keyed
  | record shape fields extra ih ih' =>
    rw [hasTextKeys, Bool.and_eq_true] at keyed
    have declared := fieldsHaveTextKeys_map ih keyed.1
    have further := fieldsHaveTextKeys_map ih' keyed.2
    rw [← dumpFields_eq_map] at declared further
    rw [dump]
    split
    · refine hasTextKeys_ofMembers (fieldsHaveTextKeys_iff.mpr fun member inside => ?_)
      rcases mem_presentMembers inside with ⟨field, listed, same⟩ | listed
      · rw [← same]
        exact fieldsHaveTextKeys_iff.mp declared field listed
      · exact fieldsHaveTextKeys_iff.mp further member listed
    · exact hasTextKeys_ofMembers declared

theorem hasTextKeys_expand (v : Value) (keyed : v.hasTextKeys = true) : (expand v).hasTextKeys = true := by
  induction v using byParts with
  | single v single => cases v <;> first | exact keyed | cases single
  | list items ih =>
    rw [expand, expandItems_eq_map]
    exact itemsHaveTextKeys_map ih keyed
  | tuple items ih =>
    rw [expand, expandItems_eq_map]
    exact itemsHaveTextKeys_map ih keyed
  | set frozen items ih =>
    rw [expand, expandItems_eq_map]
    exact itemsHaveTextKeys_map ih keyed
  | dict entries ih =>
    rw [expand, expandEntries_eq_map]
    exact entriesHaveTextKeys_map ih keyed
  | record shape fields extra ih _ =>
    rw [expand]
    split
    · exact hasTextKeys_dump _ keyed
    split
    · exact keyed
    · rw [hasTextKeys, Bool.and_eq_true] at keyed ⊢
      rw [expandFields_eq_map]
      exact ⟨fieldsHaveTextKeys_map ih keyed.1, keyed.2⟩

theorem encode_agree (debug : Bool) (v : Value) (keyed : v.hasTextKeys = true) :
    Agree (v.encode ⟨debug, false⟩).result (v.encode ⟨debug, true⟩).result :=
  agrees_of_hasTextKeys (expand v) (hasTextKeys_expand v keyed)

/-- The text of a value with members in order is that of its tree put in order, and one of the two texts
is refused only if the other is. -/
theorem jsonText_inOrder (verbosity : Verbosity) (layout : Json.Layout) (v : Value)
    (keyed : v.hasTextKeys = true) :
    (∃ json, (v.encode ⟨verbosity.isDebug, false⟩).result = .ok json ∧
      (v.jsonText ⟨verbosity.isDebug, false⟩ layout).result = .ok (json.render layout) ∧
      (v.jsonText ⟨verbosity.isDebug, true⟩ layout).result = .ok (json.inOrder.render layout)) ∨
    ∃ fault fault', (v.jsonText ⟨verbosity.isDebug, false⟩ layout).result = .error fault ∧
      (v.jsonText ⟨verbosity.isDebug, true⟩ layout).result = .error fault' := by
  have agree := encode_agree verbosity.isDebug v keyed
  simp only [jsonText, Outcome.result_bind]
  cases shape : (v.encode ⟨verbosity.isDebug, false⟩).result with
  | ok json =>
    rw [agree.of_ok shape]
    exact .inl ⟨json, rfl, rfl, rfl⟩
  | error fault =>
    obtain ⟨fault', shape'⟩ := agree.of_error shape
    rw [shape']
    exact .inr ⟨fault, fault', rfl, rfl⟩

def unorderedPage : Value :=
  .dict [(.text "page", .tuple [.int 2, .dict [(.text "of", .int 9), (.text "at", .span ⟨1⟩)]]),
    (.text "cause", .problem .notFound "gone" (.text "") (.int 404) .null .null),
    (.text "owner", .foreign [("name", .text "Ann"), ("_key", .int 1), ("age", .int 40)])]

/-- Names inside of a foreign object and of a problem are put in order too. -/
theorem unorderedPage_inOrder :
    unorderedPage.hasTextKeys = true ∧
    ∃ json, (unorderedPage.encode ⟨Verbosity.isDebug ⟨10⟩, false⟩).result = .ok json ∧
      (unorderedPage.jsonText ⟨Verbosity.isDebug ⟨10⟩, true⟩ .spaced).result =
        .ok (json.inOrder.render .spaced) := by
  have keyed : unorderedPage.hasTextKeys = true := by decide
  have written : (unorderedPage.jsonText ⟨Verbosity.isDebug ⟨10⟩, false⟩ .spaced).result.isOk = true := by
    decide +kernel
  refine ⟨keyed, ?_⟩
  rcases jsonText_inOrder ⟨10⟩ .spaced unorderedPage keyed with
    ⟨json, encoded, _, ordered⟩ | ⟨_, _, refused, _⟩
  · exact ⟨json, encoded, ordered⟩
  · rw [refused] at written
    cases written

end JsonApi.Value
