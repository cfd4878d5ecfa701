import JsonApi.Proofs.Entries
import JsonApi.Proofs.Query.Family
import JsonApi.Proofs.Text.Percent
import JsonApi.Query.Canonical

/-!
Queries read and written. Main statement: whatever text a query is read from, it is one that can be
asked for, and its canonical text reads as that query again, with everything in the same order.
-/

namespace JsonApi.Query

variable {q : Query} {text : List Char} {names : List String}

inductive Entry.Sound : Entry → Prop where
  | bare : Sound .bare
  | inclusion {names : List String} (sound : ∀ name ∈ names, IsName name) : Sound (.inclusion names)
  | sort {parts : List SortPart}
    (sound : ∀ field ∈ sortFields parts, isToken field.field.toList = true) : Sound (.sort parts)
  | fieldset {path : String} {names : List String} (isPath : IsPath path)
    (sound : ∀ name ∈ names, IsName name) : Sound (.fieldset path names)
  | filter {path value : String} (isPath : IsPath path) : Sound (.filter path value)
  | unknownFamily (name : String) : Sound (.unknownFamily name)
  | unknownKey (key : String) : Sound (.unknownKey key)

theorem isName_of_mem_readNames : ∀ name ∈ readNames text, IsName name := by
  intro name member
  obtain ⟨piece, inside, rfl⟩ := List.mem_map.mp member
  obtain ⟨cut, filled⟩ := List.mem_filter.mp inside
  constructor
  · intro empty
    have nothing : piece = [] := by
      rw [← String.toList_ofList (l := piece), empty]
      rfl
    simp [nothing] at filled
  · rw [String.toList_ofList]
    exact Text.not_mem_of_mem_pieces cut

theorem isToken_of_readSortPart {field : SortField} (read : readSortPart text = .field field) :
    isToken field.field.toList = true := by
  have checked (descending : Bool) (piece : List Char)
      (read : (if isToken piece then SortPart.field ⟨String.ofList piece, descending⟩
        else .noToken (String.ofList piece)) = .field field) : isToken field.field.toList = true := by
    split at read
    · next token =>
      cases read
      rw [String.toList_ofList]
      exact token
    · cases read
  exact checked _ _ read

theorem isToken_of_mem_sortFields :
    ∀ field ∈ sortFields (readSort text), isToken field.field.toList = true := by
  intro field member
  obtain ⟨part, inside, kept⟩ := List.mem_filterMap.mp member
  obtain ⟨piece, _, rfl⟩ := List.mem_map.mp inside
  split at kept
  · next field' read =>
    cases kept
    exact isToken_of_readSortPart read
  · cases kept

theorem isPath_path {family : FamilyKey} (valid : family.Valid) :
    IsPath (String.ofList family.path) :=
  ⟨family.segments, valid.nonempty, valid.segments, String.toList_ofList⟩

theorem sound_classify (key value : List Char) : (classify key value).Sound := by
  unfold classify
  split
  · exact .inclusion isName_of_mem_readNames
  split
  · exact .sort isToken_of_mem_sortFields
  split
  · exact .unknownKey _
  · next family read =>
    have valid := (FamilyKey.read?_eq_some_iff.mp read).1
    split
    · exact .fieldset (isPath_path valid) isName_of_mem_readNames
    split
    · exact .filter (isPath_path valid)
    · exact .unknownFamily _

theorem sound_readEntry (text : List Char) : (readEntry text).Sound := by
  unfold readEntry
  split
  · exact .bare
  · exact sound_classify _ _

theorem isMap_putOption {β : Type} {P : String × β → Prop} {entries : Option (List (String × β))}
    (isMap : IsMap P entries) {key : String} {value : β} (new : P (key, value)) :
    IsMap P (putOption entries key value) := by
  have known : (Entries.keys (entries.getD [])).Nodup ∧ ∀ entry ∈ entries.getD [], P entry := by
    cases entries with
    | none => exact ⟨List.nodup_nil, fun _ member => nomatch member⟩
    | some known => exact (isMap known rfl).2
  rintro _ ⟨⟩
  refine ⟨Entries.put_ne_nil _ _ _, Entries.nodup_keys_put known.1 _ _, fun entry member => ?_⟩
  rcases Entries.mem_put member with rfl | old
  · exact new
  · exact known.2 entry old

theorem wellFormed_apply (wellFormed : q.WellFormed) {entry : Entry} (sound : entry.Sound) :
    (q.apply entry).WellFormed := by
  cases sound with
  | bare => exact wellFormed
  | inclusion sound =>
    refine { wellFormed with inclusions := ?_ }
    rintro _ ⟨⟩
    exact sound
  | sort sound =>
    refine { wellFormed with sort := ?_ }
    rintro _ ⟨⟩
    exact sound
  | fieldset isPath sound =>
    exact { wellFormed with fieldsets := isMap_putOption wellFormed.fieldsets ⟨isPath, sound⟩ }
  | filter isPath => exact { wellFormed with filters := isMap_putOption wellFormed.filters isPath }
  | unknownFamily name => exact wellFormed
  | unknownKey key => exact wellFormed

theorem wellFormed_foldl (wellFormed : q.WellFormed) {entries : List Entry}
    (sound : ∀ entry ∈ entries, entry.Sound) : (entries.foldl apply q).WellFormed := by
  induction entries generalizing q with
  | nil => exact wellFormed
  | cons entry rest ih =>
    rw [List.forall_mem_cons] at sound
    exact ih (wellFormed_apply wellFormed sound.1) sound.2

theorem wellFormed_empty : empty.WellFormed where
  inclusions := fun _ absent => nomatch absent
  sort := fun _ absent => nomatch absent
  fieldsets := fun _ absent => nomatch absent
  filters := fun _ absent => nomatch absent

/-- Every text reads as a query that can be asked for. -/
theorem wellFormed_read (text : List Char) : (read text).WellFormed := by
  refine wellFormed_foldl wellFormed_empty ?_
  intro entry member
  obtain ⟨piece, _, rfl⟩ := List.mem_map.mp member
  exact sound_readEntry piece

theorem readEntry_writeEntry (key value : List Char) :
    readEntry (writeEntry key value) = classify key value := by
  have parts := Text.cut_append (Text.not_mem_encodeForm (c := '=') rfl key) (Text.encodeForm value)
  rw [readEntry, writeEntry, parts]
  dsimp only
  rw [Text.decodeForm_encodeForm, Text.decodeForm_encodeForm]

theorem readNames_writeNames (sound : ∀ name ∈ names, IsName name) :
    readNames (writeNames names) = names := by
  by_cases empty : names = []
  · subst empty
    rfl
  · have pieces : Text.pieces ',' (writeNames names) = names.map String.toList := by
      refine Text.pieces_joinWith (by simpa using empty) ?_
      rw [List.forall_mem_map]
      exact fun name member => (sound name member).2
    have unempty : (names.map String.toList).filter (· ≠ []) = names.map String.toList := by
      rw [List.filter_eq_self, List.forall_mem_map]
      intro name member
      simpa using (sound name member).1
    rw [readNames, pieces, unempty, List.map_map]
    simp [Function.comp_def]

theorem readSortPart_of_isToken (token : isToken text = true) :
    readSortPart text = .field ⟨String.ofList text, false⟩ := by
  obtain ⟨first, rest, rfl, plain⟩ := exists_cons_of_isToken token
  unfold readSortPart
  split
  next descending name signs =>
  split at signs
  · next shape =>
    cases shape
    cases plain
  · cases signs
    exact if_pos token

theorem readSortPart_writeSortField {field : SortField} (token : isToken field.field.toList = true) :
    readSortPart (writeSortField field) = .field field := by
  obtain ⟨name, descending⟩ := field
  cases descending with
  | true =>
    have read : readSortPart ('-' :: name.toList) = .field ⟨String.ofList name.toList, true⟩ :=
      if_pos token
    rw [String.ofList_toList] at read
    exact read
  | false =>
    have read := readSortPart_of_isToken token
    rw [String.ofList_toList] at read
    exact read

theorem sortFields_writeSort {fields : List SortField}
    (tokens : ∀ field ∈ fields, isToken field.field.toList = true) :
    sortFields (readSort (writeSort fields)) = fields := by
  by_cases empty : fields = []
  · subst empty
    rfl
  · have pieces : Text.pieces ',' (writeSort fields) = fields.map writeSortField := by
      refine Text.pieces_joinWith (by simpa using empty) ?_
      rw [List.forall_mem_map]
      intro field member
      have absent := not_mem_of_isToken (c := ',') rfl (tokens field member)
      unfold writeSortField
      split <;> simp [absent]
    have parts : fields.map (readSortPart ∘ writeSortField) = fields.map SortPart.field :=
      List.map_congr_left fun field member => readSortPart_writeSortField (tokens field member)
    rw [readSort, pieces, List.map_map, parts, sortFields, List.filterMap_map]
    exact List.filterMap_some

theorem read?_pathKey {family : List Char} (token : isToken family = true) {path : String}
    (isPath : IsPath path) :
    ∃ segments, FamilyKey.read? (pathKey family path) = some ⟨family, segments⟩ ∧
      String.ofList (FamilyKey.path ⟨family, segments⟩) = path := by
  obtain ⟨segments, nonempty, tokens, shape⟩ := isPath
  have pieces : Text.pieces '.' path.toList = segments := by
    rw [shape]
    exact Text.pieces_joinWith nonempty fun segment member =>
      not_mem_of_isToken (c := '.') rfl (tokens segment member)
  refine ⟨segments, ?_, ?_⟩
  · rw [FamilyKey.read?_eq_some_iff, pathKey, pieces]
    exact ⟨⟨token, nonempty, tokens⟩, rfl⟩
  · rw [FamilyKey.path, ← shape, String.ofList_toList]

theorem isToken_fieldsetFamily : isToken fieldsetFamily = true := rfl

theorem isToken_filterFamily : isToken filterFamily = true := rfl

theorem classify_inclusion (sound : ∀ name ∈ names, IsName name) :
    classify includeKey (writeNames names) = .inclusion names := by
  rw [classify, if_pos rfl, readNames_writeNames sound]

theorem classify_sort (value : List Char) : classify sortKey value = .sort (readSort value) := by
  rw [classify, if_neg (by decide), if_pos rfl]

theorem classify_of_read? {key value name : List Char} {segments : List (List Char)}
    (read : FamilyKey.read? key = some ⟨name, segments⟩) :
    classify key value =
      if name = fieldsetFamily then
        .fieldset (String.ofList (FamilyKey.path ⟨name, segments⟩)) (readNames value)
      else if name = filterFamily then
        .filter (String.ofList (FamilyKey.path ⟨name, segments⟩)) (String.ofList value)
      else .unknownFamily (String.ofList name) := by
  have other {plain : List Char} (unread : FamilyKey.read? plain = none) : key ≠ plain := by
    rintro rfl
    rw [read] at unread
    cases unread
  rw [classify, if_neg (other (by decide)), if_neg (other (by decide)), read]

theorem classify_fieldset {path : String} (isPath : IsPath path) (sound : ∀ name ∈ names, IsName name) :
    classify (pathKey fieldsetFamily path) (writeNames names) = .fieldset path names := by
  obtain ⟨segments, read, joined⟩ := read?_pathKey isToken_fieldsetFamily isPath
  rw [classify_of_read? read, if_pos rfl, joined, readNames_writeNames sound]

theorem classify_filter {path : String} (isPath : IsPath path) (value : String) :
    classify (pathKey filterFamily path) value.toList = .filter path value := by
  obtain ⟨segments, read, joined⟩ := read?_pathKey isToken_filterFamily isPath
  rw [classify_of_read? read, if_neg (by decide), if_pos rfl, joined, String.ofList_toList]

def asked (q : Query) : List Entry :=
  q.inclusions.toList.map Entry.inclusion ++
    q.sort.toList.map (fun fields => .sort (readSort (writeSort fields))) ++
    (q.fieldsets.getD []).map (fun fieldset => .fieldset fieldset.1 fieldset.2) ++
    (q.filters.getD []).map fun filter => .filter filter.1 filter.2

theorem IsMap.of_mem {β : Type} {P : String × β → Prop} {entries : Option (List (String × β))}
    (isMap : IsMap P entries) : ∀ entry ∈ entries.getD [], P entry := by
  cases entries with
  | none => exact fun _ member => nomatch member
  | some known => exact (isMap known rfl).2.2

theorem map_classify_members (wellFormed : q.WellFormed) :
    q.members.map (fun member => classify member.1 member.2) = q.asked := by
  have inclusions : ∀ names ∈ q.inclusions.toList,
      classify includeKey (writeNames names) = .inclusion names := fun names member =>
    classify_inclusion (wellFormed.inclusions names (Option.mem_toList.mp member))
  have fieldsets : ∀ fieldset ∈ q.fieldsets.getD [],
      classify (pathKey fieldsetFamily fieldset.1) (writeNames fieldset.2) =
        .fieldset fieldset.1 fieldset.2 := fun fieldset member =>
    classify_fieldset (wellFormed.fieldsets.of_mem fieldset member).1
      (wellFormed.fieldsets.of_mem fieldset member).2
  have filters : ∀ filter ∈ q.filters.getD [],
      classify (pathKey filterFamily filter.1) filter.2.toList = .filter filter.1 filter.2 :=
    fun filter member => classify_filter (wellFormed.filters.of_mem filter member) filter.2
  simp only [members, asked, List.map_append, List.map_map, Function.comp_def, classify_sort]
  rw [List.map_congr_left inclusions, List.map_congr_left fieldsets, List.map_congr_left filters]

theorem foldl_entries_write (q start : Query) :
    (entries q.write).foldl apply start =
      (q.members.map fun member => classify member.1 member.2).foldl apply start := by
  by_cases empty : q.members = []
  · have nothing : q.write = [] := by rw [write, empty]; rfl
    rw [nothing, empty]
    rfl
  · have pieces : Text.pieces '&' q.write = q.members.map fun member => writeEntry member.1 member.2 := by
      refine Text.pieces_joinWith (by simpa using empty) ?_
      rw [List.forall_mem_map]
      intro member _
      simp [writeEntry, Text.not_mem_encodeForm (c := '&') rfl]
    rw [entries, pieces, List.map_map]
    simp only [Function.comp_def, readEntry_writeEntry]

theorem foldl_fieldset (start : Query) (fieldsets : List (String × List String)) :
    (fieldsets.map fun fieldset => Entry.fieldset fieldset.1 fieldset.2).foldl apply start =
      { start with
        fieldsets := (fieldsets.foldl (fun known entry => putOption known entry.1 entry.2)
          start.fieldsets) } := by
  induction fieldsets generalizing start with
  | nil => rfl
  | cons fieldset rest ih => exact ih _

theorem foldl_filter (start : Query) (filters : List (String × String)) :
    (filters.map fun filter => Entry.filter filter.1 filter.2).foldl apply start =
      { start with
        filters := (filters.foldl (fun known entry => putOption known entry.1 entry.2)
          start.filters) } := by
  induction filters generalizing start with
  | nil => rfl
  | cons filter rest ih => exact ih _

theorem foldl_putOption {β : Type} (entries : Option (List (String × β))) (first : String × β)
    (rest : List (String × β)) :
    (first :: rest).foldl (fun known entry => putOption known entry.1 entry.2) entries =
      some (Entries.putAll (entries.getD []) (first :: rest)) := by
  induction rest generalizing entries first with
  | nil => rfl
  | cons next rest ih => exact ih (putOption entries first.1 first.2) next

theorem IsMap.foldl {β : Type} {P : String × β → Prop} {entries : Option (List (String × β))}
    (isMap : IsMap P entries) :
    (entries.getD []).foldl (fun known entry => putOption known entry.1 entry.2) none = entries := by
  cases entries with
  | none => rfl
  | some known =>
    obtain ⟨nonempty, distinct, _⟩ := isMap known rfl
    obtain ⟨first, rest, rfl⟩ := List.exists_cons_of_ne_nil nonempty
    exact (foldl_putOption none first rest).trans (congrArg Option.some (Entries.ofPairs_of_nodup distinct))

theorem foldl_asked (wellFormed : q.WellFormed) : q.asked.foldl apply empty = q := by
  have inclusions : (q.inclusions.toList.map Entry.inclusion).foldl apply empty =
      { empty with inclusions := q.inclusions } := by
    cases q.inclusions <;> rfl
  have sorted : (q.sort.toList.map fun fields => Entry.sort (readSort (writeSort fields))).foldl apply
      { empty with inclusions := q.inclusions } =
      { empty with inclusions := q.inclusions, sort := q.sort } := by
    cases given : q.sort with
    | none => rfl
    | some fields =>
      simp only [Option.toList_some, List.map_cons, List.map_nil, List.foldl_cons, List.foldl_nil, apply,
        sortFields_writeSort (wellFormed.sort fields given)]
  rw [asked, List.foldl_append, List.foldl_append, List.foldl_append, inclusions, sorted, foldl_fieldset,
    foldl_filter]
  simp only [empty, wellFormed.fieldsets.foldl, wellFormed.filters.foldl]

theorem read_write (wellFormed : q.WellFormed) : read q.write = q := by
  rw [read, foldl_entries_write, map_classify_members wellFormed, foldl_asked wellFormed]

/-- Every text reads as a query that can be asked for, and every such query reads from its canonical
text, so that reading and writing again changes nothing. -/
theorem read_canonical (text : List Char) (q : Query) (wellFormed : q.WellFormed) :
    (read text).WellFormed ∧ read q.write = q ∧ read (read text).write = read text :=
  ⟨wellFormed_read text, read_write wellFormed, read_write (wellFormed_read text)⟩

/-- Articles by a name that is itself made of signs that queries use, the newest first. -/
def newest : Query where
  fieldsets := some [("people", ["first name", "age"]), ("articles", [])]
  inclusions := some ["author.friends"]
  filters := some [("author.name", "Zoë & x=1"), ("author", "")]
  sort := some [⟨"created", true⟩, ⟨"id", false⟩]

theorem wellFormed_newest : newest.WellFormed where
  inclusions := by
    rintro _ ⟨⟩
    decide
  sort := by
    rintro _ ⟨⟩
    decide
  fieldsets := by
    rintro _ ⟨⟩
    refine ⟨by decide, by decide, ?_⟩
    simp only [List.forall_mem_cons]
    exact ⟨⟨⟨["people".toList], by decide, by decide, rfl⟩, by decide⟩,
      ⟨⟨["articles".toList], by decide, by decide, rfl⟩, by decide⟩, fun _ member => nomatch member⟩
  filters := by
    rintro _ ⟨⟩
    refine ⟨by decide, by decide, ?_⟩
    simp only [List.forall_mem_cons]
    exact ⟨⟨["author".toList, "name".toList], by decide, by decide, rfl⟩,
      ⟨["author".toList], by decide, by decide, rfl⟩, fun _ member => nomatch member⟩

/-- Signs that queries use survive in names and values, also in a text with entries that do not count. -/
theorem newest_canonical : newest.WellFormed ∧
    (read "sort=-%2C&&page=2&filter[a]=b=c+d".toList).WellFormed ∧ read newest.write = newest ∧
    read (read "sort=-%2C&&page=2&filter[a]=b=c+d".toList).write =
      read "sort=-%2C&&page=2&filter[a]=b=c+d".toList :=
  ⟨wellFormed_newest, read_canonical "sort=-%2C&&page=2&filter[a]=b=c+d".toList newest wellFormed_newest⟩

end JsonApi.Query
