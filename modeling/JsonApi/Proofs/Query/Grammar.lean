import JsonApi.Proofs.Query.Family
import JsonApi.Query.Entry

/-!
The grammar of keys of parameter families. Main statement: a key is read exactly if the grammar derives
it, as what it is derived from, and keys with the same name and the same path are the same key.
-/

namespace JsonApi.Query

def LetterOrDigit (c : Char) : Prop :=
  ('a' ≤ c ∧ c ≤ 'z') ∨ ('A' ≤ c ∧ c ≤ 'Z') ∨ ('0' ≤ c ∧ c ≤ '9')

structure Token (text : List Char) : Prop where
  first : ∃ c rest, text = c :: rest ∧ LetterOrDigit c
  last : ∃ rest c, text = rest ++ [c] ∧ LetterOrDigit c
  inside : ∀ c ∈ text, LetterOrDigit c ∨ c = '-' ∨ c = '_'

theorem isTokenEnd_iff {c : Char} : isTokenEnd c = true ↔ LetterOrDigit c := by
  have letter : c.isAlpha = (c.isUpper || c.isLower) := rfl
  have upper : c.isUpper = decide ('A'.val ≤ c.val ∧ c.val ≤ 'Z'.val) := rfl
  have lower : c.isLower = (decide ('a'.val ≤ c.val) && decide (c.val ≤ 'z'.val)) := rfl
  simp only [isTokenEnd, LetterOrDigit, Char.isAlphanum, letter, upper, lower, Char.isDigit,
    Bool.or_eq_true, Bool.and_eq_true, decide_eq_true_eq, ge_iff_le, Char.le_def]
  tauto

theorem isTokenChar_iff {c : Char} :
    isTokenChar c = true ↔ LetterOrDigit c ∨ c = '-' ∨ c = '_' := by
  simp only [isTokenChar, Bool.or_eq_true, isTokenEnd_iff, decide_eq_true_eq, or_assoc]

theorem isToken_iff {text : List Char} : isToken text = true ↔ Token text := by
  simp only [isToken, Bool.and_eq_true, Option.any_eq_true, List.all_eq_true, List.head?_eq_some_iff,
    List.getLast?_eq_some_iff, isTokenEnd_iff, isTokenChar_iff]
  constructor
  · rintro ⟨⟨⟨first, ⟨rest, start⟩, letter⟩, last, ⟨before, stop⟩, letter'⟩, inside⟩
    exact ⟨⟨first, rest, start, letter⟩, ⟨before, last, stop, letter'⟩, inside⟩
  · rintro ⟨⟨first, rest, start, letter⟩, ⟨before, last, stop, letter'⟩, inside⟩
    exact ⟨⟨⟨first, ⟨rest, start⟩, letter⟩, last, ⟨before, stop⟩, letter'⟩, inside⟩

namespace FamilyKey

inductive Groups : List Char → List (List Char) → Prop where
  | one {segment : List Char} (token : Token segment) : Groups ('[' :: segment ++ [']']) [segment]
  | more {segment rest : List Char} {segments : List (List Char)} (token : Token segment)
    (groups : Groups rest segments) : Groups ('[' :: segment ++ ']' :: rest) (segment :: segments)

inductive Derives : List Char → FamilyKey → Prop where
  | key {name groups : List Char} {segments : List (List Char)} (token : Token name)
    (derived : Groups groups segments) : Derives (name ++ groups) ⟨name, segments⟩

theorem groups_iff {text : List Char} {segments : List (List Char)} :
    Groups text segments ↔
      segments ≠ [] ∧ (∀ segment ∈ segments, Token segment) ∧ text = writeSegments segments := by
  constructor
  · intro groups
    induction groups with
    | one token => exact ⟨List.cons_ne_nil _ _, by simpa using token, by simp [writeSegments]⟩
    | more token _ ih =>
      obtain ⟨_, tokens, rfl⟩ := ih
      refine ⟨List.cons_ne_nil _ _, List.forall_mem_cons.mpr ⟨token, tokens⟩, ?_⟩
      rw [writeSegments_cons, List.cons_append]
  · rintro ⟨nonempty, tokens, rfl⟩
    induction segments with
    | nil => exact absurd rfl nonempty
    | cons segment segments ih =>
      rw [List.forall_mem_cons] at tokens
      cases segments with
      | nil => simpa [writeSegments] using Groups.one tokens.1
      | cons next segments =>
        rw [writeSegments_cons, ← List.cons_append]
        exact .more tokens.1 (ih (List.cons_ne_nil _ _) tokens.2)

theorem derives_iff {key : List Char} {family : FamilyKey} :
    Derives key family ↔ family.Valid ∧ key = family.write := by
  constructor
  · rintro ⟨token, derived⟩
    obtain ⟨nonempty, tokens, rfl⟩ := groups_iff.mp derived
    exact ⟨⟨isToken_iff.mpr token, nonempty, fun segment member => isToken_iff.mpr (tokens segment member)⟩,
      rfl⟩
  · rintro ⟨valid, rfl⟩
    exact .key (isToken_iff.mp valid.name) (groups_iff.mpr ⟨valid.nonempty,
      fun segment member => isToken_iff.mp (valid.segments segment member), rfl⟩)

theorem read?_eq_some_iff_derives {key : List Char} {family : FamilyKey} :
    read? key = some family ↔ Derives key family :=
  read?_eq_some_iff.trans derives_iff.symm

/-- No token holds a point, so a path tells its segments. -/
theorem Valid.path_inj {one other : FamilyKey} (valid : one.Valid) (valid' : other.Valid)
    (names : one.name = other.name) (paths : one.path = other.path) : one = other := by
  have segments (family : FamilyKey) (valid : family.Valid) :
      Text.pieces '.' family.path = family.segments :=
    Text.pieces_joinWith valid.nonempty fun segment member =>
      not_mem_of_isToken (c := '.') rfl (valid.segments segment member)
  have same : one.segments = other.segments := by
    rw [← segments one valid, paths, segments other valid']
  cases one
  cases other
  rw [FamilyKey.mk.injEq]
  exact ⟨names, same⟩

/-- Keys that read with the same name and the same path are the same. -/
theorem read?_inj {key other : List Char} {family family' : FamilyKey}
    (read : read? key = some family) (read' : read? other = some family')
    (names : family.name = family'.name) (paths : family.path = family'.path) : key = other := by
  obtain ⟨valid, rfl⟩ := read?_eq_some_iff.mp read
  obtain ⟨valid', rfl⟩ := read?_eq_some_iff.mp read'
  rw [valid.path_inj valid' names paths]

/-- A key reads as a name and segments exactly if it is derived from them, and as nothing if it is not
derived at all; it is written back from what it reads as. Of two different keys of one family the paths
differ. -/
theorem read?_derives (key : List Char) :
    (∀ family, read? key = some family ↔ Derives key family) ∧
    (read? key = none ↔ ¬∃ family, Derives key family) ∧
    (∀ family, read? key = some family →
      family.write = key ∧ (∀ like, Derives key like → like = family) ∧
      ∀ other family', read? other = some family' → family.name = family'.name → key ≠ other →
        family.path ≠ family'.path) := by
  refine ⟨fun family => read?_eq_some_iff_derives, ?_, fun family read => ⟨?_, ?_, ?_⟩⟩
  · simp only [← read?_eq_some_iff_derives, ← Option.isSome_iff_exists]
    exact Option.not_isSome_iff_eq_none.symm
  · exact (read?_eq_some_iff.mp read).2.symm
  · intro like derived
    rw [read?_eq_some_iff_derives.mpr derived] at read
    exact Option.some.inj read
  · intro other family' read' names different paths
    exact different (read?_inj read read' names paths)

theorem authorName_derives :
    read? "filter[author][name]".toList = some ⟨"filter".toList, ["author".toList, "name".toList]⟩ ∧
    read? "filter[author-name]".toList = some ⟨"filter".toList, ["author-name".toList]⟩ ∧
    Derives "filter[author][name]".toList ⟨"filter".toList, ["author".toList, "name".toList]⟩ ∧
    FamilyKey.path ⟨"filter".toList, ["author".toList, "name".toList]⟩ ≠
      FamilyKey.path ⟨"filter".toList, ["author-name".toList]⟩ := by
  have nested : read? "filter[author][name]".toList =
      some ⟨"filter".toList, ["author".toList, "name".toList]⟩ := by decide +kernel
  have hyphened : read? "filter[author-name]".toList =
      some ⟨"filter".toList, ["author-name".toList]⟩ := by decide +kernel
  obtain ⟨derives, _, settled⟩ := read?_derives "filter[author][name]".toList
  obtain ⟨_, _, apart⟩ := settled _ nested
  exact ⟨nested, hyphened, (derives _).mp nested, apart _ _ hyphened rfl (by decide)⟩

end FamilyKey

end JsonApi.Query
