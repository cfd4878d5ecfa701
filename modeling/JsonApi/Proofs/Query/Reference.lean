import JsonApi.Proofs.Uri.Split
import JsonApi.Query.Reference

/-!
The query that a reference carries. Main statement: it is read from what stands between the first question
mark and the number sign, tabs and line breaks dropped, and nothing else in the reference matters, unless
an authority that cannot stand makes the reference ask for nothing.
-/

namespace JsonApi.Query

variable {uri front query : List Char}

/-- A reference put together of what stands in front of its query, the query, and perhaps a fragment. -/
def withQuery (front query : List Char) (fragment : Option (List Char)) : List Char :=
  front ++ '?' :: (query ++ fragment.elim [] ('#' :: ·))

theorem ofReference_of_stands (stands : Uri.Stands (Uri.authorityOf uri)) :
    ofReference uri = read ((Uri.splitQuery uri).2.getD []) := by
  rw [ofReference, Uri.split_of_stands stands]
  rfl

theorem ofReference_of_refused (refused : ¬Uri.Stands (Uri.authorityOf uri)) :
    ofReference uri = empty := by
  obtain ⟨refusal, fails⟩ := Uri.exists_error_iff.mpr refused
  rw [ofReference, fails]

theorem authorityOf_withQuery (front query : List Char) (fragment : Option (List Char)) :
    Uri.authorityOf (withQuery front query fragment) = Uri.authorityOf front :=
  (Uri.front_append (.inl rfl) front _).2.1

theorem not_mem_tailOf {c : Char} (absent : c ∉ uri) : c ∉ Uri.tailOf uri :=
  fun member => absent (Uri.mem_of_mem_tailOf member)

/-- The query ends at the number sign, and the question mark in front of it is the first one. -/
theorem splitQuery_withQuery (plain : '?' ∉ front) (plain' : '#' ∉ front) (whole : '#' ∉ query)
    (fragment : Option (List Char)) :
    Uri.splitQuery (withQuery front query fragment) =
      (Uri.tailOf front, some (query.filter (!Uri.isDropped ·))) := by
  have tail := (Uri.front_append (.inl rfl) front (query ++ fragment.elim [] ('#' :: ·))).2.2
  have absent : '#' ∉ Uri.tailOf front ++ '?' :: query.filter (!Uri.isDropped ·) := by
    simp [not_mem_tailOf plain', whole]
  have cuts : (Text.cut '#' (Uri.tailOf (withQuery front query fragment))).1 =
      Uri.tailOf front ++ '?' :: query.filter (!Uri.isDropped ·) := by
    rw [withQuery, tail, List.filter_append]
    cases fragment with
    | none => simpa using congrArg Prod.fst (Text.cut_of_not_mem absent)
    | some fragment =>
      have ends := Text.cut_append absent (fragment.filter (!Uri.isDropped ·))
      rw [List.append_assoc] at ends
      exact congrArg Prod.fst ends
  rw [Uri.splitQuery, cuts, Text.cut_append (not_mem_tailOf plain)]

/-- A question mark behind the number sign begins no query. -/
theorem splitQuery_of_bare (bare : '?' ∉ (Text.cut '#' uri).1) : (Uri.splitQuery uri).2 = none := by
  cases cuts : Text.cut '#' uri with
  | mk front fragment =>
    rw [cuts] at bare
    have absent := Text.cut_of_not_mem (not_mem_tailOf bare)
    cases fragment with
    | none =>
      obtain ⟨plain, rfl⟩ := Text.not_mem_of_cut cuts
      rw [Uri.splitQuery, Text.cut_of_not_mem (not_mem_tailOf plain), absent]
    | some fragment =>
      obtain ⟨plain, rfl⟩ := Text.of_cut cuts
      rw [Uri.splitQuery, (Uri.front_append (.inr rfl) front fragment).2.2,
        Text.cut_append (not_mem_tailOf plain), absent]

theorem filter_isDropped (text : List Char) :
    text.filter (!Uri.isDropped ·) = text.filter fun c => c ≠ '\t' ∧ c ≠ '\r' ∧ c ≠ '\n' := by
  apply List.filter_congr
  intro c _
  simp [Uri.isDropped, Bool.and_assoc]

theorem ofReference_withQuery (plain : '?' ∉ front) (plain' : '#' ∉ front) (whole : '#' ∉ query)
    (fragment : Option (List Char)) (stands : Uri.Stands (Uri.authorityOf front)) :
    ofReference (withQuery front query fragment) =
      read (query.filter fun c => c ≠ '\t' ∧ c ≠ '\r' ∧ c ≠ '\n') := by
  rw [ofReference_of_stands (by rwa [authorityOf_withQuery]), splitQuery_withQuery plain plain' whole,
    Option.getD_some, filter_isDropped]

theorem ofReference_withQuery_refused (fragment : Option (List Char))
    (refused : ¬Uri.Stands (Uri.authorityOf front)) :
    ofReference (withQuery front query fragment) = empty :=
  ofReference_of_refused (by rwa [authorityOf_withQuery])

theorem read_nil : read [] = empty := rfl

theorem ofReference_of_bare (bare : '?' ∉ (Text.cut '#' uri).1) : ofReference uri = empty := by
  by_cases stands : Uri.Stands (Uri.authorityOf uri)
  · rw [ofReference_of_stands stands, splitQuery_of_bare bare, Option.getD_none, read_nil]
  · exact ofReference_of_refused stands

/-- A reference asks for what its query reads as if the text in front can be taken apart, and for nothing
if its authority cannot stand. The rest of the reference decides nothing but that, and without a question
mark in front of the fragment there is no query. -/
theorem ofReference_carried (front query : List Char) (fragment : Option (List Char))
    (plain : '?' ∉ front ∧ '#' ∉ front) (whole : '#' ∉ query) :
    (∀ parts, Uri.split front = .ok parts →
      ofReference (withQuery front query fragment) =
        read (query.filter fun c => c ≠ '\t' ∧ c ≠ '\r' ∧ c ≠ '\n')) ∧
    (∀ refusal, Uri.split front = .error refusal →
      ofReference (withQuery front query fragment) = empty) ∧
    ((∃ refusal, Uri.split front = .error refusal) ↔ ¬Uri.Stands (Uri.authorityOf front)) ∧
    (∀ front' fragment', '?' ∉ front' ∧ '#' ∉ front' →
      ((∃ parts, Uri.split front' = .ok parts) ↔ ∃ parts, Uri.split front = .ok parts) →
      ofReference (withQuery front' query fragment') = ofReference (withQuery front query fragment)) ∧
    ∀ uri, '?' ∉ (Text.cut '#' uri).1 → ofReference uri = empty := by
  have accepted {front : List Char} :
      (∃ parts, Uri.split front = .ok parts) ↔ Uri.Stands (Uri.authorityOf front) :=
    ⟨fun ⟨_, given⟩ => Uri.stands_of_split given, fun stands => ⟨_, Uri.split_of_stands stands⟩⟩
  refine ⟨?_, ?_, Uri.exists_error_iff, ?_, fun uri bare => ofReference_of_bare bare⟩
  · intro parts given
    exact ofReference_withQuery plain.1 plain.2 whole fragment (Uri.stands_of_split given)
  · intro refusal fails
    exact ofReference_withQuery_refused fragment (Uri.exists_error_iff.mp ⟨refusal, fails⟩)
  · intro front' fragment' plain' alike
    rw [accepted, accepted] at alike
    by_cases stands : Uri.Stands (Uri.authorityOf front)
    · rw [ofReference_withQuery plain.1 plain.2 whole fragment stands,
        ofReference_withQuery plain'.1 plain'.2 whole fragment' (alike.mpr stands)]
    · rw [ofReference_withQuery_refused fragment stands,
        ofReference_withQuery_refused fragment' (mt alike.mp stands)]

/-- A query that itself looks like an address is still the query, in front of a fragment with another. -/
theorem address_carried :
    ofReference "http://me@[::1]:80/a?include=//[b]:c?\td@e,f#?sort=a".toList =
      read "include=//[b]:c?d@e,f".toList ∧
    ofReference "http://me@[::1/a?include=b".toList = empty ∧
    ofReference "/a:b#?include=b".toList = empty := by
  have plain : '?' ∉ "http://me@[::1]:80/a".toList ∧ '#' ∉ "http://me@[::1]:80/a".toList := by decide
  have plain' : '?' ∉ "http://me@[::1/a".toList ∧ '#' ∉ "http://me@[::1/a".toList := by decide
  obtain ⟨carried, _, _, _, bare⟩ := ofReference_carried _ "include=//[b]:c?\td@e,f".toList
    (some "?sort=a".toList) plain (by decide)
  obtain ⟨_, refused, _⟩ := ofReference_carried _ "include=b".toList none plain' (by decide)
  obtain ⟨refusal, fails⟩ := @Uri.exists_error_iff "http://me@[::1/a".toList |>.mpr (by decide +kernel)
  exact ⟨carried _ (Uri.split_of_stands (by decide +kernel)), refused refusal fails, bare _ (by decide)⟩

end JsonApi.Query
