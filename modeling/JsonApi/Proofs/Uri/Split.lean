import JsonApi.Proofs.Text.Cutting
import JsonApi.Uri.Split

/-!
What a reference is made of, from its front to its end. Main statements: a reference has parts unless its
authority is refused, and what begins with a question mark or a number sign never changes the scheme and
the authority of the text in front of it.
-/

namespace JsonApi.Uri

variable {uri before after : List Char} {c : Char}

def schemeOf (uri : List Char) : List Char := (splitScheme (cleaned uri)).1

def authorityOf (uri : List Char) : List Char := (splitAuthority (splitScheme (cleaned uri)).2).1

def tailOf (uri : List Char) : List Char := (splitAuthority (splitScheme (cleaned uri)).2).2

/-- The path and the query, which holds no number sign, without the question mark between them. -/
def splitQuery (uri : List Char) : List Char × Option (List Char) :=
  Text.cut '?' (Text.cut '#' (tailOf uri)).1

def partsOf (uri : List Char) : Parts where
  scheme := schemeOf uri
  authority := authorityOf uri
  path := (splitQuery uri).1
  query := (splitQuery uri).2.getD []
  fragment := (Text.cut '#' (tailOf uri)).2.getD []

/-- An authority whose brackets hold an address, and that no compatibility form takes apart. -/
structure Stands (authority : List Char) : Prop where
  brackets : checkBrackets authority = .ok ()
  compatible : checkAuthority authority = .ok ()

instance (authority : List Char) : Decidable (Stands authority) :=
  match brackets : checkBrackets authority with
  | .error _ => isFalse fun stands => by
    rw [stands.brackets] at brackets
    cases brackets
  | .ok () =>
    match compatible : checkAuthority authority with
    | .error _ => isFalse fun stands => by
      rw [stands.compatible] at compatible
      cases compatible
    | .ok () => isTrue ⟨brackets, compatible⟩

theorem split_eq (uri : List Char) :
    split uri = (do
      checkBrackets (authorityOf uri)
      checkAuthority (authorityOf uri)
      return partsOf uri) := rfl

theorem split_eq_ok_iff {parts : Parts} :
    split uri = .ok parts ↔ Stands (authorityOf uri) ∧ partsOf uri = parts := by
  rw [split_eq]
  constructor
  · intro given
    cases brackets : checkBrackets (authorityOf uri) with
    | error refusal =>
      rw [brackets] at given
      cases given
    | ok =>
      cases compatible : checkAuthority (authorityOf uri) with
      | error refusal =>
        rw [brackets, compatible] at given
        cases given
      | ok =>
        rw [brackets, compatible] at given
        cases given
        exact ⟨⟨brackets, compatible⟩, rfl⟩
  · rintro ⟨stands, rfl⟩
    rw [stands.brackets, stands.compatible]
    rfl

theorem split_of_stands (stands : Stands (authorityOf uri)) : split uri = .ok (partsOf uri) :=
  split_eq_ok_iff.mpr ⟨stands, rfl⟩

theorem stands_of_split {parts : Parts} (given : split uri = .ok parts) : Stands (authorityOf uri) :=
  (split_eq_ok_iff.mp given).1

theorem exists_error_iff : (∃ refusal, split uri = .error refusal) ↔ ¬Stands (authorityOf uri) := by
  constructor
  · rintro ⟨refusal, refused⟩ stands
    rw [split_of_stands stands] at refused
    cases refused
  · intro refused
    cases given : split uri with
    | error refusal => exact ⟨refusal, rfl⟩
    | ok parts => exact absurd (stands_of_split given) refused

/-! What stands in front of a separator. -/

theorem not_isDropped (stays : 32 < c.toNat) : isDropped c = false := by
  have apart {d : Char} (low : d.toNat ≤ 32) : c ≠ d := by
    rintro rfl
    omega
  simp [isDropped, apart (d := '\t') (by decide), apart (d := '\r') (by decide),
    apart (d := '\n') (by decide)]

theorem cleaned_append (stays : 32 < c.toNat) (before after : List Char) :
    cleaned (before ++ c :: after) = cleaned before ++ c :: after.filter (!isDropped ·) := by
  have kept : (c :: after).dropWhile (fun d => d.toNat ≤ 32) = c :: after :=
    List.dropWhile_cons_of_neg (by simpa using stays)
  have front : (before ++ c :: after).dropWhile (fun d => d.toNat ≤ 32) =
      before.dropWhile (fun d => d.toNat ≤ 32) ++ c :: after := by
    rw [List.dropWhile_append]
    split
    · next nothing => rw [List.isEmpty_iff.mp nothing, kept, List.nil_append]
    · rfl
  rw [cleaned, front, List.filter_append, List.filter_cons_of_pos (by simp [not_isDropped stays])]
  rfl

/-- A scheme does not reach past a character that can stand in none. -/
theorem splitScheme_append (other : isSchemeChar c = false) (apart : c ≠ ':')
    (before after : List Char) :
    splitScheme (before ++ c :: after) =
      ((splitScheme before).1, (splitScheme before).2 ++ c :: after) := by
  cases cuts : Text.cut ':' before with
  | mk scheme rest =>
    cases rest with
    | some rest =>
      simp only [splitScheme, cuts, Text.cut_append_of_cut cuts]
      split <;> rfl
    | none =>
      obtain ⟨absent, _⟩ := Text.not_mem_of_cut cuts
      cases further : Text.cut ':' after with
      | mk more rest =>
        have beyond : Text.cut ':' (c :: after) = (c :: more, rest) := by
          rw [Text.cut, if_neg apart, further]
        simp only [splitScheme, cuts, Text.cut_append_of_not_mem absent, beyond]
        cases rest with
        | none => rfl
        | some rest => exact if_neg (by simp [other])

theorem splitAuthority_of_alone (alone : ∀ more, uri ≠ '/' :: '/' :: more) :
    splitAuthority uri = ([], uri) :=
  splitAuthority.eq_2 uri alone

/-- An authority ends in front of the first character that ends authorities. -/
theorem splitAuthority_slashes (ends : endsAuthority c = true) (before after : List Char) :
    splitAuthority ('/' :: '/' :: (before ++ c :: after)) =
      ((splitAuthority ('/' :: '/' :: before)).1,
        (splitAuthority ('/' :: '/' :: before)).2 ++ c :: after) := by
  show (_, _) = (before.takeWhile (!endsAuthority ·), before.dropWhile (!endsAuthority ·) ++ c :: after)
  induction before with
  | nil => simp [ends]
  | cons d rest ih =>
    simp only [Prod.mk.injEq] at ih ⊢
    cases stops : endsAuthority d with
    | true => simp [stops]
    | false => simpa [stops] using ih

theorem splitAuthority_append (ends : endsAuthority c = true) (apart : c ≠ '/')
    (before after : List Char) :
    splitAuthority (before ++ c :: after) =
      ((splitAuthority before).1, (splitAuthority before).2 ++ c :: after) := by
  by_cases slashes : ∃ more, before = '/' :: '/' :: more
  · obtain ⟨more, rfl⟩ := slashes
    exact splitAuthority_slashes ends more after
  · have alone : ∀ more, before ≠ '/' :: '/' :: more := fun more shape => slashes ⟨more, shape⟩
    rw [splitAuthority_of_alone alone, splitAuthority_of_alone]
    intro more shape
    match before with
    | [] => exact apart (List.cons.inj shape).1
    | [first] => exact apart (List.cons.inj (List.cons.inj shape).2).1
    | first :: second :: rest =>
      simp only [List.cons_append, List.cons.injEq] at shape
      exact alone rest (by rw [shape.1, shape.2.1])

theorem front_append (begins : c = '?' ∨ c = '#') (before after : List Char) :
    schemeOf (before ++ c :: after) = schemeOf before ∧
      authorityOf (before ++ c :: after) = authorityOf before ∧
      tailOf (before ++ c :: after) = tailOf before ++ c :: after.filter (!isDropped ·) := by
  have stays : 32 < c.toNat := by rcases begins with rfl | rfl <;> decide
  have other : isSchemeChar c = false := by rcases begins with rfl | rfl <;> decide
  have colon : c ≠ ':' := by rcases begins with rfl | rfl <;> decide
  have ends : endsAuthority c = true := by rcases begins with rfl | rfl <;> decide
  have slash : c ≠ '/' := by rcases begins with rfl | rfl <;> decide
  simp only [schemeOf, authorityOf, tailOf, cleaned_append stays, splitScheme_append other colon,
    splitAuthority_append ends slash, and_self]

theorem mem_of_mem_splitScheme (member : c ∈ (splitScheme uri).2) : c ∈ uri := by
  unfold splitScheme at member
  split at member
  · next scheme rest cuts =>
    split at member
    · rw [(Text.of_cut cuts).2]
      exact List.mem_append_right _ (List.mem_cons_of_mem _ member)
    · exact member
  · exact member

theorem mem_of_mem_splitAuthority (member : c ∈ (splitAuthority uri).2) : c ∈ uri := by
  unfold splitAuthority at member
  split at member
  · next rest =>
    have inside := (List.dropWhile_suffix _).mem member
    exact List.mem_cons_of_mem _ (List.mem_cons_of_mem _ inside)
  · exact member

theorem mem_of_mem_tailOf (member : c ∈ tailOf uri) : c ∈ uri := by
  have cleans := mem_of_mem_splitScheme (mem_of_mem_splitAuthority member)
  exact (List.dropWhile_suffix _).mem (List.mem_filter.mp cleans).1

end JsonApi.Uri
