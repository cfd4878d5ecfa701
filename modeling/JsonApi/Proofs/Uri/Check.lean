import JsonApi.Proofs.Uri.Authority
import JsonApi.Proofs.Uri.Grammar

/-!
The references that can stand as links. Main statements: they are well formed, and absolute or paths from
the root, but for those that lead to a host without a scheme or have an authority without a host; and
every well-formed path from the root can stand as a link.
-/

namespace JsonApi.Uri

open Query (LetterOrDigit)

variable {uri authority host rest : List Char}

structure IsScheme (text : List Char) : Prop where
  first : ∃ c rest, text = c :: rest ∧ (('a' ≤ c ∧ c ≤ 'z') ∨ ('A' ≤ c ∧ c ≤ 'Z'))
  inside : ∀ c ∈ text, LetterOrDigit c ∨ c = '+' ∨ c = '-' ∨ c = '.'

/-- An authority and what stands behind it: nothing, or a path, a query or a fragment. -/
structure Leads (authority rest : List Char) : Prop where
  inside : ∀ c ∈ authority, c ≠ '/' ∧ c ≠ '?' ∧ c ≠ '#'
  behind : ∀ c more, rest = c :: more → c = '/' ∨ c = '?' ∨ c = '#'

def Absolute (uri authority host : List Char) : Prop :=
  ∃ scheme rest, IsScheme scheme ∧ Leads authority rest ∧ Names authority host ∧
    uri = scheme ++ ':' :: '/' :: '/' :: (authority ++ rest)

def RootedPath (uri : List Char) : Prop := ∃ rest, uri = '/' :: rest ∧ rest.head? ≠ some '/'

/-- An authority under the scheme of whoever follows the reference. -/
def NetworkPath (uri : List Char) : Prop :=
  ∃ authority host rest, Leads authority rest ∧ Names authority host ∧
    uri = '/' :: '/' :: (authority ++ rest)

structure Passes (uri : List Char) : Prop where
  formed : WellFormed uri
  stands : Stands (authorityOf uri)
  port : checkPort (authorityOf uri) = .ok ()
  host : schemeOf uri ≠ [] → authorityOf uri ≠ []
  rooted : schemeOf uri = [] → uri.head? = some '/'

theorem ite_some_eq_none {condition : Prop} [Decidable condition] {flaw : Flaw} {later : Option Flaw} :
    (if condition then some flaw else later) = none ↔ ¬condition ∧ later = none := by
  by_cases holds : condition
  · simp [holds]
  · simp [holds]

theorem flaw?_eq_none_iff : flaw? uri = none ↔ Passes uri := by
  rw [flaw?, ite_some_eq_none, ite_some_eq_none]
  constructor
  · rintro ⟨characters, escapes, later⟩
    have formed : WellFormed uri := by
      rw [wellFormed_iff]
      exact ⟨by simpa using fun bad => characters (Or.inr bad), by simpa using escapes⟩
    have stands : Stands (authorityOf uri) := by
      by_contra refused
      obtain ⟨refusal, fails⟩ := exists_error_iff.mpr refused
      rw [fails] at later
      cases later
    rw [split_of_stands stands] at later
    have port : checkPort (partsOf uri).authority = .ok () := by
      cases checks : checkPort (partsOf uri).authority with
      | ok => rfl
      | error refusal => simp [checks] at later
    simp only [port, ite_some_eq_none] at later
    obtain ⟨host, rooted, _⟩ := later
    exact ⟨formed, stands, port, fun scheme hostless => host ⟨scheme, hostless⟩,
      fun scheme => not_not.mp fun other => rooted ⟨scheme, other⟩⟩
  · intro passes
    have present : uri ≠ [] := by
      rintro rfl
      exact absurd (passes.rooted rfl) (by decide)
    obtain ⟨characters, escapes⟩ := wellFormed_iff.mp passes.formed
    have port : checkPort (partsOf uri).authority = .ok () := passes.port
    refine ⟨by simp [present, characters], by simp [escapes], ?_⟩
    simp only [split_of_stands passes.stands, port, ite_some_eq_none]
    exact ⟨fun bad => passes.host bad.1 bad.2, fun bad => bad.2 (passes.rooted bad.1), trivial⟩

theorem check_eq_ok_iff {uri link : String} : check uri = .ok link ↔ link = uri ∧ Passes uri.toList := by
  rw [← flaw?_eq_none_iff, check]
  cases flaw? uri.toList <;> simp [eq_comm]

theorem check_of_flaw? {uri : String} (flawless : flaw? uri.toList = none) : check uri = .ok uri :=
  check_eq_ok_iff.mpr ⟨rfl, flaw?_eq_none_iff.mp flawless⟩

theorem cleaned_of_wellFormed (formed : WellFormed uri) : cleaned uri = uri := by
  have allowed := List.all_eq_true.mp (wellFormed_iff.mp formed).1
  have stays : ∀ c ∈ uri, 32 < c.toNat := fun c member => toNat_of_isUriChar (allowed c member)
  have front : uri.dropWhile (fun c => c.toNat ≤ 32) = uri := by
    cases uri with
    | nil => rfl
    | cons c rest => exact List.dropWhile_cons_of_neg (by simpa using stays c List.mem_cons_self)
  rw [cleaned, front, List.filter_eq_self]
  intro c member
  simp [not_isDropped (stays c member)]

/-! The shape of a reference. -/

theorem isScheme_iff {text : List Char} :
    IsScheme text ↔ text.head?.any Char.isAlpha = true ∧ text.all isSchemeChar = true := by
  have letter (c : Char) : c.isAlpha = true ↔ ('a' ≤ c ∧ c ≤ 'z') ∨ ('A' ≤ c ∧ c ≤ 'Z') := by
    have alpha : c.isAlpha = (decide ('A'.val ≤ c.val ∧ c.val ≤ 'Z'.val) ||
        (decide ('a'.val ≤ c.val) && decide (c.val ≤ 'z'.val))) := rfl
    simp only [alpha, Bool.or_eq_true, Bool.and_eq_true, decide_eq_true_eq, Char.le_def]
    exact or_comm
  have inside (c : Char) : isSchemeChar c = true ↔ LetterOrDigit c ∨ c = '+' ∨ c = '-' ∨ c = '.' := by
    have plain : c.isAlphanum = true ↔ LetterOrDigit c := Query.isTokenEnd_iff
    simp only [isSchemeChar, Bool.or_eq_true, plain, decide_eq_true_eq, or_assoc]
  simp only [Option.any_eq_true, List.head?_eq_some_iff, List.all_eq_true, letter, inside]
  constructor
  · rintro ⟨⟨c, rest, shape, first⟩, inside⟩
    exact ⟨⟨c, ⟨rest, shape⟩, first⟩, inside⟩
  · rintro ⟨⟨c, ⟨rest, shape⟩, first⟩, inside⟩
    exact ⟨⟨c, rest, shape, first⟩, inside⟩

theorem IsScheme.ne_slash {scheme : List Char} (isScheme : IsScheme scheme) (more rest : List Char) :
    scheme ++ more ≠ '/' :: rest := by
  obtain ⟨c, further, rfl, letter⟩ := isScheme.first
  intro shape
  obtain ⟨rfl, _⟩ := List.cons.inj shape
  exact absurd letter (by decide)

/-- A scheme ends in front of the first colon, and a reference without one is all behind it. -/
theorem splitScheme_cases (uri : List Char) :
    splitScheme uri = ([], uri) ∨ ∃ scheme rest, IsScheme scheme ∧ uri = scheme ++ ':' :: rest ∧
      splitScheme uri = (scheme.map Char.toLower, rest) := by
  unfold splitScheme
  split
  · next scheme rest cuts =>
    split
    · next given => exact Or.inr ⟨scheme, rest, isScheme_iff.mpr given, (Text.of_cut cuts).2, rfl⟩
    · exact Or.inl rfl
  · exact Or.inl rfl

theorem leads_span (rest : List Char) :
    Leads (rest.takeWhile (!endsAuthority ·)) (rest.dropWhile (!endsAuthority ·)) where
  inside := by
    intro c member
    have inside : endsAuthority c = false := by
      simpa using List.all_eq_true.mp List.all_takeWhile c member
    simpa [endsAuthority, and_assoc] using inside
  behind := by
    intro c more shape
    have stops := List.head?_dropWhile_not (!endsAuthority ·) rest
    have ends : endsAuthority c = true := by simpa [shape] using stops
    simpa [endsAuthority, or_assoc] using ends

theorem splitAuthority_cases (uri : List Char) :
    (splitAuthority uri = ([], uri) ∧ ∀ more, uri ≠ '/' :: '/' :: more) ∨
      ∃ authority rest, Leads authority rest ∧ uri = '/' :: '/' :: (authority ++ rest) ∧
        splitAuthority uri = (authority, rest) := by
  by_cases slashes : ∃ more, uri = '/' :: '/' :: more
  · obtain ⟨more, rfl⟩ := slashes
    refine Or.inr ⟨_, _, leads_span more, ?_, rfl⟩
    rw [List.takeWhile_append_dropWhile]
  · have alone : ∀ more, uri ≠ '/' :: '/' :: more := fun more shape => slashes ⟨more, shape⟩
    exact Or.inl ⟨splitAuthority_of_alone alone, alone⟩

/-- What passes is a path from the root or has an authority, and a scheme does not come without one. -/
theorem shape_of_passes (passes : Passes uri) :
    RootedPath uri ∨ NetworkPath uri ∨ ∃ authority host, Absolute uri authority host ∧ authority ≠ [] := by
  have cleans := cleaned_of_wellFormed passes.formed
  obtain ⟨host, names⟩ := exists_names passes.stands.brackets passes.port
  have present := passes.host
  have rooted := passes.rooted
  rw [schemeOf, cleans] at present rooted
  rw [authorityOf, cleans] at present names
  rcases splitScheme_cases uri with none | ⟨scheme, rest, isScheme, whole, splits⟩
  · -- Without a scheme a slash comes first, and a second one behind it begins an authority.
    rw [none] at rooted names
    obtain ⟨rest, whole⟩ := List.head?_eq_some_iff.mp (rooted rfl)
    rcases splitAuthority_cases uri with ⟨_, alone⟩ | ⟨authority, rest, leads, whole, splits⟩
    · refine Or.inl ⟨rest, whole, fun slash => ?_⟩
      obtain ⟨more, shape⟩ := List.head?_eq_some_iff.mp slash
      exact alone more (by rw [whole, shape])
    · rw [splits] at names
      exact Or.inr (Or.inl ⟨authority, host, rest, leads, names, whole⟩)
  · rw [splits] at present names
    have nonempty : scheme.map Char.toLower ≠ [] := by
      obtain ⟨c, more, rfl, _⟩ := isScheme.first
      exact List.cons_ne_nil _ _
    rcases splitAuthority_cases rest with ⟨alone, _⟩ | ⟨authority, rest, leads, behind, splits⟩
    · rw [alone] at present
      exact absurd rfl (present nonempty)
    · rw [splits] at present names
      have absolute : Absolute uri authority host :=
        ⟨scheme, rest, isScheme, leads, names, by rw [whole, behind]⟩
      exact Or.inr (Or.inr ⟨authority, host, absolute, present nonempty⟩)

theorem passes_of_rootedPath (formed : WellFormed uri) (path : RootedPath uri) : Passes uri := by
  have cleans := cleaned_of_wellFormed formed
  obtain ⟨rest, rfl, single⟩ := path
  have scheme : splitScheme ('/' :: rest) = ([], '/' :: rest) := by
    rcases splitScheme_cases ('/' :: rest) with plain | ⟨scheme, more, isScheme, whole, _⟩
    · exact plain
    · exact absurd whole.symm (isScheme.ne_slash _ _)
  have authority : splitAuthority ('/' :: rest) = ([], '/' :: rest) := by
    apply splitAuthority_of_alone
    intro more shape
    exact single (by rw [(List.cons.inj shape).2]; rfl)
  have hostless : authorityOf ('/' :: rest) = [] := by rw [authorityOf, cleans, scheme, authority]
  have schemeless : schemeOf ('/' :: rest) = [] := by rw [schemeOf, cleans, scheme]
  refine ⟨formed, ?_, ?_, fun given => absurd schemeless given, fun _ => rfl⟩
  · rw [hostless]
    exact ⟨rfl, rfl⟩
  · rw [hostless]
    rfl

theorem IsScheme.splitScheme {scheme : List Char} (isScheme : IsScheme scheme) (rest : List Char) :
    splitScheme (scheme ++ ':' :: rest) = (scheme.map Char.toLower, rest) := by
  have given := isScheme_iff.mp isScheme
  have absent : ':' ∉ scheme := fun member =>
    absurd (List.all_eq_true.mp given.2 ':' member) (by decide)
  unfold Uri.splitScheme
  rw [Text.cut_append absent]
  exact if_pos given

theorem Leads.splitAuthority (leads : Leads authority rest) :
    splitAuthority ('/' :: '/' :: (authority ++ rest)) = (authority, rest) := by
  have inside : ∀ c ∈ authority, (!endsAuthority c) = true := by
    intro c member
    simpa [endsAuthority, and_assoc] using leads.inside c member
  rw [splitAuthority.eq_1, List.takeWhile_append_of_pos inside, List.dropWhile_append_of_pos inside]
  cases rest with
  | nil => simp
  | cons c more =>
    have ends : endsAuthority c = true := by
      simpa [endsAuthority, or_assoc] using leads.behind c more rfl
    rw [List.takeWhile_cons_of_neg (by simp [ends]), List.dropWhile_cons_of_neg (by simp [ends]),
      List.append_nil]

/-- There is only one way to find the authority of an absolute reference. -/
theorem Absolute.authorityOf_eq (formed : WellFormed uri) (absolute : Absolute uri authority host) :
    authorityOf uri = authority := by
  obtain ⟨scheme, rest, isScheme, leads, _, whole⟩ := absolute
  rw [authorityOf, cleaned_of_wellFormed formed, whole, isScheme.splitScheme, leads.splitAuthority]

theorem Absolute.names (absolute : Absolute uri authority host) : Names authority host := by
  obtain ⟨_, _, _, _, names, _⟩ := absolute
  exact names

theorem Absolute.host_eq {host' : List Char} (formed : WellFormed uri)
    (absolute : Absolute uri authority host) (names : Names (authorityOf uri) host') : host = host' := by
  rw [absolute.authorityOf_eq formed] at names
  exact absolute.names.unique names

/-- What can stand as a link is the well-formed reference itself, and it is absolute with a host, or a path
from the root, unless it leads to an authority without naming a scheme, or its authority has no host. A
port is left out or exists in all of these. -/
theorem check_shape {uri link : String} (checks : check uri = .ok link) :
    link = uri ∧ WellFormed uri.toList ∧
      ((∃ authority host, Absolute uri.toList authority host ∧ host ≠ []) ∨ RootedPath uri.toList ∨
        NetworkPath uri.toList ∨ ∃ authority, Absolute uri.toList authority [] ∧ authority ≠ []) := by
  obtain ⟨same, passes⟩ := check_eq_ok_iff.mp checks
  refine ⟨same, passes.formed, ?_⟩
  rcases shape_of_passes passes with path | path | ⟨authority, host, absolute, present⟩
  · exact Or.inr (Or.inl path)
  · exact Or.inr (Or.inr (Or.inl path))
  · by_cases hostless : host = []
    · exact Or.inr (Or.inr (Or.inr ⟨authority, hostless ▸ absolute, present⟩))
    · exact Or.inl ⟨authority, host, absolute, hostless⟩

theorem loopback_shape :
    check "https://me@[::1]:8080/a%20b?c#d" = .ok "https://me@[::1]:8080/a%20b?c#d" ∧
      ∃ authority host, Absolute "https://me@[::1]:8080/a%20b?c#d".toList authority host ∧ host ≠ [] := by
  have checks : check "https://me@[::1]:8080/a%20b?c#d" = .ok "https://me@[::1]:8080/a%20b?c#d" :=
    check_of_flaw? (by decide +kernel)
  have port : IsPort [':', '8', '0', '8', '0'] := Or.inr ⟨_, rfl, by decide⟩
  have located : Located ['[', ':', ':', '1', ']'] [':', '8', '0', '8', '0'] :=
    @Located.bracketed [':', ':', '1'] _ (Or.inl (by decide +kernel)) (by decide) port
  have names : Names (authorityOf "https://me@[::1]:8080/a%20b?c#d".toList) ['[', ':', ':', '1', ']'] :=
    ⟨['m', 'e', '@'], [':', '8', '0', '8', '0'], by decide +kernel, Or.inr ⟨['m', 'e'], rfl⟩, located,
      by decide⟩
  obtain ⟨_, formed, shape⟩ := check_shape checks
  refine ⟨checks, ?_⟩
  rcases shape with absolute | ⟨rest, path, _⟩ | ⟨authority, host, rest, _, _, path⟩ | ⟨authority, absolute, _⟩
  · exact absolute
  · cases path
  · cases path
  · exact absurd (absolute.host_eq formed names) (List.cons_ne_nil _ _).symm

/-- A reference to a host under no scheme and one to a port of no host can stand as links, though they
are neither absolute references with a host nor paths from the root. -/
theorem hostless_checks :
    (check "//host/x" = .ok "//host/x" ∧
      ¬((∃ authority host, Absolute "//host/x".toList authority host ∧ host ≠ []) ∨
        RootedPath "//host/x".toList)) ∧
    check "http://:80/" = .ok "http://:80/" ∧
      ¬((∃ authority host, Absolute "http://:80/".toList authority host ∧ host ≠ []) ∨
        RootedPath "http://:80/".toList) := by
  refine ⟨⟨check_of_flaw? (by decide +kernel), ?_⟩, check_of_flaw? (by decide +kernel), ?_⟩
  · rintro (⟨authority, host, ⟨scheme, rest, isScheme, _, _, whole⟩, _⟩ | ⟨rest, whole, single⟩)
    · exact isScheme.ne_slash _ _ whole.symm
    · cases whole
      exact single rfl
  · rintro (⟨authority, host, absolute, present⟩ | ⟨rest, whole, single⟩)
    · have port : IsPort [':', '8', '0'] := Or.inr ⟨_, rfl, by decide⟩
      have names : Names (authorityOf "http://:80/".toList) [] :=
        ⟨[], [':', '8', '0'], by decide +kernel, Or.inl rfl, .name List.not_mem_nil List.not_mem_nil port, by decide⟩
      exact present (absolute.host_eq (by decide +kernel) names)
    · cases whole

end JsonApi.Uri
