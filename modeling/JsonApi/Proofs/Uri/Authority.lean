import JsonApi.Proofs.Uri.Split

/-!
What an authority is made of. Main statements: one whose brackets and port are in order consists of user
information, a host and a port, where the user information and the port may be left out, and there is only
one way to read it so.
-/

namespace JsonApi.Uri

variable {authority host digits : List Char}

def numeral (digits : List Char) : Nat := digits.foldl (fun n c => 10 * n + (c.toNat - 48)) 0

structure IsPortNumber (digits : List Char) : Prop where
  decimal : ∀ c ∈ digits, '0' ≤ c ∧ c ≤ '9'
  bounded : numeral digits ≤ 65535

instance (digits : List Char) : Decidable (IsPortNumber digits) :=
  decidable_of_iff ((digits.all fun c => '0' ≤ c ∧ c ≤ '9') = true ∧ numeral digits ≤ 65535)
    ⟨fun parts => ⟨by simpa using parts.1, parts.2⟩,
      fun number => ⟨by simpa using number.decimal, number.bounded⟩⟩

def IsPort (text : List Char) : Prop := text = [] ∨ ∃ digits, text = ':' :: digits ∧ IsPortNumber digits

def IsUser (text : List Char) : Prop := text = [] ∨ ∃ front, text = front ++ ['@']

def IsAddress (text : List Char) : Prop := isVersion6 text = true ∨ isFutureVersion text = true

/-- A host is a name or an address in brackets, and a port stands behind it. The closing bracket may be
missing if there is no port: one in the user information is taken for it. -/
inductive Located : List Char → List Char → Prop
  | name {host port : List Char} (unbracketed : '[' ∉ host) (ends : ':' ∉ host) (isPort : IsPort port) :
      Located host port
  | bracketed {address port : List Char} (isAddress : IsAddress address) (ends : ']' ∉ address)
      (isPort : IsPort port) : Located ('[' :: (address ++ [']'])) port
  | unclosed {address : List Char} (isAddress : IsAddress address) (opens : ']' ∉ address) :
      Located ('[' :: address) []

/-- The authority consists of user information, this host and a port. -/
def Names (authority host : List Char) : Prop :=
  ∃ user port, authority = user ++ (host ++ port) ∧ IsUser user ∧ Located host port ∧ '@' ∉ host ++ port

theorem ite_error_eq_ok {ε : Type} {condition : Prop} [Decidable condition] {refusal : ε}
    {later : Except ε Unit} :
    (if condition then .error refusal else later) = .ok () ↔ ¬condition ∧ later = .ok () := by
  by_cases holds : condition
  · simp [holds]
  · simp [holds]

theorem isPortNumber_of_checkPort (checks : checkPort authority = .ok ()) :
    IsPortNumber (portText authority) := by
  by_cases absent : portText authority = []
  · rw [absent]
    decide
  · simp only [checkPort, if_neg absent, ite_error_eq_ok] at checks
    obtain ⟨digits, _, bound, _⟩ := checks
    refine ⟨fun c member => ?_, Nat.le_of_not_lt bound⟩
    have digit : c.isDigit = true := by
      simp only [Bool.not_eq_true, Bool.not_eq_false', List.all_eq_true] at digits
      exact digits c member
    simpa [Char.isDigit, Char.le_def] using digit

theorem isAddress_of_checkAddress (checks : checkAddress host = .ok ()) : IsAddress host := by
  by_cases future : isFutureVersion host = true
  · exact Or.inr future
  · by_cases marked : host.head? = some 'v'
    · simp [checkAddress, marked, future] at checks
    · rw [checkAddress, if_neg marked, ite_error_eq_ok] at checks
      obtain ⟨_, checks⟩ := checks
      split at checks
      · next version6 => exact Or.inl version6
      · cases checks

/-- An opening bracket stands in front, and behind the closing one there is nothing or a port. -/
theorem bracketed_of_checkBrackets {before bracketed : List Char}
    (checks : checkBrackets authority = .ok ())
    (cuts : Text.cut '[' (hostAndPort authority) = (before, some bracketed)) :
    before = [] ∧ IsAddress (Text.cut ']' bracketed).1 ∧
      ((Text.cut ']' bracketed).2.getD [] = [] ∨
        ((Text.cut ']' bracketed).2.getD []).head? = some ':') := by
  have opens : '[' ∈ authority := by
    obtain ⟨user, whole, _⟩ := Text.of_afterLast '@' authority
    rw [whole]
    apply List.mem_append_right
    rw [← hostAndPort, (Text.of_cut cuts).2]
    exact List.mem_append_right _ List.mem_cons_self
  by_cases paired : '[' ∈ authority ∧ ']' ∈ authority
  · simp only [checkBrackets, if_pos paired, cuts, ite_error_eq_ok] at checks
    obtain ⟨front, behind, address⟩ := checks
    exact ⟨Decidable.not_not.mp front, isAddress_of_checkAddress address,
      Decidable.or_iff_not_not_and_not.mpr behind⟩
  · rw [checkBrackets, if_neg paired, if_pos (Or.inl opens)] at checks
    cases checks

/-- Behind an opening bracket there is an address up to the closing one, and a port behind that. -/
theorem exists_located_bracketed {bracketed : List Char} (checks : checkBrackets authority = .ok ())
    (number : IsPortNumber (portText authority))
    (cuts : Text.cut '[' (hostAndPort authority) = ([], some bracketed)) :
    ∃ host port, hostAndPort authority = host ++ port ∧ Located host port := by
  obtain ⟨_, isAddress, behind⟩ := bracketed_of_checkBrackets checks cuts
  have whole : hostAndPort authority = '[' :: bracketed := (Text.of_cut cuts).2
  cases closes : Text.cut ']' bracketed with
  | mk address after =>
    rw [closes] at isAddress behind
    cases after with
    | none =>
      obtain ⟨opens, rfl⟩ := Text.not_mem_of_cut closes
      exact ⟨'[' :: address, [], by rw [whole, List.append_nil], .unclosed isAddress opens⟩
    | some after =>
      obtain ⟨ends, rfl⟩ := Text.of_cut closes
      refine ⟨'[' :: (address ++ [']']), after, ?_, .bracketed isAddress ends ?_⟩
      · rw [whole, List.cons_append, List.append_assoc, List.singleton_append]
      · rcases behind with nothing | colon
        · exact Or.inl nothing
        · obtain ⟨digits, rfl⟩ := List.head?_eq_some_iff.mp colon
          have text : portText authority = digits := by
            simp only [portText, cuts, closes]
            rfl
          exact Or.inr ⟨digits, rfl, text ▸ number⟩

/-- Without an opening bracket, the first colon ends the host. -/
theorem exists_located_name {rest : List Char} (number : IsPortNumber (portText authority))
    (cuts : Text.cut '[' (hostAndPort authority) = (rest, none)) :
    ∃ host port, hostAndPort authority = host ++ port ∧ Located host port := by
  obtain ⟨unbracketed, _⟩ := Text.not_mem_of_cut cuts
  have text : portText authority = (Text.cut ':' (hostAndPort authority)).2.getD [] := by
    simp only [portText, cuts]
  cases parts : Text.cut ':' (hostAndPort authority) with
  | mk name digits =>
    rw [parts] at text
    cases digits with
    | none =>
      obtain ⟨ends, rfl⟩ := Text.not_mem_of_cut parts
      exact ⟨_, [], (List.append_nil _).symm, .name unbracketed ends (Or.inl rfl)⟩
    | some digits =>
      obtain ⟨ends, whole⟩ := Text.of_cut parts
      rw [whole, List.mem_append, not_or] at unbracketed
      have isPort : IsPort (':' :: digits) := Or.inr ⟨digits, rfl, text.subst number⟩
      exact ⟨name, ':' :: digits, whole, .name unbracketed.1 ends isPort⟩

/-- An authority that may stand, with a port that may stand, names a host. -/
theorem exists_names (brackets : checkBrackets authority = .ok ()) (port : checkPort authority = .ok ()) :
    ∃ host, Names authority host := by
  have number := isPortNumber_of_checkPort port
  obtain ⟨user, whole, isUser⟩ := Text.of_afterLast '@' authority
  have single : '@' ∉ hostAndPort authority := Text.not_mem_afterLast '@' authority
  have parts : ∃ host port, hostAndPort authority = host ++ port ∧ Located host port := by
    cases cuts : Text.cut '[' (hostAndPort authority) with
    | mk before bracketed =>
      cases bracketed with
      | none => exact exists_located_name number cuts
      | some bracketed =>
        obtain ⟨rfl, _⟩ := bracketed_of_checkBrackets brackets cuts
        exact exists_located_bracketed brackets number cuts
  obtain ⟨host, port, shape, located⟩ := parts
  exact ⟨host, user, port, by rw [← shape]; exact whole, isUser, located, shape ▸ single⟩

/-! There is only one way to read an authority. -/

theorem cut_of_isPort (ends : ':' ∉ host) {port : List Char} (isPort : IsPort port) :
    (Text.cut ':' (host ++ port)).1 = host := by
  rcases isPort with rfl | ⟨digits, rfl, _⟩
  · rw [List.append_nil, Text.cut_of_not_mem ends]
  · rw [Text.cut_append ends]

theorem append_ne_bracket (unbracketed : '[' ∉ host) {port : List Char} (isPort : IsPort port)
    (rest : List Char) : host ++ port ≠ '[' :: rest := by
  intro shape
  cases host with
  | nil =>
    rcases isPort with rfl | ⟨digits, rfl, _⟩
    · cases shape
    · exact absurd (List.cons.inj shape).1 (by decide)
  | cons c more =>
    obtain ⟨rfl, _⟩ := List.cons.inj shape
    exact unbracketed List.mem_cons_self

theorem Located.unique {port host' port' : List Char} (located : Located host port)
    (located' : Located host' port') (same : host ++ port = host' ++ port') : host = host' := by
  -- The bracket in front and the one behind tell the three readings apart, so only like ones can meet.
  cases located with
  | name unbracketed ends isPort =>
    cases located' with
    | name _ ends' isPort' => rw [← cut_of_isPort ends isPort, same, cut_of_isPort ends' isPort']
    | bracketed => exact absurd same (append_ne_bracket unbracketed isPort _)
    | unclosed => exact absurd same (append_ne_bracket unbracketed isPort _)
  | @bracketed address port isAddress ends isPort =>
    cases located' with
    | name unbracketed _ isPort' => exact absurd same.symm (append_ne_bracket unbracketed isPort' _)
    | @bracketed address' port' _ ends' _ =>
      have inside : address ++ ']' :: port = address' ++ ']' :: port' := by simpa using same
      have cuts := Text.cut_append ends port
      rw [inside, Text.cut_append ends'] at cuts
      rw [(Prod.mk.inj cuts).1]
    | @unclosed address' _ opens =>
      have inside : address ++ ']' :: port = address' := by simpa using same
      exact absurd (inside ▸ List.mem_append_right _ List.mem_cons_self) opens
  | @unclosed address isAddress opens =>
    cases located' with
    | name unbracketed _ isPort' => exact absurd same.symm (append_ne_bracket unbracketed isPort' _)
    | @bracketed address' port' _ _ _ =>
      have inside : address = address' ++ ']' :: port' := by simpa using same
      exact absurd (inside ▸ List.mem_append_right _ List.mem_cons_self) opens
    | unclosed => simpa using same

theorem hostAndPort_append {user rest : List Char} (isUser : IsUser user) (single : '@' ∉ rest) :
    hostAndPort (user ++ rest) = rest := by
  rcases isUser with rfl | ⟨front, rfl⟩
  · exact Text.afterLast_of_not_mem single
  · rw [hostAndPort, List.append_assoc, List.singleton_append, Text.afterLast_append single]

theorem Names.unique {host' : List Char} (names : Names authority host) (names' : Names authority host') :
    host = host' := by
  obtain ⟨user, port, whole, isUser, located, single⟩ := names
  obtain ⟨user', port', whole', isUser', located', single'⟩ := names'
  apply located.unique located'
  rw [← hostAndPort_append isUser single, ← whole, whole', hostAndPort_append isUser' single']

end JsonApi.Uri
