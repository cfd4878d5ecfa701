import JsonApi.Identifier.Sameness
import JsonApi.Model
import Mathlib.Logic.Relation

/-!
Walks through a family of models, depth first: what is reached through the relationships that a
request includes, each identifier once. Nothing is built on the way. Main statements: a walk ends,
walks compose, and what has been visited at the end is closed under the relationships that were
followed, told apart by identifiers, and reached from where the walk started.
-/

namespace JsonApi.Walk

def identifierAt (family : List Model) (place : Nat) : Option Identifier :=
  (modelAt family place).identifier.result.toOption

def relationsAt (family : List Model) (place : Nat) : Option (List (String × Related)) :=
  (modelAt family place).relations.result.toOption.map (·.getD [])

/-- Where the relationships lead that a request includes, in order. -/
def followed (query : Query) (relations : List (String × Related)) : List Nat :=
  relations.flatMap fun relation => if query.includes relation.1 then relation.2.targets else []

/-- The first visited place whose identifier means the same. -/
def standIn? (family : List Model) (visited : List Nat) (identifier : Identifier) : Option Nat :=
  visited.find? fun place => (identifierAt family place).any (·.isSame identifier)

theorem identifierAt_of_result {family : List Model} {place : Nat} {identifier : Identifier}
    (answer : (modelAt family place).identifier.result = .ok identifier) :
    identifierAt family place = some identifier := by
  rw [identifierAt, answer]
  rfl

theorem result_of_identifierAt {family : List Model} {place : Nat} {identifier : Identifier}
    (given : identifierAt family place = some identifier) :
    (modelAt family place).identifier.result = .ok identifier := by
  cases answer : (modelAt family place).identifier.result with
  | ok written =>
    rw [identifierAt_of_result answer] at given
    exact congrArg Except.ok (Option.some.inj given)
  | error fault =>
    rw [identifierAt, answer] at given
    cases given

theorem relationsAt_of_result {family : List Model} {place : Nat}
    {told : Option (List (String × Related))}
    (answer : (modelAt family place).relations.result = .ok told) :
    relationsAt family place = some (told.getD []) := by
  rw [relationsAt, answer]
  rfl

theorem like_of_standIn? {family : List Model} {visited : List Nat} {identifier : Identifier}
    {other : Nat} (stands : standIn? family visited identifier = some other) :
    other ∈ visited ∧
      ∃ like, identifierAt family other = some like ∧ like.isSame identifier = true :=
  have same := List.find?_some stands
  ⟨List.mem_of_find?_eq_some stands, (Option.any_eq_true _ _).mp same⟩

theorem modelAt_of_length_le {family : List Model} {place : Nat} (outside : family.length ≤ place) :
    modelAt family place = .none := by
  rw [modelAt, List.getElem?_eq_none outside, Option.getD_none]

theorem identifierAt_lt {family : List Model} {place : Nat} {identifier : Identifier}
    (given : identifierAt family place = some identifier) : place < family.length := by
  apply Nat.lt_of_not_le
  intro outside
  rw [identifierAt, modelAt_of_length_le outside] at given
  cases given

theorem relationsAt_lt {family : List Model} {place : Nat} {relations : List (String × Related)}
    (told : relationsAt family place = some relations) : place < family.length := by
  apply Nat.lt_of_not_le
  intro outside
  rw [relationsAt, modelAt_of_length_le outside] at told
  cases told

theorem standIn?_isSome_of_mem {family : List Model} {visited : List Nat} {place : Nat}
    {identifier : Identifier} (member : place ∈ visited)
    (given : identifierAt family place = some identifier) :
    (standIn? family visited identifier).isSome = true := by
  rw [standIn?, List.find?_isSome]
  exact ⟨place, member, by simp [given, Identifier.isSame_refl]⟩

def unvisited (family : List Model) (visited : List Nat) : List Nat :=
  (List.range family.length).filter (· ∉ visited)

theorem length_unvisited_lt {family : List Model} {visited : List Nat} {place : Nat}
    (inside : place < family.length) (fresh : place ∉ visited) :
    (unvisited family (visited ++ [place])).length < (unvisited family visited).length := by
  have fewer : unvisited family (visited ++ [place]) =
      (unvisited family visited).filter (· ≠ place) := by
    unfold unvisited
    rw [List.filter_filter]
    apply List.filter_congr
    intro other _
    simp [and_comm]
  have member : place ∈ unvisited family visited :=
    List.mem_filter.mpr ⟨List.mem_range.mpr inside, by simpa using fresh⟩
  rw [fewer]
  exact List.length_filter_lt_length_iff_exists.mpr ⟨place, member, by simp⟩

/-- The places visited on a walk through those on the stack, after those visited before. It fails
where a model does not tell its identifier or, when it is visited, its relationships. -/
def walk? (query : Query) (family : List Model) : List Nat → List Nat → Option (List Nat)
  | [], visited => some visited
  | place :: rest, visited =>
    match given : identifierAt family place with
    | none => none
    | some identifier =>
      if known : (standIn? family visited identifier).isSome then walk? query family rest visited
      else
        have := length_unvisited_lt (identifierAt_lt given)
          fun member => known (standIn?_isSome_of_mem member given)
        match relationsAt family place with
        | none => none
        | some relations =>
          walk? query family (followed query relations ++ rest) (visited ++ [place])
termination_by stack visited => ((unvisited family visited).length, stack.length)
decreasing_by
  · exact Prod.Lex.right _ (Nat.lt_succ_self _)
  · apply Prod.Lex.left
    assumption

variable {query : Query} {family : List Model} {stack visited later : List Nat} {place : Nat}
  {identifier : Identifier} {relations : List (String × Related)}

theorem walk?_nil : walk? query family [] visited = some visited := by
  rw [walk?]

theorem walk?_cons (query : Query) (family : List Model) (place : Nat) (rest visited : List Nat) :
    walk? query family (place :: rest) visited =
      (identifierAt family place).bind fun identifier =>
        if (standIn? family visited identifier).isSome then walk? query family rest visited
        else (relationsAt family place).bind fun relations =>
          walk? query family (followed query relations ++ rest) (visited ++ [place]) := by
  rw [walk?]
  split
  next missing =>
    rw [missing]
    rfl
  next identifier given =>
    simp only [given, Option.bind_some]
    split
    · rfl
    · cases relationsAt family place <;> rfl

/-- The rules of a walk that ends with `later`: what is known is passed by, and what is not is visited
before the places that its relationships lead to. -/
inductive Walked (query : Query) (family : List Model) (later : List Nat) :
    List Nat → List Nat → Prop where
  | done : Walked query family later [] later
  | pass {place : Nat} {rest visited : List Nat} {identifier : Identifier}
    (given : identifierAt family place = some identifier)
    (known : (standIn? family visited identifier).isSome = true)
    (walked : Walked query family later rest visited) :
    Walked query family later (place :: rest) visited
  | visit {place : Nat} {rest visited : List Nat} {identifier : Identifier}
    {relations : List (String × Related)} (given : identifierAt family place = some identifier)
    (fresh : standIn? family visited identifier = none)
    (told : relationsAt family place = some relations)
    (walked : Walked query family later (followed query relations ++ rest) (visited ++ [place])) :
    Walked query family later (place :: rest) visited

theorem walked_of_walk? (walked : walk? query family stack visited = some later) :
    Walked query family later stack visited := by
  fun_induction walk? query family stack visited with
  | case1 visited =>
    cases walked
    exact .done
  | case2 => cases walked
  | case3 visited place rest identifier given known ih => exact .pass given known (ih walked)
  | case4 => cases walked
  | case5 visited place rest identifier given known _ relations told ih =>
    exact .visit given (Option.not_isSome_iff_eq_none.mp known) told (ih walked)

theorem walk?_of_walked (walked : Walked query family later stack visited) :
    walk? query family stack visited = some later := by
  induction walked with
  | done => exact walk?_nil
  | pass given known _ ih => rwa [walk?_cons, given, Option.bind_some, if_pos known]
  | visit given fresh told _ ih =>
    rwa [walk?_cons, given, Option.bind_some, fresh, if_neg (by simp), told, Option.bind_some]

theorem walk?_eq_some_iff :
    walk? query family stack visited = some later ↔ Walked query family later stack visited :=
  ⟨walked_of_walk?, walk?_of_walked⟩

theorem Walked.append {between : List Nat} {others : List Nat}
    (first : Walked query family between stack visited)
    (second : Walked query family later others between) :
    Walked query family later (stack ++ others) visited := by
  induction first with
  | done => exact second
  | pass given known _ ih => exact .pass given known ih
  | visit given fresh told _ ih =>
    refine .visit given fresh told ?_
    rwa [List.append_eq, ← List.append_assoc]

theorem Walked.grows (walked : Walked query family later stack visited) : visited <+: later := by
  induction walked with
  | done => exact List.prefix_rfl
  | pass _ _ _ ih => exact ih
  | visit _ _ _ _ ih => exact (List.prefix_append _ _).trans ih

theorem standIn?_grows {other : Nat} (grows : visited <+: later)
    (found : standIn? family visited identifier = some other) :
    standIn? family later identifier = some other :=
  grows.find?_eq_some found

theorem standIn?_isSome_grows (grows : visited <+: later)
    (known : (standIn? family visited identifier).isSome = true) :
    (standIn? family later identifier).isSome = true := by
  obtain ⟨other, found⟩ := Option.isSome_iff_exists.mp known
  rw [standIn?_grows grows found]
  rfl

/-- A visited place of which no earlier one gives an identifier that means the same. -/
theorem standIn?_of_fresh (given : identifierAt family place = some identifier)
    (fresh : standIn? family visited identifier = none) (rest : List Nat) :
    standIn? family (visited ++ place :: rest) identifier = some place := by
  unfold standIn? at fresh ⊢
  rw [List.find?_append, fresh, Option.none_or, List.find?_cons_of_pos]
  simp [given, Identifier.isSame_refl]

def Known (family : List Model) (visited : List Nat) (place : Nat) : Prop :=
  ∃ identifier, identifierAt family place = some identifier ∧
    (standIn? family visited identifier).isSome = true

theorem Walked.known (walked : Walked query family later stack visited) :
    ∀ place ∈ stack, Known family later place := by
  induction walked with
  | done => simp
  | pass given known walked ih =>
    intro place member
    rcases List.mem_cons.mp member with rfl | further
    · exact ⟨_, given, standIn?_isSome_grows walked.grows known⟩
    · exact ih place further
  | visit given fresh _ walked ih =>
    intro place member
    rcases List.mem_cons.mp member with rfl | further
    · have found := standIn?_grows walked.grows (standIn?_of_fresh given fresh [])
      exact ⟨_, given, by rw [found]; rfl⟩
    · exact ih place (List.mem_append_right _ further)

/-- What has been visited is closed under the relationships that were followed: whatever they lead to
is known at the end of the walk. -/
theorem Walked.closed (walked : Walked query family later stack visited) :
    ∀ place ∈ later, place ∈ visited ∨ ∃ relations, relationsAt family place = some relations ∧
      ∀ target ∈ followed query relations, Known family later target := by
  induction walked with
  | done => exact fun place member => Or.inl member
  | pass _ _ _ ih => exact ih
  | visit given fresh told walked ih =>
    intro place member
    rcases ih place member with before | further
    · rcases List.mem_append.mp before with earlier | here
      · exact Or.inl earlier
      · rw [List.mem_singleton.mp here]
        refine Or.inr ⟨_, told, fun target leads => ?_⟩
        exact walked.known target (List.mem_append_left _ leads)
    · exact Or.inr further

theorem Walked.stands_of_leads {target : Nat} (walked : Walked query family later stack [])
    (member : place ∈ later) (told : relationsAt family place = some relations)
    (led : target ∈ followed query relations) (given : identifierAt family target = some identifier) :
    ∃ other, standIn? family later identifier = some other := by
  rcases walked.closed place member with nowhere | ⟨relations', told', closed⟩
  · cases nowhere
  rw [told] at told'
  cases told'
  obtain ⟨identifier', given', known⟩ := closed target led
  rw [given] at given'
  cases given'
  exact Option.isSome_iff_exists.mp known

/-- No two visited places give identifiers that mean the same. -/
def Apart (family : List Model) (visited : List Nat) : Prop :=
  visited.Pairwise fun earlier place => ∀ one other, identifierAt family earlier = some one →
    identifierAt family place = some other → one.isSame other = false

theorem Walked.apart (walked : Walked query family later stack visited)
    (apart : Apart family visited) : Apart family later := by
  induction walked with
  | done => exact apart
  | pass _ _ _ ih => exact ih apart
  | visit given fresh _ _ ih =>
    refine ih (List.pairwise_append.mpr ⟨apart, List.pairwise_singleton _ _, ?_⟩)
    intro earlier member place here one other gives tells
    rw [List.mem_singleton.mp here, given] at tells
    cases tells
    have different := List.find?_eq_none.mp fresh earlier member
    simpa [gives] using different

theorem standIn?_of_mem (apart : Apart family visited) (member : place ∈ visited)
    (given : identifierAt family place = some identifier) :
    standIn? family visited identifier = some place := by
  obtain ⟨before, after, rfl⟩ := List.append_of_mem member
  apply standIn?_of_fresh given
  apply List.find?_eq_none.mpr
  intro earlier early
  have different := (List.pairwise_append.mp apart).2.2 earlier early place List.mem_cons_self
  cases gives : identifierAt family earlier with
  | none => simp
  | some one => simp [different one identifier gives given]

def Leads (query : Query) (family : List Model) (place target : Nat) : Prop :=
  ∃ relations, relationsAt family place = some relations ∧ target ∈ followed query relations

/-- Whatever is visited on a walk is reached from where it starts, by way of visited places. -/
theorem Walked.reached (walked : Walked query family later stack visited) :
    ∀ place ∈ later, place ∈ visited ∨ ∃ start ∈ stack, start ∈ later ∧
      Relation.ReflTransGen (fun one other => Leads query family one other ∧ one ∈ later ∧
        other ∈ later) start place := by
  induction walked with
  | done => exact fun place member => Or.inl member
  | pass _ _ _ ih =>
    intro place member
    rcases ih place member with before | ⟨start, further, visited, path⟩
    · exact Or.inl before
    · exact Or.inr ⟨start, List.mem_cons_of_mem _ further, visited, path⟩
  | @visit first _ earlier _ relations given fresh told walked ih =>
    have present : first ∈ later :=
      walked.grows.subset (List.mem_append_right _ (List.mem_singleton_self _))
    intro place member
    rcases ih place member with before | ⟨start, further, visited, path⟩
    · rcases List.mem_append.mp before with early | here
      · exact Or.inl early
      · rw [List.mem_singleton.mp here]
        exact Or.inr ⟨first, List.mem_cons_self, present, .refl⟩
    · refine Or.inr ?_
      rcases List.mem_append.mp further with led | rest
      · exact ⟨first, List.mem_cons_self, present,
          .head ⟨⟨relations, told, led⟩, present, visited⟩ path⟩
      · exact ⟨start, List.mem_cons_of_mem _ rest, visited, path⟩

end JsonApi.Walk

namespace JsonApi

/-- A model that tells where it leads to and nothing else. -/
def Model.leading (kind id : String) (relations : List (String × Related)) : Model where
  isResourceful := true
  kind := pure (.text kind)
  identifier := pure (.existing (.text kind) id)
  attributes := pure .absent
  relations := pure (some relations)
  info := pure Option.none

end JsonApi
