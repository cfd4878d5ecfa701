import JsonApi.Building.Workspace

/-!
What the steps of a build do when they succeed, and what is left when they fail. Every later proof
about builds takes a run apart with these lemmas and looks at no step from the inside.
-/

namespace JsonApi

namespace Build

variable {α β : Type} {w w' : Workspace}

theorem bind_ok {first : Build α} {next : α → Build β} {b : β}
    (run : (first >>= next) w = .ok b w') :
    ∃ a between, first w = .ok a between ∧ next a between = .ok b w' := by
  simp only [bind, EStateM.bind] at run
  cases outcome : first w with
  | ok a between => exact ⟨a, between, rfl, by simpa only [outcome] using run⟩
  | error fault between => simp [outcome] at run

theorem bind_of_ok {first : Build α} {next : α → Build β} {a : α} (run : first w = .ok a w') :
    (first >>= next) w = next a w' := by
  simp only [bind, EStateM.bind, run]

theorem bind_of_error {first : Build α} {next : α → Build β} {fault : Fault}
    (failed : first w = .error fault w') : (first >>= next) w = .error fault w' := by
  simp only [bind, EStateM.bind, failed]

/-- A run of two steps fails in the first, or in the second from the state that the first leaves. -/
theorem bind_error {first : Build α} {next : α → Build β} {fault : Fault}
    (failed : (first >>= next) w = .error fault w') :
    first w = .error fault w' ∨
      ∃ a between, first w = .ok a between ∧ next a between = .error fault w' := by
  cases outcome : first w with
  | ok a between =>
    rw [bind_of_ok outcome] at failed
    exact Or.inr ⟨a, between, rfl, failed⟩
  | error fault' between =>
    rw [bind_of_error outcome] at failed
    cases failed
    exact Or.inl rfl

theorem pure_ok {a b : α} (run : (pure a : Build α) w = .ok b w') : b = a ∧ w' = w := by
  cases run
  exact ⟨rfl, rfl⟩

theorem fail_ne_ok (fault : Fault) {a : α} : (fail fault : Build α) w ≠ .ok a w' := by
  intro run
  cases run

theorem ofExcept_ok {result : Except Fault α} {a : α} (run : ofExcept result w = .ok a w') :
    result = .ok a ∧ w = w' := by
  cases result with
  | ok b =>
    obtain ⟨rfl, rfl⟩ := pure_ok run
    exact ⟨rfl, rfl⟩
  | error fault => exact absurd run (fail_ne_ok fault)

theorem record_ok {level : Level} {message : String} {a : Unit}
    (run : record level message w = .ok a w') : w'.store = w.store ∧ w'.serial = w.serial := by
  cases run
  exact ⟨rfl, rfl⟩

theorem ofOutcome_ok {o : Outcome α} {a : α} (run : ofOutcome o w = .ok a w') :
    o.result = .ok a ∧ w'.store = w.store ∧ w'.serial = w.serial := by
  obtain ⟨_, between, written, rest⟩ := bind_ok run
  cases written
  cases result : o.result with
  | ok b =>
    simp only [result] at rest
    obtain ⟨rfl, rfl⟩ := pure_ok rest
    exact ⟨rfl, rfl, rfl⟩
  | error fault =>
    simp only [result] at rest
    cases rest

theorem create_ok {resource : Resource} {item : Instance} (run : create resource w = .ok item w') :
    item = ⟨w.serial, resource⟩ ∧ w'.store = w.store ∧ w'.serial = w.serial + 1 := by
  cases run
  exact ⟨rfl, rfl, rfl⟩

theorem stored?_ok {identifier : Identifier} {found : Option Instance}
    (run : stored? identifier w = .ok found w') :
    found = w.store.find? identifier ∧ w' = w := by
  unfold stored? at run
  split at run
  · cases run
    exact ⟨rfl, rfl⟩
  · exact absurd run (fail_ne_ok .wrongType)

def refusing (w : Workspace) (item : Instance) : Workspace :=
  let fault := Fault.breach (.unstorable item.identifier)
  { w with records := w.records ++ fault.record?.toList }

theorem reserve_eq (item : Instance) (w : Workspace) :
    reserve item w =
      if item.identifier.isPersisted then
        .ok item.identifier { w with store := w.store.hold item }
      else .error (.breach (.unstorable item.identifier)) (refusing w item) := by
  by_cases persisted : item.identifier.isPersisted = true
  · simp only [persisted, if_true]
    simp only [reserve, Store.reserve, Store.accept, persisted, if_true]
    rfl
  · simp only [persisted]
    simp only [reserve, Store.reserve, Store.accept, persisted]
    rfl

theorem register_eq (item : Instance) (w : Workspace) :
    register item w =
      if item.identifier.isPersisted then
        .ok item.identifier
          { w with
            store := w.store.keep item
            records := w.records ++ (w.store.remark? item).toList }
      else .error (.breach (.unstorable item.identifier)) (refusing w item) := by
  by_cases persisted : item.identifier.isPersisted = true
  · simp only [persisted, if_true]
    simp only [register, Store.register, Store.accept, persisted, if_true]
    rfl
  · simp only [persisted]
    simp only [register, Store.register, Store.accept, persisted]
    rfl

theorem reserve_ok {item : Instance} {identifier : Identifier}
    (run : reserve item w = .ok identifier w') :
    item.identifier.isPersisted = true ∧ w'.store = w.store.hold item ∧ w'.serial = w.serial := by
  rw [reserve_eq] at run
  split at run
  next persisted =>
    cases run
    exact ⟨persisted, rfl, rfl⟩
  next => cases run

theorem register_ok {item : Instance} {identifier : Identifier}
    (run : register item w = .ok identifier w') :
    identifier = item.identifier ∧ item.identifier.isPersisted = true ∧
      w'.store = w.store.keep item ∧ w'.serial = w.serial := by
  rw [register_eq] at run
  split at run
  next persisted =>
    cases run
    exact ⟨rfl, persisted, rfl, rfl⟩
  next => cases run

theorem run_ok {build : Build α} {a : α}
    (answer : (build.run w).result = .ok (a, w')) : build w = .ok a w' := by
  simp only [run, EStateM.run] at answer
  cases outcome : build w with
  | ok b between =>
    simp only [outcome] at answer
    cases answer
    rfl
  | error fault between => simp [outcome] at answer

theorem run_error {build : Build α} {fault : Fault} (answer : (build.run w).result = .error fault) :
    ∃ left, build w = .error fault left := by
  simp only [run, EStateM.run] at answer
  cases outcome : build w with
  | ok a between => simp [outcome] at answer
  | error fault' between =>
    simp only [outcome] at answer
    cases answer
    exact ⟨between, rfl⟩

end Build

namespace Outcome

variable {α β : Type}

theorem bind_ok {o : Outcome α} {next : α → Outcome β} {b : β}
    (answer : (o >>= next).result = .ok b) : ∃ a, o.result = .ok a ∧ (next a).result = .ok b := by
  simp only [bind] at answer
  cases outcome : o.result with
  | ok a => exact ⟨a, rfl, by simpa only [outcome] using answer⟩
  | error fault => simp [outcome] at answer

theorem bind_error {o : Outcome α} {next : α → Outcome β} {fault : Fault}
    (failed : (o >>= next).result = .error fault) :
    o.result = .error fault ∨ ∃ a, o.result = .ok a ∧ (next a).result = .error fault := by
  simp only [bind] at failed
  cases outcome : o.result with
  | ok a => exact Or.inr ⟨a, rfl, by simpa only [outcome] using failed⟩
  | error fault' =>
    simp only [outcome] at failed
    cases failed
    exact Or.inl rfl

theorem ofExcept_ok {result : Except Fault α} {a : α}
    (answer : (ofExcept result).result = .ok a) : result = .ok a := by
  cases result with
  | ok b => exact answer
  | error fault => cases answer

theorem ofExcept_error {result : Except Fault α} {fault : Fault}
    (failed : (ofExcept result).result = .error fault) : result = .error fault := by
  cases result with
  | ok b => cases failed
  | error fault' => exact failed

theorem exists_ok {o : Outcome α} {test : α → Bool}
    (passes : o.result.toOption.any test = true) : ∃ a, o.result = .ok a ∧ test a = true := by
  cases outcome : o.result with
  | ok a => exact ⟨a, rfl, by simpa [outcome, Except.toOption] using passes⟩
  | error fault => simp [outcome, Except.toOption] at passes

end Outcome

end JsonApi
