import JsonApi.Proofs.Building.Steps
import JsonApi.Proofs.Store.Soundness
import Mathlib.Data.List.Induction

/-!
The life of an identifier in a store. Whatever is reserved and registered, and in whatever order, an
identifier is first absent, then perhaps reserved, and settled with the first instance that is
registered for it other than its placeholder. Main statement: after any calls, and any further calls
after those, what each identifier stands for is decided by the first calls that concern it.
-/

namespace JsonApi

inductive Call where
  | reserve (item : Instance)
  | register (item : Instance)

namespace Call

def item : Call → Instance
  | .reserve item => item
  | .register item => item

def isReserve : Call → Bool
  | .reserve _ => true
  | .register _ => false

def identifier (call : Call) : Identifier := call.item.identifier

def perform : Call → Build Identifier
  | .reserve item => Build.reserve item
  | .register item => Build.register item

def leave (w : Workspace) (call : Call) : Workspace :=
  match call.perform w with
  | .ok _ left => left
  | .error _ left => left

/-- The state after calls on a new store. Calls that fail do not keep later ones from being made. -/
def after (calls : List Call) : Workspace := calls.foldl leave .empty

/-- The first registered instance of an identifier that is another one than its placeholder. -/
def firstOther (identifier : Identifier) (placeholder : Instance) : List Call → Option Instance
  | [] => none
  | .reserve _ :: rest => firstOther identifier placeholder rest
  | .register item :: rest =>
    if item.identifier = identifier ∧ placeholder.serial ≠ item.serial then some item
    else firstOther identifier placeholder rest

/-- The lasting identifiers that calls mention, each where it is mentioned first. -/
def mentioned (calls : List Call) : List Identifier :=
  ((calls.map identifier).filter Identifier.isPersisted).eraseDups

end Call

namespace Store

def change (s : Store) : Call → Store
  | .reserve item => if item.identifier.isPersisted then s.hold item else s
  | .register item => if item.identifier.isPersisted then s.keep item else s

/-- What calls may make of a store. No key goes and no two keys change places; what is reserved gives
way once, to the first other instance; what is not reserved stays, and is found as before. -/
structure Evolves (s : Store) (calls : List Call) (later : Store) : Prop where
  grows : s.identifiers <+: later.identifiers
  yields : ∀ identifier placeholder, s.get? identifier = some placeholder →
    identifier ∈ s.reserved →
    later.get? identifier =
        some ((Call.firstOther identifier placeholder calls).getD placeholder) ∧
      (identifier ∈ later.reserved ↔ Call.firstOther identifier placeholder calls = none)
  stays : ∀ identifier item, s.get? identifier = some item → identifier ∉ s.reserved →
    later.get? identifier = some item ∧ identifier ∉ later.reserved
  finds : ∀ identifier item, s.find? identifier = some item → item.identifier ∉ s.reserved →
    later.find? identifier = some item

end Store

namespace Call

theorem perform_of_persisted (w : Workspace) (call : Call)
    (persisted : call.identifier.isPersisted = true) :
    ∃ left, call.perform w = .ok call.identifier left ∧ left.store = w.store.change call := by
  cases call with
  | reserve item =>
    refine ⟨_, (Build.reserve_eq item w).trans (if_pos persisted), ?_⟩
    exact (if_pos persisted).symm
  | register item =>
    refine ⟨_, (Build.register_eq item w).trans (if_pos persisted), ?_⟩
    exact (if_pos persisted).symm

theorem perform_of_new (w : Workspace) (call : Call)
    (new : call.identifier.isPersisted = false) :
    ∃ left, call.perform w = .error (.breach (.unstorable call.identifier)) left ∧
      left.store = w.store := by
  have refused : ¬call.identifier.isPersisted = true := Bool.eq_false_iff.mp new
  cases call with
  | reserve item => exact ⟨_, (Build.reserve_eq item w).trans (if_neg refused), rfl⟩
  | register item => exact ⟨_, (Build.register_eq item w).trans (if_neg refused), rfl⟩

theorem change_of_new (s : Store) (call : Call) (new : call.identifier.isPersisted = false) :
    s.change call = s := by
  have refused : ¬call.identifier.isPersisted = true := Bool.eq_false_iff.mp new
  cases call with
  | reserve item => exact if_neg refused
  | register item => exact if_neg refused

/-- A call about a lasting identifier holds a place for it or keeps an instance, and any other call
does nothing. -/
theorem change_cases (s : Store) (call : Call) :
    (call.identifier.isPersisted = false ∧ s.change call = s) ∨
      (∃ item, call = .reserve item ∧ item.identifier.isPersisted = true ∧
        s.change call = s.hold item) ∨
      ∃ item, call = .register item ∧ item.identifier.isPersisted = true ∧
        s.change call = s.keep item := by
  cases persisted : call.identifier.isPersisted with
  | false => exact Or.inl ⟨rfl, change_of_new s call persisted⟩
  | true =>
    cases call with
    | reserve item => exact Or.inr (Or.inl ⟨item, rfl, persisted, if_pos persisted⟩)
    | register item => exact Or.inr (Or.inr ⟨item, rfl, persisted, if_pos persisted⟩)

theorem store_leave (w : Workspace) (call : Call) : (leave w call).store = w.store.change call := by
  cases persisted : call.identifier.isPersisted with
  | true =>
    obtain ⟨left, run, changed⟩ := perform_of_persisted w call persisted
    simp only [leave, run, changed]
  | false =>
    obtain ⟨left, run, same⟩ := perform_of_new w call persisted
    simp only [leave, run, same, change_of_new _ call persisted]

theorem store_foldl (calls : List Call) (w : Workspace) :
    (calls.foldl leave w).store = calls.foldl Store.change w.store := by
  induction calls generalizing w with
  | nil => rfl
  | cons call rest ih => rw [List.foldl_cons, List.foldl_cons, ih, store_leave]

theorem mentioned_concat (calls : List Call) (call : Call) :
    mentioned (calls ++ [call]) =
      if call.identifier.isPersisted = true ∧ call.identifier ∉ mentioned calls then
        mentioned calls ++ [call.identifier]
      else mentioned calls := by
  unfold mentioned
  rw [List.map_append, List.filter_append, List.eraseDups_append]
  cases persisted : call.identifier.isPersisted with
  | false => simp [persisted]
  | true =>
    generalize (calls.map identifier).filter Identifier.isPersisted = earlier
    by_cases known : call.identifier ∈ earlier <;>
      simp [persisted, List.removeAll, known, List.eraseDups_cons]

end Call

namespace Store

variable {s : Store} {identifier : Identifier} {item : Instance}

theorem identifiers_change (s : Store) (call : Call) :
    (s.change call).identifiers =
      if call.identifier.isPersisted = true ∧ call.identifier ∉ s.identifiers then
        s.identifiers ++ [call.identifier]
      else s.identifiers := by
  rcases Call.change_cases s call with
    ⟨new, same⟩ | ⟨item, rfl, lasting, held⟩ | ⟨item, rfl, lasting, kept⟩
  · simp [same, new]
  · rw [held, identifiers_hold]
    by_cases known : item.identifier ∈ s.identifiers <;>
      simp [Call.identifier, Call.item, known, lasting]
  · rw [kept, identifiers_keep]
    by_cases known : item.identifier ∈ s.identifiers <;>
      simp [Call.identifier, Call.item, known, lasting]

theorem grows_change (s : Store) (call : Call) : s.identifiers <+: (s.change call).identifiers := by
  rw [identifiers_change]
  split
  · exact List.prefix_append _ _
  · exact List.prefix_rfl

theorem sound_change (sound : s.Sound) (call : Call) : (s.change call).Sound := by
  rcases Call.change_cases s call with ⟨_, same⟩ | ⟨item, _, lasting, held⟩ | ⟨item, _, lasting, kept⟩
  · rwa [same]
  · rw [held]
    exact sound_hold sound lasting
  · rw [kept]
    exact sound_keep sound lasting

theorem stays_change (found : s.get? identifier = some item) (settled : identifier ∉ s.reserved)
    (call : Call) :
    (s.change call).get? identifier = some item ∧ identifier ∉ (s.change call).reserved := by
  rcases Call.change_cases s call with ⟨_, same⟩ | ⟨other, _, _, held⟩ | ⟨other, _, _, kept⟩
  · rw [same]
    exact ⟨found, settled⟩
  · rw [held]
    refine ⟨get?_hold_of_get? found other, fun member => settled ?_⟩
    rcases mem_reserved_hold member with before | ⟨rfl, absent⟩
    · exact before
    · rw [found] at absent
      cases absent
  · rw [kept]
    refine ⟨?_, fun member => settled (mem_of_mem_reserved_keep member)⟩
    by_cases same : other.identifier = identifier
    · subst same
      rw [keep_of_settled found settled]
      exact found
    · rw [get?_keep_of_ne same]
      exact found

/-- A placeholder is not touched by reserving again, by registering it, or by calls that are about
something else. -/
theorem waits_change (found : s.get? identifier = some item) (waiting : identifier ∈ s.reserved)
    (call : Call) (harmless : Call.firstOther identifier item [call] = none) :
    (s.change call).get? identifier = some item ∧ identifier ∈ (s.change call).reserved := by
  rcases Call.change_cases s call with ⟨_, same⟩ | ⟨other, _, _, held⟩ | ⟨other, rfl, _, kept⟩
  · rw [same]
    exact ⟨found, waiting⟩
  · rw [held]
    exact ⟨get?_hold_of_get? found other, mem_reserved_hold_of_mem waiting other⟩
  · rw [kept]
    by_cases same : other.identifier = identifier
    · subst same
      have itself : item.serial = other.serial := by
        by_contra different
        simp [Call.firstOther, different] at harmless
      rw [keep_of_itself found itself]
      exact ⟨found, waiting⟩
    · rw [get?_keep_of_ne same]
      exact ⟨found, mem_reserved_keep_of_ne waiting (Ne.symm same)⟩

theorem yields_register (sound : s.Sound) (found : s.get? identifier = some item)
    (waiting : identifier ∈ s.reserved) {other : Instance} (same : other.identifier = identifier)
    (different : item.serial ≠ other.serial) :
    (s.change (.register other)).get? identifier = some other ∧
      identifier ∉ (s.change (.register other)).reserved := by
  subst same
  have lasting : other.identifier.isPersisted = true :=
    (sound.keyed _ (Entries.mem_of_get? found)).1
  have kept : s.change (.register other) = s.keep other := if_pos lasting
  rw [kept, keep_of_waiting found waiting different]
  simp [get?, Entries.get?_put]

theorem enters_change (sound : s.Sound) (call : Call)
    (persisted : call.identifier.isPersisted = true) (absent : s.get? call.identifier = none) :
    (s.change call).get? call.identifier = some call.item ∧
      (call.identifier ∈ (s.change call).reserved ↔ call.isReserve = true) := by
  have free : call.identifier ∉ s.reserved :=
    fun member => Entries.get?_eq_none.mp absent (sound.held _ member)
  rcases Call.change_cases s call with ⟨new, _⟩ | ⟨item, rfl, _, held⟩ | ⟨item, rfl, _, kept⟩
  · rw [persisted] at new
    cases new
  · rw [held]
    have missing : s.get? item.identifier = none := absent
    constructor
    · rw [get?_hold]
      exact if_pos ⟨rfl, missing⟩
    · simp [hold, missing, Call.isReserve, Call.identifier, Call.item]
  · have missing : s.get? item.identifier = none := absent
    rw [kept, keep_of_absent missing]
    constructor
    · exact (Entries.get?_put _ _ _ _).trans (if_pos rfl)
    · simpa [Call.isReserve] using free

theorem sound_foldl (sound : s.Sound) (calls : List Call) : (calls.foldl change s).Sound := by
  induction calls generalizing s with
  | nil => exact sound
  | cons call rest ih => exact ih (sound_change sound call)

theorem grows_foldl (s : Store) (calls : List Call) :
    s.identifiers <+: (calls.foldl change s).identifiers := by
  induction calls generalizing s with
  | nil => exact List.prefix_rfl
  | cons call rest ih => exact (grows_change s call).trans (ih (s.change call))

theorem stays_foldl (found : s.get? identifier = some item) (settled : identifier ∉ s.reserved)
    (calls : List Call) :
    (calls.foldl change s).get? identifier = some item ∧
      identifier ∉ (calls.foldl change s).reserved := by
  induction calls generalizing s with
  | nil => exact ⟨found, settled⟩
  | cons call rest ih =>
    obtain ⟨still, free⟩ := stays_change found settled call
    exact ih still free

/-- The induction is on the calls: up to the first other instance the placeholder waits, and from
there on what has taken its place stays. -/
theorem yields_foldl (sound : s.Sound) (found : s.get? identifier = some item)
    (waiting : identifier ∈ s.reserved) (calls : List Call) :
    (calls.foldl change s).get? identifier =
        some ((Call.firstOther identifier item calls).getD item) ∧
      (identifier ∈ (calls.foldl change s).reserved ↔
        Call.firstOther identifier item calls = none) := by
  induction calls generalizing s with
  | nil => exact ⟨found, by simpa [Call.firstOther] using waiting⟩
  | cons call rest ih =>
    cases call with
    | reserve other =>
      obtain ⟨still, reserved⟩ := waits_change found waiting (.reserve other) rfl
      exact ih (sound_change sound _) still reserved
    | register other =>
      by_cases replaces : other.identifier = identifier ∧ item.serial ≠ other.serial
      · obtain ⟨taken, free⟩ := yields_register sound found waiting replaces.1 replaces.2
        obtain ⟨last, unreserved⟩ := stays_foldl taken free rest
        simp only [Call.firstOther, if_pos replaces, List.foldl_cons]
        exact ⟨last, by simpa using unreserved⟩
      · obtain ⟨still, reserved⟩ := waits_change found waiting (.register other)
          (by simp only [Call.firstOther, if_neg replaces])
        simp only [Call.firstOther, if_neg replaces, List.foldl_cons]
        exact ih (sound_change sound _) still reserved

theorem evolves_foldl (sound : s.Sound) (calls : List Call) :
    s.Evolves calls (calls.foldl change s) where
  grows := grows_foldl s calls
  yields _ _ found waiting := yields_foldl sound found waiting calls
  stays _ _ found settled := stays_foldl found settled calls
  finds _ _ found settled :=
    find?_of_grows sound (grows_foldl s calls) found
      (stays_foldl (get?_of_find? sound found) settled calls).1

end Store

namespace Call

def stored (calls : List Call) : Store := (after calls).store

theorem stored_eq (calls : List Call) : stored calls = calls.foldl Store.change .empty :=
  store_foldl calls .empty

theorem sound_stored (calls : List Call) : (stored calls).Sound := by
  rw [stored_eq]
  exact Store.sound_foldl Store.sound_empty calls

theorem stored_append (before more : List Call) :
    stored (before ++ more) = more.foldl Store.change (stored before) := by
  rw [stored_eq, stored_eq, List.foldl_append]

/-- Identifiers stand in the order in which they were first mentioned. -/
theorem identifiers_stored (calls : List Call) : (stored calls).identifiers = mentioned calls := by
  induction calls using List.reverseRecOn with
  | nil => rfl
  | append_singleton before call ih =>
    rw [stored_append, List.foldl_cons, List.foldl_nil, Store.identifiers_change, ih,
      mentioned_concat]

end Call

/-- The life of every identifier in a store that starts out empty, over all calls, failing ones
among them: after some calls, at the next one, and after any more of them. -/
theorem Store.lifecycle (before more : List Call) (call : Call) :
    (Call.stored before).Sound ∧
      (Call.stored before).values.map Instance.identifier = Call.mentioned before ∧
      (Call.stored before).Evolves more (Call.stored (before ++ more)) ∧
      (call.identifier.isPersisted = true →
        (∃ left, call.perform (Call.after before) = .ok call.identifier left) ∧
          ((Call.stored before).get? call.identifier = none →
            (Call.stored (before ++ [call])).get? call.identifier = some call.item ∧
              (call.identifier ∈ (Call.stored (before ++ [call])).reserved ↔
                call.isReserve = true))) ∧
      (call.identifier.isPersisted = false →
        ∃ left, call.perform (Call.after before) =
            .error (.breach (.unstorable call.identifier)) left ∧
          left.store = Call.stored before) := by
  have sound := Call.sound_stored before
  refine ⟨sound, ?_, ?_, ?_, Call.perform_of_new _ call⟩
  · rw [identifiers_values sound, Call.identifiers_stored]
  · rw [Call.stored_append]
    exact evolves_foldl sound more
  · intro persisted
    obtain ⟨left, performed, _⟩ := Call.perform_of_persisted (Call.after before) call persisted
    refine ⟨⟨left, performed⟩, fun absent => ?_⟩
    rw [Call.stored_append, List.foldl_cons, List.foldl_nil]
    exact enters_change sound call persisted absent

end JsonApi
