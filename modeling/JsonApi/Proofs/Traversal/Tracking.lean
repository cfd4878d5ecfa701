import JsonApi.Building.Resource
import JsonApi.Proofs.Building.Steps
import JsonApi.Proofs.Paired
import JsonApi.Proofs.Store.Soundness
import JsonApi.Proofs.Traversal.Depiction

/-!
A build goes along a walk. Its store holds one entry for each visited place, in the order of the
visits: the full resource, or a placeholder as long as the identifier is reserved. Main statement: if
this holds before the resource of a model is built, it holds afterwards of the places that a walk
from there visits, and neither the entries that were there nor what is reserved has changed.
-/

namespace JsonApi.Walk

variable {γ : Type} [Uri.Layout γ] {plan : Plan γ} {visited later : List Nat} {w w' : Workspace}
  {place : Nat} {identifier : Identifier} {item : Instance}

/-- What a store holds for a visited place, under the identifier that the model gives: the full
resource once it is not reserved. Later visits make no difference to it. -/
structure Held (plan : Plan γ) (visited : List Nat) (reserved : List Identifier) (serial : Nat)
    (place : Nat) (entry : Identifier × Instance) : Prop where
  given : identifierAt plan.family place = some entry.1
  own : entry.2.identifier = entry.1
  older : entry.2.serial < serial
  full : entry.1 ∉ reserved → ∀ final, visited <+: final →
    resource? plan (spelled plan.family final) place = some entry.2.resource

structure Tracks (plan : Plan γ) (visited : List Nat) (w : Workspace) : Prop where
  held : List.Forall₂ (Held plan visited w.store.reserved w.serial) visited w.store.entries
  apart : w.store.identifiers.Pairwise fun one other => one.isSame other = false
  sound : w.store.Sound

/-- What a build as a whole does to its state: it adds entries at the end. -/
structure Grows (w w' : Workspace) : Prop where
  entries : w.store.entries <+: w'.store.entries
  reserved : w'.store.reserved = w.store.reserved
  serial : w.serial ≤ w'.serial

structure Advances (plan : Plan γ) (places visited later : List Nat) (w w' : Workspace) : Prop where
  walked : Walked plan.query plan.family later places visited
  tracks : Tracks plan later w'
  grows : Grows w w'

theorem Held.mono {reserved reserved' : List Identifier} {serial serial' : Nat}
    {entry : Identifier × Instance} (held : Held plan visited reserved serial place entry)
    (grows : visited <+: later) (older : serial ≤ serial')
    (fewer : entry.1 ∉ reserved' → entry.1 ∉ reserved) :
    Held plan later reserved' serial' place entry where
  given := held.given
  own := held.own
  older := Nat.lt_of_lt_of_le held.older older
  full settled final further := held.full (fewer settled) final (grows.trans further)

theorem Grows.trans {between : Workspace} (first : Grows w between) (second : Grows between w') :
    Grows w w' where
  entries := first.entries.trans second.entries
  reserved := second.reserved.trans first.reserved
  serial := Nat.le_trans first.serial second.serial

theorem Grows.find? (grows : Grows w w') (found : w.store.find? identifier = some item) :
    w'.store.find? identifier = some item := by
  obtain ⟨entry, first, rfl⟩ := Option.map_eq_some_iff.mp found
  exact Option.map_eq_some_iff.mpr ⟨entry, grows.entries.find?_eq_some first, rfl⟩

theorem Grows.of_eq (store : w'.store = w.store) (serial : w.serial ≤ w'.serial) : Grows w w' :=
  ⟨store ▸ List.prefix_rfl, store ▸ rfl, serial⟩

theorem Tracks.of_eq (tracks : Tracks plan visited w) (store : w'.store = w.store)
    (serial : w.serial ≤ w'.serial) : Tracks plan visited w' where
  held := by
    rw [store]
    exact tracks.held.imp fun _ _ held => held.mono List.prefix_rfl serial id
  apart := store ▸ tracks.apart
  sound := store ▸ tracks.sound

theorem Advances.nil (tracks : Tracks plan visited w) (store : w'.store = w.store)
    (serial : w'.serial = w.serial) : Advances plan [] visited visited w w' :=
  have older : w.serial ≤ w'.serial := Nat.le_of_eq serial.symm
  ⟨.done, tracks.of_eq store older, .of_eq store older⟩

theorem Advances.append {between : Workspace} {places others middle : List Nat}
    (first : Advances plan places visited middle w between)
    (second : Advances plan others middle later between w') :
    Advances plan (places ++ others) visited later w w' :=
  ⟨first.walked.append second.walked, second.tracks, first.grows.trans second.grows⟩

theorem Tracks.nodup (tracks : Tracks plan visited w) : w.store.identifiers.Nodup := by
  refine tracks.apart.imp ?_
  rintro one other different rfl
  rw [one.isSame_refl] at different
  cases different

/-- The store finds what stands for an identifier among the visited places. -/
theorem Tracks.rel_standIn? (tracks : Tracks plan visited w) (identifier : Identifier) :
    Option.Rel (Held plan visited w.store.reserved w.serial)
      (standIn? plan.family visited identifier)
      (w.store.entries.find? fun entry => entry.1.isSame identifier) :=
  Paired.rel_find? tracks.held fun place entry held => by simp [held.given]

theorem Tracks.standIn?_eq_none (tracks : Tracks plan visited w)
    (absent : w.store.find? identifier = none) :
    standIn? plan.family visited identifier = none := by
  have related := tracks.rel_standIn? identifier
  rw [Option.map_eq_none_iff.mp absent] at related
  cases found : standIn? plan.family visited identifier with
  | none => rfl
  | some place =>
    rw [found] at related
    cases related

theorem Tracks.standIn?_of_find? (tracks : Tracks plan visited w)
    (found : w.store.find? identifier = some item) :
    ∃ place, standIn? plan.family visited identifier = some place ∧
      Held plan visited w.store.reserved w.serial place (item.identifier, item) := by
  have related := tracks.rel_standIn? identifier
  obtain ⟨⟨key, _⟩, first, rfl⟩ := Option.map_eq_some_iff.mp found
  rw [first] at related
  cases stands : standIn? plan.family visited identifier with
  | none =>
    rw [stands] at related
    cases related
  | some place =>
    rw [stands] at related
    cases related with
    | some held =>
      have own := held.own
      simp only at own
      subst own
      exact ⟨place, rfl, held⟩

/-- Identifiers are written as the instances write them that stand for them. -/
theorem Tracks.spelled_of_find? (tracks : Tracks plan visited w)
    (found : w.store.find? identifier = some item) {final : List Nat} (grows : visited <+: final) :
    spelled plan.family final identifier = item.identifier := by
  obtain ⟨place, stands, held⟩ := tracks.standIn?_of_find? found
  rw [spelled, standIn?_grows grows stands, Option.bind_some, held.given, Option.getD_some]

/-- A place that nothing stands for yet is visited by reserving its identifier. -/
theorem Tracks.reserve (tracks : Tracks plan visited w) (item : Instance)
    (given : identifierAt plan.family place = some item.identifier)
    (absent : w.store.find? item.identifier = none)
    (persisted : item.identifier.isPersisted = true) (older : item.serial < w'.serial)
    (serial : w.serial ≤ w'.serial) (store : w'.store = w.store.hold item) :
    w'.store.entries = w.store.entries ++ [(item.identifier, item)] ∧
      w'.store.reserved = w.store.reserved ++ [item.identifier] ∧
      Tracks plan (visited ++ [place]) w' := by
  have unlike : ∀ entry ∈ w.store.entries, entry.1.isSame item.identifier = false := by
    simpa using List.find?_eq_none.mp (Option.map_eq_none_iff.mp absent)
  have free : item.identifier ∉ w.store.identifiers := by
    intro present
    obtain ⟨entry, member, same⟩ := List.mem_map.mp present
    have different := unlike entry member
    rw [same, Identifier.isSame_refl] at different
    cases different
  have held : w.store.hold item =
      ⟨w.store.entries ++ [(item.identifier, item)], w.store.reserved ++ [item.identifier]⟩ := by
    simp only [Store.hold, Store.get?, Entries.get?_eq_none.mpr free,
      Entries.put_of_not_mem item free]
  have sound := Store.sound_hold tracks.sound persisted
  rw [held] at store sound
  refine ⟨by rw [store], by rw [store], ?_, ?_, by rwa [store]⟩
  · rw [store]
    refine List.rel_append ?_ (.cons ?_ .nil)
    · refine tracks.held.imp fun _ _ held => held.mono (List.prefix_append _ _) serial ?_
      exact fun settled reserved => settled (List.mem_append_left _ reserved)
    · exact ⟨given, rfl, older, fun settled => absurd (List.mem_append_right _ List.mem_cons_self) settled⟩
  · rw [store, Store.identifiers, Entries.keys, List.map_append]
    refine List.pairwise_append.mpr ⟨tracks.apart, List.pairwise_singleton _ _, ?_⟩
    intro one present other here
    obtain ⟨entry, member, rfl⟩ := List.mem_map.mp present
    rw [List.mem_singleton.mp here]
    exact unlike entry member

/-- A visit ends when the full resource takes the place of the placeholder. -/
theorem Tracks.settle {middle : Workspace} {placeholder : Instance} {rest : List Nat}
    {more : List (Identifier × Instance)} (start : Tracks plan visited w) (item : Instance)
    (absent : w.store.find? item.identifier = none)
    (tracks : Tracks plan (visited ++ place :: rest) middle)
    (entries : middle.store.entries = w.store.entries ++ (item.identifier, placeholder) :: more)
    (reserved : middle.store.reserved = w.store.reserved ++ [item.identifier])
    (newer : placeholder.serial < item.serial) (older : item.serial < w'.serial)
    (serial : middle.serial ≤ w'.serial) (persisted : item.identifier.isPersisted = true)
    (full : ∀ final, visited ++ place :: rest <+: final →
      resource? plan (spelled plan.family final) place = some item.resource)
    (store : w'.store = middle.store.keep item) :
    w'.store.entries = w.store.entries ++ (item.identifier, item) :: more ∧
      w'.store.reserved = w.store.reserved ∧ Tracks plan (visited ++ place :: rest) w' ∧
      w'.store.find? item.identifier = some item := by
  have distinct := tracks.nodup
  rw [Store.identifiers, Entries.keys, entries, List.map_append, List.map_cons] at distinct
  have before : item.identifier ∉ Entries.keys w.store.entries :=
    fun present => List.disjoint_of_nodup_append distinct present List.mem_cons_self
  have after : item.identifier ∉ Entries.keys more :=
    (List.nodup_cons.mp (List.nodup_append.mp distinct).2.1).1
  have free : item.identifier ∉ w.store.reserved :=
    fun waiting => before (start.sound.held _ waiting)
  have found : middle.store.get? item.identifier = some placeholder := by
    rw [Store.get?, entries, Entries.get?_append_of_not_mem _ before, Entries.get?, if_pos rfl]
  have waiting : item.identifier ∈ middle.store.reserved := by
    rw [reserved]
    exact List.mem_append_right _ List.mem_cons_self
  have others : w.store.reserved.filter (· ≠ item.identifier) = w.store.reserved := by
    refine List.filter_eq_self.mpr fun other member => ?_
    simpa using fun same : other = item.identifier => free (same ▸ member)
  have kept : middle.store.keep item =
      ⟨w.store.entries ++ (item.identifier, item) :: more, w.store.reserved⟩ := by
    rw [Store.keep_of_waiting found waiting (Nat.ne_of_lt newer), entries, reserved,
      Entries.put_middle _ _ _ before, List.filter_append, others]
    simp
  have sound := Store.sound_keep tracks.sound persisted
  rw [kept] at store sound
  have lengths := start.held.length_eq
  have held := tracks.held
  rw [entries, Paired.forall₂_append_iff lengths, List.forall₂_cons] at held
  obtain ⟨early, here, late⟩ := held
  -- An entry of another identifier is reserved afterwards if it was before.
  have settled : ∀ entry : Identifier × Instance, entry.1 ≠ item.identifier →
      entry.1 ∉ w.store.reserved → entry.1 ∉ middle.store.reserved := by
    intro entry different unreserved
    rw [reserved, List.mem_append, List.mem_singleton]
    exact not_or.mpr ⟨unreserved, different⟩
  refine ⟨by rw [store], by rw [store], ⟨?_, ?_, by rwa [store]⟩, ?_⟩
  · rw [store, Paired.forall₂_append_iff lengths, List.forall₂_cons]
    refine ⟨Paired.forall₂_imp_of_mem early ?_, ⟨here.given, rfl, older, fun _ => full⟩,
      Paired.forall₂_imp_of_mem late ?_⟩
    · intro _ entry member held
      refine held.mono List.prefix_rfl serial (settled entry ?_)
      exact fun same => before (same ▸ List.mem_map_of_mem member)
    · intro _ entry member held
      refine held.mono List.prefix_rfl serial (settled entry ?_)
      exact fun same => after (same ▸ List.mem_map_of_mem member)
  · have apart := tracks.apart
    rw [Store.identifiers, Entries.keys, entries, List.map_append, List.map_cons] at apart
    rwa [store, Store.identifiers, Entries.keys, List.map_append, List.map_cons]
  · have unlike := List.find?_eq_none.mp (Option.map_eq_none_iff.mp absent)
    rw [store, Store.find?, List.find?_append, List.find?_eq_none.mpr unlike, Option.none_or]
    simp [Identifier.isSame_refl]

end JsonApi.Walk
