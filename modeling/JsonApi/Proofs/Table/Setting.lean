import JsonApi.Proofs.Entries
import JsonApi.Table.Row

/-!
Rows of a database: made with members that their class declares, and set member by member. Main
statement: no relation of such a row holds what it refuses, and so one that leads to at most one row
leads to a single row or to none, and any other to a list, unless what stands there is no row at all.
-/

namespace JsonApi

theorem Except.bind_ok {ε α β : Type} {result : Except ε α} {next : α → Except ε β} {b : β}
    (answer : (result >>= next) = .ok b) : ∃ a, result = .ok a ∧ next a = .ok b := by
  cases result with
  | ok a => exact ⟨a, rfl, answer⟩
  | error fault => cases answer

namespace Table

variable {classes tables : List Table} {t : Table}

theorem nodup_latest {α : Type} (name : α → String) (items : List α) :
    ((latest name items).map name).Nodup := by
  have named : ∀ pair ∈ Entries.ofPairs (items.map fun item => (name item, item)),
      name pair.2 = pair.1 := by
    intro pair member
    obtain ⟨item, _, rfl⟩ := List.mem_map.mp (Entries.mem_of_mem_ofPairs member)
    rfl
  have keyed := List.map_congr_left named
  rw [latest, List.map_map, Function.comp_def, keyed]
  exact Entries.nodup_keys_ofPairs _

theorem mem_of_mem_latest {α : Type} {name : α → String} {items : List α} {item : α}
    (member : item ∈ latest name items) : item ∈ items := by
  obtain ⟨pair, listed, rfl⟩ := List.mem_map.mp member
  obtain ⟨_, inside, rfl⟩ := List.mem_map.mp (Entries.mem_of_mem_ofPairs listed)
  exact inside

/-- The tables of a database are classes as they keep their columns and relations. -/
theorem exists_of_assemble (assembled : assemble classes = .ok tables) (member : t ∈ tables) :
    ∃ declared ∈ classes, t = declared.settled := by
  unfold assemble at assembled
  simp only at assembled
  split at assembled
  · cases assembled
  · split at assembled
    · cases assembled
      obtain ⟨declared, listed, rfl⟩ := List.mem_map.mp (mem_of_mem_latest member)
      exact ⟨declared, listed, rfl⟩
    · cases assembled

def Distinct (t : Table) : Prop := (t.relations.map (·.name)).Nodup

theorem distinct_of_assemble (assembled : assemble classes = .ok tables) (member : t ∈ tables) :
    t.Distinct := by
  obtain ⟨declared, _, rfl⟩ := exists_of_assemble assembled member
  exact nodup_latest _ declared.relations

theorem Distinct.relation? (distinct : t.Distinct) {relation : Relation}
    (listed : relation ∈ t.relations) : t.relation? relation.name = some relation := by
  have present : (t.relations.find? (·.name == relation.name)).isSome = true :=
    List.find?_isSome.mpr ⟨relation, listed, beq_self_eq_true _⟩
  obtain ⟨other, found⟩ := Option.isSome_iff_exists.mp present
  have named : other.name = relation.name := by simpa using List.find?_some found
  have same := List.inj_on_of_nodup_map distinct (List.mem_of_find?_eq_some found) listed named
  rw [Table.relation?, found, same]

end Table

namespace Row

variable {classes tables : List Table} {t : Table} {r r' : Row} {relation : Relation}

inductive Comes (tables : List Table) : Row → Prop where
  | made {t : Table} {place : Nat} {members : Members} {r : Row} (known : t ∈ tables)
    (made : make t place members = .ok r) : Comes tables r
  | set {r r' : Row} {name : String} {target : Target} (comes : Comes tables r)
    (changed : r.set name target = .ok r') : Comes tables r'

/-- No relation of the row holds what it refuses. -/
def Fits (r : Row) : Prop :=
  ∀ relation ∈ r.table.relations, ∀ target, Entries.get? r.members relation.name = some target →
    relation.refusal? target = none

theorem set_ok {name : String} {target : Target} (changed : r.set name target = .ok r') :
    r.refusal? name target = none ∧ r' = { r with members := Entries.put r.members name target } := by
  unfold set at changed
  split at changed
  next fault _ => cases changed
  next accepted => exact ⟨accepted, (Except.ok.inj changed).symm⟩

theorem set_fits {name : String} {target : Target} (distinct : r.table.Distinct) (fits : r.Fits)
    (changed : r.set name target = .ok r') : r'.table = r.table ∧ r'.Fits := by
  obtain ⟨accepted, rfl⟩ := set_ok changed
  refine ⟨rfl, fun relation listed other held => ?_⟩
  simp only [Entries.get?_put] at held
  split at held
  next same =>
    cases held
    rw [refusal?, same, distinct.relation? listed] at accepted
    exact accepted
  next => exact fits relation listed other held

theorem assign_ok {name : String} {v : Value} (assigned : r.assign name v = .ok r') :
    r.set name (.value v) = .ok r' := by
  unfold assign at assigned
  split at assigned
  · exact assigned
  · cases assigned

theorem assignAll_fits {members : Members} (distinct : r.table.Distinct) (fits : r.Fits)
    (assigned : members.foldlM (fun row member => row.assign member.1 member.2) r = .ok r') :
    r'.table = r.table ∧ r'.Fits := by
  induction members generalizing r with
  | nil =>
    cases assigned
    exact ⟨rfl, fits⟩
  | cons member rest ih =>
    rw [List.foldlM_cons] at assigned
    obtain ⟨between, first, further⟩ := Except.bind_ok assigned
    obtain ⟨kept, fits⟩ := set_fits distinct fits (assign_ok first)
    obtain ⟨kept', fits⟩ := ih (kept ▸ distinct) fits further
    exact ⟨kept'.trans kept, fits⟩

theorem make_fits {place : Nat} {members : Members} (distinct : t.Distinct)
    (made : make t place members = .ok r) : r.table = t ∧ r.Fits := by
  unfold make at made
  split at made
  · cases made
  · refine assignAll_fits (r := new t place) distinct ?_ made
    intro relation _ target held
    cases held

theorem Comes.fits (assembled : Table.assemble classes = .ok tables) (comes : Comes tables r) :
    r.table ∈ tables ∧ r.Fits := by
  induction comes with
  | made known made =>
    obtain ⟨rfl, fits⟩ := make_fits (Table.distinct_of_assemble assembled known) made
    exact ⟨known, fits⟩
  | set _ changed ih =>
    obtain ⟨known, fits⟩ := ih
    obtain ⟨kept, fits⟩ := set_fits (Table.distinct_of_assemble assembled known) fits changed
    exact ⟨kept ▸ known, fits⟩

theorem get?_settle (family : List Row) (listed : (r.table.relation? relation.name).isSome = true) :
    Entries.get? (settle family r).members relation.name = Entries.get? r.members relation.name := by
  unfold settle
  simp only
  induction r.members with
  | nil => rfl
  | cons member rest ih =>
    by_cases same : member.1 = relation.name
    · simp only [List.map_cons, same, listed, if_true, Entries.get?]
    · simp only [List.map_cons]
      split <;> simp only [Entries.get?, same, if_false, ih]

theorem settle_fits (family : List Row) (distinct : r.table.Distinct) (fits : r.Fits) :
    (settle family r).Fits := by
  intro relation listed target held
  have present : (r.table.relation? relation.name).isSome = true := by
    rw [distinct.relation? listed]
    rfl
  rw [get?_settle family present] at held
  exact fits relation listed target held

/-- What a relation holds is nothing that it refuses, even if nothing is set. -/
theorem Fits.refusal?_targetOf (fits : r.Fits) (listed : relation ∈ r.table.relations) :
    relation.refusal? (r.targetOf relation) = none := by
  unfold targetOf
  split
  next target held => exact fits relation listed target held
  next => cases list : relation.isList <;> simp [list, Relation.refusal?, Value.isNull]

theorem Fits.follow_cases (fits : r.Fits) (listed : relation ∈ r.table.relations) :
    (relation.isToOne = true ∧ (r.follow relation = .absent ∨ ∃ place, r.follow relation = .one place)) ∨
    (relation.isToOne = false ∧ ∃ places, r.follow relation = .many places) ∨
    ∃ fault, r.follow relation = .stray fault := by
  have accepted := fits.refusal?_targetOf listed
  have lone (single : relation.isList = false) : relation.isToOne = true := by
    simp [Relation.isToOne, single]
  unfold follow
  split
  next place held =>
    rw [held] at accepted
    cases list : relation.isList with
    | true => simp [Relation.refusal?, list] at accepted
    | false => exact Or.inl ⟨lone list, Or.inr ⟨place, rfl⟩⟩
  next places held =>
    cases single : relation.isToOne with
    | true => exact Or.inr (Or.inr ⟨_, rfl⟩)
    | false => exact Or.inr (Or.inl ⟨rfl, places, rfl⟩)
  next held =>
    rw [held] at accepted
    cases list : relation.isList with
    | true => simp [Relation.refusal?, list] at accepted
    | false => exact Or.inl ⟨lone list, Or.inl rfl⟩
  next held =>
    cases single : relation.isToOne with
    | true => exact Or.inr (Or.inr ⟨_, rfl⟩)
    | false => exact Or.inr (Or.inl ⟨rfl, [], rfl⟩)
  next first rest held => exact Or.inr (Or.inr ⟨_, rfl⟩)
  next => exact Or.inr (Or.inr ⟨_, rfl⟩)

end Row

end JsonApi
