import JsonApi.Entries
import Mathlib.Data.List.Forall2
import Mathlib.Data.List.Induction
import Mathlib.Data.List.Nodup
import Mathlib.Data.List.Perm.Basic

/-!
More about finite maps as lists of pairs: what a pair put into a map may be, where it goes, and that
maps made in the same way from pairs that belong together belong together.
-/

namespace JsonApi.Entries

variable {κ β δ : Type} [DecidableEq κ]

theorem mem_put {entries : List (κ × β)} {key : κ} {value : β} {pair : κ × β}
    (member : pair ∈ put entries key value) : pair = (key, value) ∨ pair ∈ entries := by
  induction entries with
  | nil => exact Or.inl (List.mem_singleton.mp member)
  | cons first rest ih =>
    by_cases same : first.1 = key
    · simp only [put, same, if_true] at member
      exact (List.mem_cons.mp member).imp_right (List.mem_cons_of_mem _)
    · simp only [put, same, if_false] at member
      rcases List.mem_cons.mp member with here | later
      · exact Or.inr (here ▸ List.mem_cons_self)
      · exact (ih later).imp_right (List.mem_cons_of_mem _)

theorem mem_putAll {entries pairs : List (κ × β)} {pair : κ × β}
    (member : pair ∈ putAll entries pairs) : pair ∈ entries ∨ pair ∈ pairs := by
  induction pairs generalizing entries with
  | nil => exact Or.inl member
  | cons first rest ih =>
    rcases ih member with before | further
    · rcases mem_put before with rfl | early
      · exact Or.inr List.mem_cons_self
      · exact Or.inl early
    · exact Or.inr (List.mem_cons_of_mem _ further)

theorem mem_of_mem_ofPairs {pairs : List (κ × β)} {pair : κ × β} (member : pair ∈ ofPairs pairs) :
    pair ∈ pairs := by
  rcases mem_putAll member with nothing | here
  · cases nothing
  · exact here

theorem put_of_not_mem {entries : List (κ × β)} {key : κ} (value : β)
    (absent : key ∉ keys entries) : put entries key value = entries ++ [(key, value)] := by
  induction entries with
  | nil => rfl
  | cons first rest ih =>
    simp only [keys, List.map_cons, List.mem_cons, not_or] at absent
    have different : first.1 ≠ key := Ne.symm absent.1
    simp only [put, different, if_false, List.cons_append]
    rw [ih absent.2]

theorem put_ne_nil (entries : List (κ × β)) (key : κ) (value : β) : put entries key value ≠ [] := by
  cases entries with
  | nil => exact List.cons_ne_nil _ _
  | cons first rest =>
    rw [put]
    split <;> exact List.cons_ne_nil _ _

theorem put_middle {before : List (κ × β)} {key : κ} (old value : β) (after : List (κ × β))
    (absent : key ∉ keys before) :
    put (before ++ (key, old) :: after) key value = before ++ (key, value) :: after := by
  induction before with
  | nil => simp [put]
  | cons first rest ih =>
    simp only [keys, List.map_cons, List.mem_cons, not_or] at absent
    have different : first.1 ≠ key := Ne.symm absent.1
    simp only [List.cons_append, put, different, if_false]
    rw [ih absent.2]

theorem get?_append_of_not_mem {before : List (κ × β)} {key : κ} (after : List (κ × β))
    (absent : key ∉ keys before) : get? (before ++ after) key = get? after key := by
  induction before with
  | nil => rfl
  | cons first rest ih =>
    simp only [keys, List.map_cons, List.mem_cons, not_or] at absent
    have different : first.1 ≠ key := Ne.symm absent.1
    simp only [List.cons_append, get?, different, if_false]
    exact ih absent.2

theorem get?_eq_none {entries : List (κ × β)} {key : κ} :
    get? entries key = none ↔ key ∉ keys entries := by
  induction entries with
  | nil => simp [get?, keys]
  | cons first rest ih =>
    by_cases same : first.1 = key
    · simp [get?, keys, same]
    · simp only [get?, same, if_false, ih, keys, List.map_cons, List.mem_cons, Ne.symm same,
        false_or]

theorem get?_append (entries others : List (κ × β)) (key : κ) :
    get? (entries ++ others) key = (get? entries key).or (get? others key) := by
  induction entries with
  | nil => rfl
  | cons first rest ih =>
    rw [List.cons_append, get?, get?]
    split
    · rfl
    · exact ih

/-- Where keys are distinct, only the value under a key decides whether it is found among those that pass. -/
theorem get?_filter {entries : List (κ × β)} (distinct : (keys entries).Nodup) (test : β → Bool) (key : κ) :
    get? (entries.filter fun entry => test entry.2) key = (get? entries key).filter test := by
  induction entries with
  | nil => rfl
  | cons first rest ih =>
    simp only [keys, List.map_cons, List.nodup_cons] at distinct
    have further := ih distinct.2
    by_cases same : first.1 = key
    · have absent : get? (rest.filter fun entry => test entry.2) key = none := by
        rw [further, get?_eq_none.mpr (same ▸ distinct.1)]
        rfl
      cases passes : test first.2 with
      | true => simp [get?, same, passes, Option.filter]
      | false => simp [get?, same, passes, absent, Option.filter]
    · cases passes : test first.2 with
      | true => simp [get?, same, passes, further]
      | false => simp [get?, same, passes, further]

theorem mem_of_get? {entries : List (κ × β)} {key : κ} {value : β}
    (found : get? entries key = some value) : (key, value) ∈ entries := by
  induction entries with
  | nil => cases found
  | cons first rest ih =>
    by_cases same : first.1 = key
    · simp only [get?, same, if_true, Option.some.injEq] at found
      rw [← same, ← found]
      exact List.mem_cons_self
    · simp only [get?, same, if_false] at found
      exact List.mem_cons_of_mem _ (ih found)

theorem get?_of_mem {entries : List (κ × β)} {key : κ} {value : β} (distinct : (keys entries).Nodup)
    (member : (key, value) ∈ entries) : get? entries key = some value := by
  induction entries with
  | nil => cases member
  | cons first rest ih =>
    simp only [keys, List.map_cons, List.nodup_cons] at distinct
    rcases List.mem_cons.mp member with rfl | further
    · exact if_pos rfl
    · have different : first.1 ≠ key := by
        rintro rfl
        exact distinct.1 (List.mem_map.mpr ⟨_, further, rfl⟩)
      rw [get?, if_neg different, ih distinct.2 further]

theorem nodup_keys_put {entries : List (κ × β)} (distinct : (keys entries).Nodup) (key : κ)
    (value : β) : (keys (put entries key value)).Nodup := by
  rw [keys_put]
  split
  · exact distinct
  · next absent =>
    exact List.nodup_append'.mpr ⟨distinct, List.nodup_singleton key, by simpa using absent⟩

theorem nodup_keys_putAll {entries : List (κ × β)} (distinct : (keys entries).Nodup)
    (pairs : List (κ × β)) : (keys (putAll entries pairs)).Nodup := by
  induction pairs generalizing entries with
  | nil => exact distinct
  | cons first rest ih => exact ih (nodup_keys_put distinct first.1 first.2)

theorem nodup_keys_ofPairs (pairs : List (κ × β)) : (keys (ofPairs pairs)).Nodup := by
  have nothing : (keys ([] : List (κ × β))).Nodup := List.nodup_nil
  exact nodup_keys_putAll nothing pairs

/-- Maps with the same values under the same keys have the same pairs. -/
theorem perm_of_get? {entries others : List (κ × β)} (distinct : (keys entries).Nodup)
    (distinct' : (keys others).Nodup) (same : ∀ key, get? entries key = get? others key) :
    entries.Perm others := by
  refine (List.perm_ext_iff_of_nodup (.of_map _ distinct) (.of_map _ distinct')).mpr ?_
  rintro ⟨key, value⟩
  constructor
  · intro member
    exact mem_of_get? ((same key).symm.trans (get?_of_mem distinct member))
  · intro member
    exact mem_of_get? ((same key).trans (get?_of_mem distinct' member))

theorem get?_perm {entries others : List (κ × β)} (distinct : (keys entries).Nodup)
    (permuted : entries.Perm others) (key : κ) : get? entries key = get? others key := by
  have distinct' : (keys others).Nodup := (permuted.map _).nodup_iff.mp distinct
  cases found : get? entries key with
  | some value =>
    exact (get?_of_mem distinct' (permuted.mem_iff.mp (mem_of_get? found))).symm
  | none =>
    rw [get?_eq_none] at found
    refine (get?_eq_none.mpr fun present => found ?_).symm
    exact (permuted.map _).mem_iff.mpr present

def Alike (R : κ → β → δ → Prop) (one : κ × β) (other : κ × δ) : Prop :=
  other.1 = one.1 ∧ R one.1 one.2 other.2

theorem forall₂_put {R : κ → β → δ → Prop} {entries : List (κ × β)} {others : List (κ × δ)}
    (alike : List.Forall₂ (Alike R) entries others) {key : κ} {value : β} {other : δ}
    (related : R key value other) :
    List.Forall₂ (Alike R) (put entries key value) (put others key other) := by
  induction alike with
  | nil => exact .cons ⟨rfl, related⟩ .nil
  | @cons first second rest more here further ih =>
    obtain ⟨keys, values⟩ := here
    by_cases same : first.1 = key
    · have same' : second.1 = key := keys.trans same
      simp only [put, same, same', if_true]
      exact .cons ⟨rfl, related⟩ further
    · have different : second.1 ≠ key := keys ▸ same
      simp only [put, same, different, if_false]
      exact .cons ⟨keys, values⟩ ih

theorem forall₂_putAll {R : κ → β → δ → Prop} {pairs : List (κ × β)} {others : List (κ × δ)}
    (alike : List.Forall₂ (Alike R) pairs others) {entries : List (κ × β)}
    {entries' : List (κ × δ)} (start : List.Forall₂ (Alike R) entries entries') :
    List.Forall₂ (Alike R) (putAll entries pairs) (putAll entries' others) := by
  induction alike generalizing entries entries' with
  | nil => exact start
  | @cons first second rest more here _ ih =>
    obtain ⟨keys, values⟩ := here
    refine ih ?_
    change List.Forall₂ (Alike R) (put entries first.1 first.2) (put entries' second.1 second.2)
    rw [keys]
    exact forall₂_put start values

theorem putAll_of_nodup {entries pairs : List (κ × β)} (distinct : (keys (entries ++ pairs)).Nodup) :
    putAll entries pairs = entries ++ pairs := by
  induction pairs generalizing entries with
  | nil => exact (List.append_nil entries).symm
  | cons first rest ih =>
    have absent : first.1 ∉ keys entries := by
      intro present
      simp only [keys, List.map_append] at distinct present
      exact List.disjoint_of_nodup_append distinct present List.mem_cons_self
    have again : (keys ((entries ++ [first]) ++ rest)).Nodup := by simpa using distinct
    change putAll (put entries first.1 first.2) rest = _
    rw [put_of_not_mem first.2 absent, ih again, List.append_assoc]
    rfl

theorem ofPairs_of_nodup {pairs : List (κ × β)} (distinct : (keys pairs).Nodup) :
    ofPairs pairs = pairs :=
  putAll_of_nodup distinct

end JsonApi.Entries
