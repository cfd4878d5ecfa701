import JsonApi.Text.Split
import Mathlib.Data.List.DropRight

/-!
Texts and what is left of them when characters are stripped at their ends. Main statement: that is the one
text which neither begins nor ends with such a character and has only such characters around it.
-/

namespace JsonApi.Text

variable {p : Char → Bool} {text core front more : List Char} {c : Char}

theorem stripEnd_eq_rdropWhile (p : Char → Bool) (text : List Char) :
    stripEnd p text = text.rdropWhile p := rfl

theorem of_head?_stripStart (first : (stripStart p text).head? = some c) : p c = false := by
  have stops := List.head?_dropWhile_not p text
  rw [stripStart] at first
  simpa [first] using stops

theorem of_head?_strip (first : (strip p text).head? = some c) : p c = false := by
  obtain ⟨more, shape⟩ := List.rdropWhile_prefix p (stripStart p text)
  obtain ⟨rest, stripped⟩ := List.head?_eq_some_iff.mp first
  rw [strip, stripEnd_eq_rdropWhile] at stripped
  have begins : (stripStart p text).head? = some c := by rw [← shape, stripped]; rfl
  exact of_head?_stripStart begins

theorem of_getLast?_stripEnd (last : (stripEnd p text).getLast? = some c) : p c = false := by
  rw [stripEnd, List.getLast?_reverse] at last
  exact of_head?_stripStart last

/-- The text is the core with nothing but characters to be stripped behind it, and the core does not end
with one. -/
structure StripsEnd (p : Char → Bool) (text core : List Char) : Prop where
  shape : ∃ after, (∀ c ∈ after, p c = true) ∧ text = core ++ after
  last : ∀ c, core.getLast? = some c → p c = false

structure Strips (p : Char → Bool) (text core : List Char) : Prop where
  shape : ∃ before after, (∀ c ∈ before, p c = true) ∧ (∀ c ∈ after, p c = true) ∧
    text = before ++ core ++ after
  first : ∀ c, core.head? = some c → p c = false
  last : ∀ c, core.getLast? = some c → p c = false

theorem stripsEnd_stripEnd (p : Char → Bool) (text : List Char) : StripsEnd p text (stripEnd p text) where
  shape := ⟨text.rtakeWhile p, fun _ => List.mem_rtakeWhile_imp, List.rdropWhile_append_rtakeWhile.symm⟩
  last _ := of_getLast?_stripEnd

theorem stripEnd_eq_iff : stripEnd p text = core ↔ StripsEnd p text core := by
  constructor
  · rintro rfl
    exact stripsEnd_stripEnd p text
  · intro strips
    obtain ⟨after, all, rfl⟩ := strips.shape
    have dropped : stripEnd p (core ++ after) = stripEnd p core := by
      rw [stripEnd, List.reverse_append, List.dropWhile_append_of_pos (by simpa using all), stripEnd]
    rw [dropped, stripEnd_eq_rdropWhile, List.rdropWhile_eq_self_iff]
    intro nonempty
    rw [strips.last _ (List.getLast?_eq_some_getLast nonempty)]
    exact Bool.false_ne_true

theorem strips_strip (p : Char → Bool) (text : List Char) : Strips p text (strip p text) where
  shape := by
    obtain ⟨after, all, shape⟩ := (stripsEnd_stripEnd p (stripStart p text)).shape
    refine ⟨text.takeWhile p, after, fun _ => List.mem_takeWhile_imp, all, ?_⟩
    calc text = text.takeWhile p ++ stripStart p text := (List.takeWhile_append_dropWhile).symm
      _ = text.takeWhile p ++ (strip p text ++ after) := congrArg (text.takeWhile p ++ ·) shape
      _ = text.takeWhile p ++ strip p text ++ after := (List.append_assoc _ _ _).symm
  first _ := of_head?_strip
  last _ := of_getLast?_stripEnd

theorem strip_eq_iff : strip p text = core ↔ Strips p text core := by
  constructor
  · rintro rfl
    exact strips_strip p text
  · intro strips
    obtain ⟨before, after, all, all', rfl⟩ := strips.shape
    rw [strip, stripStart, List.append_assoc, List.dropWhile_append_of_pos all, stripEnd_eq_iff]
    refine ⟨?_, strips.last⟩
    cases core with
    | nil =>
      have nothing : after.dropWhile p = [] := List.dropWhile_eq_nil_iff.mpr all'
      exact ⟨[], List.forall_mem_nil _, nothing⟩
    | cons first rest =>
      have stays : ¬p first = true := Bool.eq_false_iff.mp (strips.first first rfl)
      exact ⟨after, all', List.dropWhile_cons_of_neg stays⟩

theorem StripsEnd.append (strips : StripsEnd p text core) (all : ∀ c ∈ more, p c = true) :
    StripsEnd p (text ++ more) core where
  shape := by
    obtain ⟨after, all', rfl⟩ := strips.shape
    exact ⟨after ++ more, List.forall_mem_append.mpr ⟨all', all⟩, List.append_assoc core after more⟩
  last := strips.last

theorem Strips.around (strips : Strips p text core) (all : ∀ c ∈ front, p c = true)
    (all' : ∀ c ∈ more, p c = true) : Strips p (front ++ text ++ more) core where
  shape := by
    obtain ⟨before, after, allBefore, allAfter, rfl⟩ := strips.shape
    exact ⟨front ++ before, after ++ more, List.forall_mem_append.mpr ⟨all, allBefore⟩,
      List.forall_mem_append.mpr ⟨allAfter, all'⟩, by simp only [List.append_assoc]⟩
  first := strips.first
  last := strips.last

theorem all_of_strip_eq_nil (nothing : strip p text = []) : ∀ c ∈ text, p c = true := by
  obtain ⟨before, after, all, all', shape⟩ := (strip_eq_iff.mp nothing).shape
  rw [shape, List.append_nil]
  exact List.forall_mem_append.mpr ⟨all, all'⟩

end JsonApi.Text
