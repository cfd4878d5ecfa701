import JsonApi.Text.Split

/-!
Texts cut at the first separator or behind the last one. Main statements: a cut gives its text back, and
what is written behind a text goes to the right of its cut if there is one, to the left otherwise.
-/

namespace JsonApi.Text

variable {sep : Char} {text before after : List Char}

theorem of_cut (parts : cut sep text = (before, some after)) :
    sep ∉ before ∧ text = before ++ sep :: after := by
  induction text generalizing before with
  | nil => cases parts
  | cons c rest ih =>
    by_cases same : c = sep
    · rw [cut, if_pos same] at parts
      cases parts
      exact ⟨List.not_mem_nil, by rw [same]; rfl⟩
    · rw [cut, if_neg same] at parts
      simp only [Prod.mk.injEq] at parts
      obtain ⟨rfl, further⟩ := parts
      obtain ⟨absent, shape⟩ := @ih (cut sep rest).1 (by rw [← further])
      refine ⟨?_, congrArg (c :: ·) shape⟩
      simp only [List.mem_cons, not_or]
      exact ⟨Ne.symm same, absent⟩

theorem cut_append_of_not_mem (absent : sep ∉ text) (more : List Char) :
    cut sep (text ++ more) = (text ++ (cut sep more).1, (cut sep more).2) := by
  induction text with
  | nil => rfl
  | cons c rest ih =>
    simp only [List.mem_cons, not_or] at absent
    rw [List.cons_append, cut, if_neg (Ne.symm absent.1), ih absent.2, List.cons_append]

theorem cut_of_not_mem (absent : sep ∉ text) : cut sep text = (text, none) := by
  have cuts := cut_append_of_not_mem absent []
  rw [List.append_nil] at cuts
  rw [cuts, cut, List.append_nil]

theorem cut_append_of_cut (parts : cut sep text = (before, some after)) (more : List Char) :
    cut sep (text ++ more) = (before, some (after ++ more)) := by
  obtain ⟨absent, rfl⟩ := of_cut parts
  rw [List.append_assoc, List.cons_append]
  exact cut_append absent (after ++ more)

theorem not_mem_of_cut (parts : cut sep text = (before, none)) : sep ∉ text ∧ before = text := by
  have absent : sep ∉ text := by
    intro member
    obtain ⟨front, back, rfl, first⟩ := List.eq_append_cons_of_mem member
    rw [cut_append first] at parts
    cases parts
  rw [cut_of_not_mem absent] at parts
  cases parts
  exact ⟨absent, rfl⟩

theorem not_mem_afterLast (sep : Char) (text : List Char) : sep ∉ afterLast sep text := by
  induction text with
  | nil => exact List.not_mem_nil
  | cons c rest ih =>
    unfold afterLast
    split
    · exact ih
    · next absent =>
      split
      · exact absent
      · next apart =>
        simp only [List.mem_cons, not_or]
        exact ⟨Ne.symm apart, absent⟩

theorem afterLast_append {rest : List Char} (absent : sep ∉ rest) (front : List Char) :
    afterLast sep (front ++ sep :: rest) = rest := by
  induction front with
  | nil => rw [List.nil_append, afterLast, if_neg absent, if_pos rfl]
  | cons c front ih =>
    have member : sep ∈ front ++ sep :: rest := List.mem_append_right _ List.mem_cons_self
    rw [List.cons_append, afterLast, if_pos member, ih]

theorem afterLast_of_not_mem (absent : sep ∉ text) : afterLast sep text = text := by
  cases text with
  | nil => rfl
  | cons c rest =>
    simp only [List.mem_cons, not_or] at absent
    rw [afterLast, if_neg absent.2, if_neg (Ne.symm absent.1)]

/-- In front of what follows the last separator there is nothing, or that separator. -/
theorem of_afterLast (sep : Char) (text : List Char) :
    ∃ before, text = before ++ afterLast sep text ∧ (before = [] ∨ ∃ front, before = front ++ [sep]) := by
  induction text with
  | nil => exact ⟨[], rfl, Or.inl rfl⟩
  | cons c rest ih =>
    unfold afterLast
    split
    · next member =>
      obtain ⟨before, whole, empty | ⟨front, rfl⟩⟩ := ih
      · rw [empty, List.nil_append] at whole
        exact absurd (whole ▸ member) (not_mem_afterLast sep rest)
      · exact ⟨c :: (front ++ [sep]), congrArg (c :: ·) whole, Or.inr ⟨c :: front, rfl⟩⟩
    · split
      · next same => exact ⟨[c], rfl, Or.inr ⟨[], by rw [same]; rfl⟩⟩
      · exact ⟨[], rfl, Or.inl rfl⟩

end JsonApi.Text
