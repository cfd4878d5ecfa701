import JsonApi.Text.Split
import Mathlib.Data.List.Induction

/-!
Joined texts and their parts. Main statements: texts without a separator are the pieces of what they are
joined to, and texts that are joined tell their parts as long as some character of what stands between
them occurs in at most one part.
-/

namespace JsonApi.Text

theorem joinWith_cons {sep part : List Char} {more : List (List Char)} (further : more ≠ []) :
    joinWith sep (part :: more) = part ++ sep ++ joinWith sep more := by
  cases more with
  | nil => exact absurd rfl further
  | cons next more => rfl

theorem joinWith_concat {sep : List Char} {parts : List (List Char)} (last : List Char)
    (nonempty : parts ≠ []) : joinWith sep (parts ++ [last]) = joinWith sep parts ++ sep ++ last := by
  induction parts with
  | nil => exact absurd rfl nonempty
  | cons part more ih =>
    cases more with
    | nil => rfl
    | cons next more =>
      have further := ih (List.cons_ne_nil next more)
      rw [List.cons_append, joinWith_cons (List.append_ne_nil_of_left_ne_nil (by simp) _), further,
        joinWith_cons (List.cons_ne_nil next more)]
      simp only [List.append_assoc]

theorem pieces_of_not_mem {sep : Char} {text : List Char} (absent : sep ∉ text) :
    pieces sep text = [text] := by
  induction text with
  | nil => rfl
  | cons c rest ih =>
    simp only [List.mem_cons, not_or] at absent
    rw [pieces, if_neg (Ne.symm absent.1), ih absent.2]

theorem pieces_append {sep : Char} {before : List Char} (absent : sep ∉ before) (after : List Char) :
    pieces sep (before ++ sep :: after) = before :: pieces sep after := by
  induction before with
  | nil => rw [List.nil_append, pieces, if_pos rfl]
  | cons c rest ih =>
    simp only [List.mem_cons, not_or] at absent
    rw [List.cons_append, pieces, if_neg (Ne.symm absent.1), ih absent.2]

theorem pieces_joinWith {sep : Char} {parts : List (List Char)} (nonempty : parts ≠ [])
    (absent : ∀ part ∈ parts, sep ∉ part) : pieces sep (joinWith [sep] parts) = parts := by
  induction parts with
  | nil => exact absurd rfl nonempty
  | cons part more ih =>
    rw [List.forall_mem_cons] at absent
    cases more with
    | nil => exact pieces_of_not_mem absent.1
    | cons next more =>
      rw [joinWith_cons (List.cons_ne_nil next more), List.append_assoc, List.singleton_append,
        pieces_append absent.1, ih (List.cons_ne_nil next more) absent.2]

theorem not_mem_of_mem_pieces {sep : Char} {text piece : List Char} (member : piece ∈ pieces sep text) :
    sep ∉ piece := by
  induction text generalizing piece with
  | nil =>
    cases List.mem_singleton.mp member
    exact List.not_mem_nil
  | cons c rest ih =>
    by_cases same : c = sep
    · rw [pieces, if_pos same] at member
      rcases List.mem_cons.mp member with rfl | further
      · exact List.not_mem_nil
      · exact ih further
    · rw [pieces, if_neg same] at member
      obtain ⟨first, more, shape⟩ := List.exists_cons_of_ne_nil (pieces_ne_nil sep rest)
      rw [shape] at member ih
      rcases List.mem_cons.mp member with rfl | further
      · simp only [List.mem_cons, not_or]
        exact ⟨Ne.symm same, ih List.mem_cons_self⟩
      · exact ih (List.mem_cons_of_mem first further)

variable {c : Char} {sep : List Char}

/-- The first separator is found by one of its characters that does not occur before it. -/
theorem append_sep_inj (inside : c ∈ sep) {one other : List Char} (absent : c ∉ one)
    (absent' : c ∉ other) {rest more : List Char} (same : one ++ sep ++ rest = other ++ sep ++ more) :
    one = other ∧ rest = more := by
  obtain ⟨start, stop, rfl, first⟩ := List.eq_append_cons_of_mem inside
  have cuts := congrArg (cut c) same
  simp only [List.append_assoc, List.cons_append] at cuts
  rw [← List.append_assoc, ← List.append_assoc other, cut_append (by simp [absent, first]),
    cut_append (by simp [absent', first])] at cuts
  simp only [Prod.mk.injEq, Option.some.injEq] at cuts
  exact ⟨List.append_cancel_right cuts.1, List.append_cancel_left cuts.2⟩

theorem sep_append_inj (inside : c ∈ sep) {one other : List Char} (absent : c ∉ one)
    (absent' : c ∉ other) {rest more : List Char} (same : rest ++ sep ++ one = more ++ sep ++ other) :
    rest = more ∧ one = other := by
  have backwards := congrArg List.reverse same
  simp only [List.reverse_append, ← List.append_assoc] at backwards
  obtain ⟨parts, rests⟩ := append_sep_inj (c := c) (List.mem_reverse.mpr inside)
    (fun member => absent (List.mem_reverse.mp member))
    (fun member => absent' (List.mem_reverse.mp member)) backwards
  exact ⟨List.reverse_inj.mp rests, List.reverse_inj.mp parts⟩

/-- Parts without a character of the separator are told from the right, whatever the first part. -/
theorem joinWith_inj_of_first (inside : c ∈ sep) {first first' : List Char}
    {parts parts' : List (List Char)} (lengths : parts.length = parts'.length)
    (absent : ∀ part ∈ parts, c ∉ part) (absent' : ∀ part ∈ parts', c ∉ part)
    (same : joinWith sep (first :: parts) = joinWith sep (first' :: parts')) :
    first = first' ∧ parts = parts' := by
  induction parts using List.reverseRecOn generalizing parts' with
  | nil =>
    cases List.eq_nil_of_length_eq_zero lengths.symm
    exact ⟨same, rfl⟩
  | append_singleton parts last ih =>
    rcases List.eq_nil_or_concat parts' with rfl | ⟨parts', last', rfl⟩
    · simp at lengths
    rw [List.concat_eq_append] at lengths absent' same ⊢
    simp only [List.length_append, List.length_singleton, Nat.add_right_cancel_iff] at lengths
    rw [← List.cons_append, ← List.cons_append, joinWith_concat last (List.cons_ne_nil _ _),
      joinWith_concat last' (List.cons_ne_nil _ _)] at same
    obtain ⟨rests, lasts⟩ := sep_append_inj inside (absent last (by simp)) (absent' last' (by simp)) same
    obtain ⟨firsts, further⟩ := ih lengths
      (fun part member => absent part (List.mem_append_left _ member))
      (fun part member => absent' part (List.mem_append_left _ member)) rests
    rw [firsts, further, lasts]
    exact ⟨rfl, rfl⟩

/-- Joined texts tell their parts if a character of the separator occurs in none of them but perhaps
one at the same place on both sides. -/
theorem joinWith_inj (inside : c ∈ sep) {before before' after after' : List (List Char)}
    {part part' : List Char} (lengths : before.length = before'.length)
    (lengths' : after.length = after'.length)
    (absent : ∀ text ∈ before ++ after, c ∉ text) (absent' : ∀ text ∈ before' ++ after', c ∉ text)
    (same : joinWith sep (before ++ part :: after) = joinWith sep (before' ++ part' :: after')) :
    before ++ part :: after = before' ++ part' :: after' := by
  induction before generalizing before' with
  | nil =>
    cases List.eq_nil_of_length_eq_zero lengths.symm
    obtain ⟨parts, afters⟩ := joinWith_inj_of_first inside lengths' absent absent' same
    rw [parts, afters]
  | cons first before ih =>
    cases before' with
    | nil => cases lengths
    | cons first' before' =>
      simp only [List.length_cons, Nat.add_right_cancel_iff] at lengths
      simp only [List.cons_append, List.forall_mem_cons] at absent absent'
      rw [List.cons_append, List.cons_append, joinWith_cons (by simp), joinWith_cons (by simp)] at same
      obtain ⟨firsts, rests⟩ := append_sep_inj inside absent.1 absent'.1 same
      rw [List.cons_append, List.cons_append, firsts, ih lengths absent.2 absent'.2 rests]

/-- A character of the separator may also be the first one of every part. -/
theorem joinWith_inj_of_tail (inside : c ∈ sep) {parts parts' : List (List Char)}
    (lengths : parts.length = parts'.length)
    (absent : ∀ part ∈ parts, part ≠ [] ∧ c ∉ part.tail)
    (absent' : ∀ part ∈ parts', part ≠ [] ∧ c ∉ part.tail)
    (same : joinWith sep parts = joinWith sep parts') : parts = parts' := by
  induction parts generalizing parts' with
  | nil => exact (List.eq_nil_of_length_eq_zero lengths.symm).symm
  | cons part more ih =>
    cases parts' with
    | nil => cases lengths
    | cons part' more' =>
      simp only [List.length_cons, Nat.add_right_cancel_iff] at lengths
      simp only [List.forall_mem_cons] at absent absent'
      obtain ⟨head, tail, rfl⟩ := List.exists_cons_of_ne_nil absent.1.1
      obtain ⟨head', tail', rfl⟩ := List.exists_cons_of_ne_nil absent'.1.1
      cases more with
      | nil =>
        cases List.eq_nil_of_length_eq_zero lengths.symm
        exact congrArg (· :: []) same
      | cons next more =>
        have further : more' ≠ [] := by
          rintro rfl
          cases lengths
        rw [joinWith_cons (List.cons_ne_nil _ _), joinWith_cons further] at same
        simp only [List.cons_append, List.cons.injEq] at same
        obtain ⟨tails, rests⟩ : tail = tail' ∧ joinWith sep (next :: more) = joinWith sep more' :=
          append_sep_inj inside absent.1.2 absent'.1.2 same.2
        rw [same.1, tails, ih lengths absent.2 absent'.2 rests]

end JsonApi.Text
