import JsonApi.Query.Family
import JsonApi.Proofs.Text.Cutting
import JsonApi.Proofs.Text.Joining

/-!
Keys of parameter families read and written. Main statement: what is read as a key are exactly the texts
that are written of a name and at least one segment, all of them tokens.
-/

namespace JsonApi

namespace Query

variable {text : List Char} {c : Char}

theorem isTokenChar_of_mem (token : isToken text = true) (member : c ∈ text) : isTokenChar c = true := by
  simp only [isToken, Bool.and_eq_true, List.all_eq_true] at token
  exact token.2 c member

theorem not_mem_of_isToken (apart : isTokenChar c = false) (token : isToken text = true) : c ∉ text := by
  intro member
  rw [isTokenChar_of_mem token member] at apart
  cases apart

theorem exists_cons_of_isToken (token : isToken text = true) :
    ∃ first rest, text = first :: rest ∧ isTokenEnd first = true := by
  cases text with
  | nil => cases token
  | cons first rest =>
    simp only [isToken, Bool.and_eq_true, List.head?_cons, Option.any_some] at token
    exact ⟨first, rest, rfl, token.1.1⟩

namespace FamilyKey

structure Valid (key : FamilyKey) : Prop where
  name : isToken key.name = true
  nonempty : key.segments ≠ []
  segments : ∀ segment ∈ key.segments, isToken segment = true

theorem writeSegments_cons (segment : List Char) (segments : List (List Char)) :
    writeSegments (segment :: segments) = '[' :: (segment ++ ']' :: writeSegments segments) := by
  simp [writeSegments]

theorem readSegments?_writeSegments {segments : List (List Char)}
    (tokens : ∀ segment ∈ segments, isToken segment = true) :
    readSegments? (writeSegments segments) = some segments := by
  induction segments with
  | nil => exact readSegments?.eq_1
  | cons segment segments ih =>
    rw [List.forall_mem_cons] at tokens
    have parts := Text.cut_append (not_mem_of_isToken (c := ']') rfl tokens.1) (writeSegments segments)
    rw [writeSegments_cons, readSegments?, if_neg (by simp)]
    split
    · next cuts =>
      rw [parts] at cuts
      cases cuts
    · next cuts =>
      rw [parts] at cuts
      cases cuts
      rw [if_pos tokens.1, ih tokens.2, Option.map_some]

theorem of_readSegments? {segments : List (List Char)} (read : readSegments? text = some segments) :
    text = writeSegments segments ∧ ∀ segment ∈ segments, isToken segment = true := by
  fun_induction readSegments? text generalizing segments with
  | case1 =>
    cases read
    exact ⟨rfl, fun _ member => nomatch member⟩
  | case2 c rest other => cases read
  | case3 c rest bracket before cuts => cases read
  | case4 c rest bracket segment after cuts token ih =>
    obtain ⟨more, reads, rfl⟩ := Option.map_eq_some_iff.mp read
    obtain ⟨shape, tokens⟩ := ih reads
    rw [writeSegments_cons, ← shape, ← (Text.of_cut cuts).2, not_not.mp bracket]
    exact ⟨rfl, List.forall_mem_cons.mpr ⟨token, tokens⟩⟩
  | case5 c rest bracket segment after cuts noToken => cases read

theorem read?_eq_some_iff {key : List Char} {family : FamilyKey} :
    read? key = some family ↔ family.Valid ∧ key = family.write := by
  constructor
  · intro reads
    simp only [read?] at reads
    split at reads
    · next given =>
      obtain ⟨segments, read, rfl⟩ := Option.map_eq_some_iff.mp reads
      obtain ⟨shape, tokens⟩ := of_readSegments? read
      refine ⟨⟨given.2, ?_, tokens⟩, ?_⟩
      · rintro rfl
        exact given.1 shape
      · rw [write, ← shape, List.takeWhile_append_dropWhile]
    · cases reads
  · rintro ⟨valid, rfl⟩
    have absent := not_mem_of_isToken (c := '[') rfl valid.name
    obtain ⟨first, more, shape⟩ := List.exists_cons_of_ne_nil valid.nonempty
    have start : writeSegments family.segments = '[' :: (first ++ ']' :: writeSegments more) := by
      rw [shape, writeSegments_cons]
    have passes : ∀ c ∈ family.name, decide (c ≠ '[') = true := fun c member =>
      decide_eq_true fun same => absent (same ▸ member)
    have name : family.write.takeWhile (· ≠ '[') = family.name := by
      rw [write, start, List.takeWhile_append_of_pos passes, List.takeWhile_cons_of_neg (by simp),
        List.append_nil]
    have rest : family.write.dropWhile (· ≠ '[') = writeSegments family.segments := by
      rw [write, start, List.dropWhile_append_of_pos passes, List.dropWhile_cons_of_neg (by simp)]
    have nonempty : writeSegments family.segments ≠ [] := by
      rw [start]
      exact List.cons_ne_nil _ _
    simp only [read?, name, rest]
    rw [if_pos ⟨nonempty, valid.name⟩, readSegments?_writeSegments valid.segments, Option.map_some]

end FamilyKey

end Query

end JsonApi
