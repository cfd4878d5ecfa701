import JsonApi.Proofs.Text.Stripping
import JsonApi.Uri.Generator

/-!
Roots with name spaces below them. Main statement: a name space below another one is one name space, so
bases can be put together in any grouping; slashes at the ends of root and name space change nothing, and no
base ends with a slash.
-/

namespace JsonApi.Uri

def below (start inner : List Char) : List Char := if inner = [] then start else start ++ '/' :: inner

def adjoin (inner inner' : List Char) : List Char := if inner = [] then inner' else below inner inner'

variable {root space other start inner inner' : List Char}

/-- Name spaces act on roots: going down by two of them is going down by the two as one. -/
theorem below_below (start inner inner' : List Char) :
    below (below start inner) inner' = below start (adjoin inner inner') := by
  by_cases empty : inner = []
  · rw [adjoin, if_pos empty, below, below, if_pos empty, ← below]
  by_cases empty' : inner' = []
  · rw [adjoin, if_neg empty, empty']
    rfl
  · have occupied : below inner inner' ≠ [] := by simp [below, empty']
    rw [adjoin, if_neg empty, below, if_neg empty', below, if_neg empty, below, if_neg occupied, below,
      if_neg empty', List.append_assoc, List.cons_append]

theorem append_below (before start inner : List Char) :
    below (before ++ start) inner = before ++ below start inner := by
  unfold below
  split
  · rfl
  · exact List.append_assoc before start _

theorem head?_below (occupied : start ≠ []) (inner : List Char) :
    (below start inner).head? = start.head? := by
  unfold below
  split
  · rfl
  · exact List.head?_append_of_ne_nil start occupied

theorem of_getLast?_below {c : Char} (last : (below start inner).getLast? = some c) :
    start.getLast? = some c ∨ inner.getLast? = some c := by
  unfold below at last
  split at last
  · exact Or.inl last
  · next occupied =>
    obtain ⟨first, rest, rfl⟩ := List.exists_cons_of_ne_nil occupied
    rw [List.getLast?_append_cons, List.getLast?_cons_cons] at last
    exact Or.inr last

/-- Nothing of root and name space matters but what they are stripped to. -/
theorem joinBase_eq (ends : Text.StripsEnd (· = '/') root start)
    (strips : Text.Strips (· = '/') space inner) : joinBase root space = below start inner := by
  simp only [joinBase, Text.stripEnd_eq_iff.mpr ends, Text.strip_eq_iff.mpr strips, below]

theorem exists_joinBase_eq (root space : List Char) :
    ∃ start inner, Text.StripsEnd (· = '/') root start ∧ Text.Strips (· = '/') space inner ∧
      joinBase root space = below start inner :=
  ⟨_, _, Text.stripsEnd_stripEnd _ root, Text.strips_strip _ space, rfl⟩

theorem of_getLast?_joinBase {c : Char} (last : (joinBase root space).getLast? = some c) :
    decide (c = '/') = false := by
  obtain ⟨start, inner, ends, strips, joins⟩ := exists_joinBase_eq root space
  rw [joins] at last
  exact (of_getLast?_below last).elim (ends.last c) (strips.last c)

theorem stripsEnd_joinBase (root space : List Char) :
    Text.StripsEnd (· = '/') (joinBase root space) (joinBase root space) where
  shape := ⟨[], List.forall_mem_nil _, (List.append_nil _).symm⟩
  last _ := of_getLast?_joinBase

theorem strips_below_nil (strips : Text.Strips (· = '/') space inner) :
    Text.Strips (· = '/') (below [] inner) inner where
  shape := by
    unfold below
    split
    · next empty => exact ⟨[], [], List.forall_mem_nil _, List.forall_mem_nil _, by rw [empty]; rfl⟩
    · exact ⟨['/'], [], List.forall_mem_singleton.mpr rfl, List.forall_mem_nil _,
        (List.append_nil _).symm⟩
  first := strips.first
  last := strips.last

theorem strips_joinBase (strips : Text.Strips (· = '/') space inner)
    (strips' : Text.Strips (· = '/') other inner') :
    Text.Strips (· = '/') (joinBase space other) (adjoin inner inner') := by
  by_cases empty : inner = []
  · have all := Text.all_of_strip_eq_nil (Text.strip_eq_iff.mpr (empty ▸ strips))
    have ends : Text.StripsEnd (· = '/') space [] := ⟨⟨space, all, rfl⟩, fun _ last => nomatch last⟩
    -- A name space of slashes leaves one slash in front of the other, which is stripped again.
    rw [joinBase_eq ends strips', adjoin, if_pos empty]
    exact strips_below_nil strips'
  · obtain ⟨before, after, all, all', shape⟩ := strips.shape
    have ends : Text.StripsEnd (· = '/') space (before ++ inner) := by
      refine ⟨⟨after, all', shape⟩, fun c last => ?_⟩
      rw [List.getLast?_append_of_ne_nil before empty] at last
      exact strips.last c last
    rw [joinBase_eq ends strips', append_below, adjoin, if_neg empty]
    refine ⟨⟨before, [], all, List.forall_mem_nil _, (List.append_nil _).symm⟩, fun c first => ?_,
      fun c last => (of_getLast?_below last).elim (strips.last c) (strips'.last c)⟩
    rw [head?_below empty] at first
    exact strips.first c first

theorem joinBase_joinBase (root space other : List Char) :
    joinBase (joinBase root space) other = joinBase root (joinBase space other) := by
  obtain ⟨start, inner, ends, strips, joins⟩ := exists_joinBase_eq root space
  have strips' := Text.strips_strip (· = '/') other
  calc joinBase (joinBase root space) other
      = below (below start inner) (Text.strip (· = '/') other) := by
        rw [joinBase_eq (stripsEnd_joinBase root space) strips', joins]
    _ = below start (adjoin inner (Text.strip (· = '/') other)) := below_below _ _ _
    _ = joinBase root (joinBase space other) := (joinBase_eq ends (strips_joinBase strips strips')).symm

def slashes (count : Nat) : String := String.ofList (List.replicate count '/')

theorem all_slashes (count : Nat) : ∀ c ∈ (slashes count).toList, decide (c = '/') = true := by
  intro c member
  rw [slashes, String.toList_ofList] at member
  exact decide_eq_true (List.eq_of_mem_replicate member)

namespace Generator

theorem toList_joined (root space : String) :
    (joined root space).toList = joinBase root.toList space.toList := String.toList_ofList

theorem joined_slashes (root space : String) (more before after : Nat) :
    joined (root ++ slashes more) (slashes before ++ space ++ slashes after) = joined root space := by
  obtain ⟨start, inner, ends, strips, joins⟩ := exists_joinBase_eq root.toList space.toList
  apply String.toList_inj.mp
  rw [toList_joined, toList_joined, joins]
  apply joinBase_eq
  · rw [String.toList_append]
    exact ends.append (all_slashes more)
  · rw [String.toList_append, String.toList_append]
    exact strips.around (all_slashes before) (all_slashes after)

/-- Name spaces below a root can be grouped in any way, a base never ends with a slash, slashes that are
added at the end of the root or around the name space change nothing, and what is left of the name space
without them stands behind the rest of the root and one slash. -/
theorem joined_nests (root space other : String) :
    joined (joined root space) other = joined root (joined space other) ∧
    (joined root space).toList.getLast? ≠ some '/' ∧
    (∀ more before after,
      joined (root ++ slashes more) (slashes before ++ space ++ slashes after) = joined root space) ∧
    ∃ start inner : String, Text.StripsEnd (· = '/') root.toList start.toList ∧
      Text.Strips (· = '/') space.toList inner.toList ∧
      joined root space = if inner = "" then start else start ++ "/" ++ inner := by
  refine ⟨?_, ?_, joined_slashes root space, ?_⟩
  · apply String.toList_inj.mp
    simp only [toList_joined]
    exact joinBase_joinBase root.toList space.toList other.toList
  · intro last
    rw [toList_joined] at last
    exact of_decide_eq_false (of_getLast?_joinBase last) rfl
  · obtain ⟨start, inner, ends, strips, joins⟩ := exists_joinBase_eq root.toList space.toList
    refine ⟨String.ofList start, String.ofList inner, ?_, ?_, ?_⟩
    · rwa [String.toList_ofList]
    · rwa [String.toList_ofList]
    · apply String.toList_inj.mp
      rw [toList_joined, joins, below]
      by_cases empty : inner = [] <;> simp [empty]

-- Slashes within a name space stay.
example : joined "https://example.com//" "//api//v1/" = "https://example.com/api//v1" := by decide +kernel

end Generator

end JsonApi.Uri
