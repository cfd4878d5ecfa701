import Mathlib.Data.List.Basic
import Mathlib.Data.List.TakeDrop
import JsonApi.Sorting.Search

/-!
What a search finds. Main statement: if a condition holds of the items in front and fails for all others,
then both ways of searching find the place where it begins to fail, whichever items they ask.
-/

namespace JsonApi.Sorting

variable {α β ε : Type} {holds : α → Except ε Bool} {front back items : List α}

theorem ok_bind (a : α) (f : α → Except ε β) : (Except.ok a >>= f) = f a := rfl

structure Divides (holds : α → Except ε Bool) (front back : List α) : Prop where
  front : ∀ item ∈ front, holds item = .ok true
  back : ∀ item ∈ back, holds item = .ok false

namespace Divides

theorem at_lt (divides : Divides holds front back) {place : Nat} (before : place < front.length)
    {item : α} (found : (front ++ back)[place]? = some item) : holds item = .ok true := by
  rw [List.getElem?_append_left before] at found
  exact divides.front item (List.mem_of_getElem? found)

theorem at_ge (divides : Divides holds front back) {place : Nat} (behind : front.length ≤ place)
    {item : α} (found : (front ++ back)[place]? = some item) : holds item = .ok false := by
  rw [List.getElem?_append_right behind] at found
  exact divides.back item (List.mem_of_getElem? found)

theorem drop (divides : Divides holds front back) (count : Nat) : Divides holds (front.drop count) back :=
  ⟨fun item member => divides.front item (List.mem_of_mem_drop member), divides.back⟩

theorem take (divides : Divides holds front back) (count : Nat) : Divides holds front (back.take count) :=
  ⟨divides.front, fun item member => divides.back item (List.mem_of_mem_take member)⟩

end Divides

/-- In a list in order, a condition that holds of all items before those it holds of divides the list. -/
theorem divides_of_pairwise {condition : α → Bool}
    (answers : ∀ item ∈ items, holds item = .ok (condition item))
    (closed : items.Pairwise fun a b => condition b = true → condition a = true) :
    ∃ front back, items = front ++ back ∧ Divides holds front back ∧
      (∀ item ∈ front, condition item = true) ∧ ∀ item ∈ back, condition item = false := by
  have divides {front back : List α} (shape : items = front ++ back)
      (true' : ∀ item ∈ front, condition item = true) (false' : ∀ item ∈ back, condition item = false) :
      Divides holds front back := by
    subst shape
    refine ⟨fun item member => ?_, fun item member => ?_⟩
    · rw [answers item (List.mem_append_left _ member), true' item member]
    · rw [answers item (List.mem_append_right _ member), false' item member]
  suffices parts : ∃ front back, items = front ++ back ∧ (∀ item ∈ front, condition item = true) ∧
      ∀ item ∈ back, condition item = false by
    obtain ⟨front, back, shape, true', false'⟩ := parts
    exact ⟨front, back, shape, divides shape true' false', true', false'⟩
  clear divides answers
  induction items with
  | nil => exact ⟨[], [], rfl, by simp, by simp⟩
  | cons first rest ih =>
    obtain ⟨later, closed⟩ := List.pairwise_cons.mp closed
    cases known : condition first with
    | true =>
      obtain ⟨front, back, rfl, true', false'⟩ := ih closed
      exact ⟨first :: front, back, rfl, List.forall_mem_cons.mpr ⟨known, true'⟩, false'⟩
    | false =>
      refine ⟨[], first :: rest, rfl, by simp, List.forall_mem_cons.mpr ⟨known, fun item member => ?_⟩⟩
      by_contra holds
      rw [Bool.not_eq_false] at holds
      rw [later item member holds] at known
      cases known

theorem middle_lt (side : Side) {size : Nat} (positive : 0 < size) : side.middle size < size := by
  cases side <;> simp only [Side.middle] <;> omega

theorem bisect_append (side : Side) (divides : Divides holds front back) :
    bisect side holds (front ++ back) = .ok front.length := by
  generalize size : (front ++ back).length = total
  induction total using Nat.strongRecOn generalizing front back with
  | ind total ih =>
    rw [bisect]
    split
    · next nothing =>
      have few := List.drop_eq_nil_iff.mp nothing
      have empty : (front ++ back).length = 0 := by
        by_contra some
        have := middle_lt side (Nat.pos_of_ne_zero some)
        omega
      rw [List.length_append] at empty
      rw [Nat.eq_zero_of_add_eq_zero_right empty]
    · next item after shape =>
      rw [size] at shape ⊢
      have found : (front ++ back)[side.middle total]? = some item := by
        rw [← List.head?_drop, shape, List.head?_cons]
      have rest : (front ++ back).drop (side.middle total + 1) = after := by
        rw [← List.drop_drop, shape, List.drop_one, List.tail_cons]
      obtain ⟨inside, -⟩ := List.getElem?_eq_some_iff.mp found
      rw [size] at inside
      rcases Nat.lt_or_ge (side.middle total) front.length with before | behind
      · have more := ih after.length (by rw [← rest, List.length_drop]; omega)
          (divides.drop (side.middle total + 1))
        rw [List.drop_append_of_le_length before] at rest
        rw [rest] at more
        rw [divides.at_lt before found, ok_bind, if_pos rfl, more rfl, ok_bind, List.length_drop]
        refine congrArg Except.ok ?_
        omega
      · have fewer : (front ++ back).take (side.middle total) =
            front ++ back.take (side.middle total - front.length) := by
          rw [List.take_append, List.take_of_length_le behind]
        rw [divides.at_ge behind found, ok_bind, if_neg Bool.false_ne_true, fewer]
        refine ih (side.middle total) inside (divides.take _) ?_
        rw [← fewer, List.length_take]
        omega

theorem stride_append (divides : Divides holds front back) {last next : Nat}
    (before : last < front.length) (further : last < next) :
    ∃ last' limit, stride holds (front ++ back) last next = .ok (last', limit) ∧
      last' < front.length ∧ front.length ≤ limit := by
  generalize distance : (front ++ back).length - next = left
  induction left using Nat.strongRecOn generalizing last next with
  | ind left ih =>
    rw [stride]
    split
    · next inside =>
      have found := List.getElem?_eq_getElem inside
      rcases Nat.lt_or_ge next front.length with passed | stopped
      · rw [divides.at_lt passed found]
        exact ih ((front ++ back).length - (2 * next + 1)) (by omega) passed (by omega) rfl
      · rw [divides.at_ge stopped found]
        exact ⟨last, next, rfl, before, stopped⟩
    · exact ⟨last, (front ++ back).length, rfl, before, by rw [List.length_append]; omega⟩

theorem leading_append (side : Side) (divides : Divides holds front back) :
    leading side holds (front ++ back) = .ok front.length := by
  cases front with
  | nil =>
    cases back with
    | nil => rfl
    | cons first rest =>
      rw [List.nil_append, leading, divides.back first List.mem_cons_self]
      rfl
  | cons first rest =>
    obtain ⟨last, limit, strides, before, behind⟩ :=
      stride_append divides (Nat.zero_lt_succ rest.length) Nat.zero_lt_one
    have middle : ((first :: rest ++ back).take limit).drop (last + 1) =
        (first :: rest).drop (last + 1) ++ back.take (limit - (first :: rest).length) := by
      rw [List.take_append, List.take_of_length_le behind, List.drop_append_of_le_length before]
    have found := bisect_append side ((divides.drop (last + 1)).take (limit - (first :: rest).length))
    rw [← middle] at found
    rw [List.cons_append, leading, divides.front first List.mem_cons_self, ok_bind, if_pos rfl]
    rw [List.cons_append] at strides found
    rw [strides, ok_bind]
    dsimp only
    rw [found, ok_bind, List.length_drop]
    refine congrArg Except.ok ?_
    omega

end JsonApi.Sorting
