/-!
Cutting texts, read as lists of characters, at a separator: into all pieces, at the first
occurrence, or at the last one; joining them again; and stripping their ends.
-/

namespace JsonApi.Text

/-- All pieces between occurrences of `sep`; a text without `sep` is its only piece. -/
def pieces (sep : Char) : List Char → List (List Char)
  | [] => [[]]
  | c :: rest =>
    if c = sep then [] :: pieces sep rest
    else match pieces sep rest with
      | [] => [[c]]
      | piece :: more => (c :: piece) :: more

def cut (sep : Char) : List Char → List Char × Option (List Char)
  | [] => ([], none)
  | c :: rest =>
    if c = sep then ([], some rest)
    else match cut sep rest with
      | (before, after) => (c :: before, after)

/-- What follows the last `sep`, the whole text if there is none. -/
def afterLast (sep : Char) : List Char → List Char
  | [] => []
  | c :: rest => if sep ∈ rest then afterLast sep rest else if c = sep then rest else c :: rest

def joinWith (sep : List Char) : List (List Char) → List Char
  | [] => []
  | [piece] => piece
  | piece :: more => piece ++ sep ++ joinWith sep more

def stripStart (p : Char → Bool) (text : List Char) : List Char := text.dropWhile p

def stripEnd (p : Char → Bool) (text : List Char) : List Char := (text.reverse.dropWhile p).reverse

def strip (p : Char → Bool) (text : List Char) : List Char := stripEnd p (stripStart p text)

theorem pieces_ne_nil (sep : Char) (text : List Char) : pieces sep text ≠ [] := by
  cases text with
  | nil => simp [pieces]
  | cons c rest =>
    simp only [pieces]
    split
    · simp
    · split <;> simp

theorem cut_append {sep : Char} {before : List Char} (absent : sep ∉ before) (after : List Char) :
    cut sep (before ++ sep :: after) = (before, some after) := by
  induction before with
  | nil => simp [cut]
  | cons c rest ih =>
    simp only [List.mem_cons, not_or] at absent
    simp [cut, Ne.symm absent.1, ih absent.2]

theorem length_after_cut {sep : Char} {text before after : List Char}
    (parts : cut sep text = (before, some after)) : after.length < text.length := by
  induction text generalizing before with
  | nil => simp [cut] at parts
  | cons c rest ih =>
    simp only [cut] at parts
    split at parts
    · simp only [Prod.mk.injEq, Option.some.injEq] at parts
      simp [parts.2]
    · simp only [Prod.mk.injEq] at parts
      have := @ih (cut sep rest).1 (by rw [← parts.2])
      simp only [List.length_cons]
      omega

end JsonApi.Text
