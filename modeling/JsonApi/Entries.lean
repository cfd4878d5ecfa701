/-!
Finite maps as lists of pairs in the order in which the keys were first put. Putting a value under
a key that is there replaces the value and keeps the place.
-/

namespace JsonApi.Entries

variable {κ β : Type} [DecidableEq κ]

def get? : List (κ × β) → κ → Option β
  | [], _ => none
  | (k, v) :: rest, key => if k = key then some v else get? rest key

def put : List (κ × β) → κ → β → List (κ × β)
  | [], key, value => [(key, value)]
  | (k, v) :: rest, key, value =>
    if k = key then (k, value) :: rest else (k, v) :: put rest key value

def putAll (entries pairs : List (κ × β)) : List (κ × β) :=
  pairs.foldl (fun entries pair => put entries pair.1 pair.2) entries

def ofPairs (pairs : List (κ × β)) : List (κ × β) := putAll [] pairs

def keys (entries : List (κ × β)) : List κ := entries.map (·.1)

theorem get?_put (entries : List (κ × β)) (key other : κ) (value : β) :
    get? (put entries key value) other = if key = other then some value else get? entries other := by
  induction entries with
  | nil => simp [put, get?]
  | cons pair rest ih =>
    obtain ⟨k, v⟩ := pair
    by_cases same : k = key
    · subst same
      by_cases h : k = other <;> simp [put, get?, h]
    · by_cases h : k = other
      · subst h
        simp [put, get?, same, Ne.symm same]
      · simp [put, get?, same, h, ih]

theorem keys_put (entries : List (κ × β)) (key : κ) (value : β) :
    keys (put entries key value) =
      if key ∈ keys entries then keys entries else keys entries ++ [key] := by
  induction entries with
  | nil => simp [put, keys]
  | cons pair rest ih =>
    obtain ⟨k, v⟩ := pair
    by_cases same : k = key
    · simp [put, keys, same]
    · simp only [put, same, if_false, keys, List.map_cons] at ih ⊢
      rw [ih]
      by_cases h : key ∈ rest.map (·.1) <;> simp [h, Ne.symm same]

theorem mem_keys_of_get? {entries : List (κ × β)} {key : κ} {value : β}
    (found : get? entries key = some value) : key ∈ keys entries := by
  induction entries with
  | nil => simp [get?] at found
  | cons pair rest ih =>
    obtain ⟨k, v⟩ := pair
    by_cases same : k = key
    · simp [keys, same]
    · simp only [get?, same, if_false] at found
      simpa [keys] using Or.inr (ih found)

end JsonApi.Entries
