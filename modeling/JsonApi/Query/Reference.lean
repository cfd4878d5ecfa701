import JsonApi.Query.Entry
import JsonApi.Uri.Split

/-!
The query of a reference. A reference that cannot be taken apart asks for nothing in particular.
-/

namespace JsonApi.Query

def ofReference (uri : List Char) : Query :=
  match Uri.split uri with
  | .ok parts => read parts.query
  | .error _ => empty

def recordsOfReference (uri : List Char) : List Record :=
  match Uri.split uri with
  | .ok parts => records parts.query
  | .error error =>
    [⟨.warning, "Failed to parse uri '" ++ String.ofList uri ++ "': " ++ error.message⟩]

end JsonApi.Query
