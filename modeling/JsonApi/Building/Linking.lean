import JsonApi.Building.Workspace

/-!
Linking: the data that a relationship leads to become resource linkage. Resources that have been built
are registered on the way.
-/

namespace JsonApi

inductive RelatedData where
  | none
  | reference (identifier : Identifier)
  | built (item : Instance)
  | references (identifiers : List Identifier)
  | builtAll (items : List Instance)
  /-- Something that is nothing of the kind, in its quoted form. -/
  | foreign (form : String)

namespace RelatedData

def isBuilt : RelatedData → Bool
  | .built _ => true
  | .builtAll _ => true
  | _ => false

end RelatedData

namespace Build

def registerAll : List Instance → Build (List Identifier)
  | [] => return []
  | item :: rest => do
    let identifier ← register item
    return identifier :: (← registerAll rest)

def link : RelatedData → Build Linkage
  | .none => return .empty
  | .reference identifier => return .one identifier
  | .built item => return .one (← register item)
  | .references identifiers => return .many identifiers
  | .builtAll items => return .many (← registerAll items)
  | .foreign form => fail (.invalidRelated form)

def linkAll {γ : Type} [Uri.Layout γ] (generator : γ) (identifier : Identifier) :
    List (String × RelatedData) → Build (List (String × Relationship))
  | [] => return []
  | (name, data) :: rest => do
    let self ← ofExcept (Uri.Layout.relationship generator identifier name)
    let related ← ofExcept (Uri.Layout.related generator identifier name)
    let linkage ← link data
    return (name, ⟨some ⟨some self, some related, none⟩, some linkage, none⟩) ::
      (← linkAll generator identifier rest)

end Build

end JsonApi
