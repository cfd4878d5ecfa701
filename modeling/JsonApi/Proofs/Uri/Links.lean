import JsonApi.Proofs.Text.Joining
import JsonApi.Proofs.Text.Stripping
import JsonApi.Proofs.Uri.Check
import JsonApi.Uri.Generator

/-!
The links that generators with the usual layout give. Main statements: under a name space without an
origin there are exactly the links whose base, type, id and name are well formed, each for itself; and no
two links under one base are the same, unless a type, an id or a name has a slash in it.
-/

namespace JsonApi.Uri

variable {uri text : String}

theorem link_eq_ok_iff : link uri = .ok text ↔ text = uri ∧ Passes uri.toList := by
  rw [← check_eq_ok_iff, link]
  cases check uri <;> simp

theorem link_of_flaw? (written : text = uri) (flawless : flaw? uri.toList = none) : link uri = .ok text :=
  link_eq_ok_iff.mpr ⟨written, flaw?_eq_none_iff.mp flawless⟩

theorem link_fails {fault : Fault} (fails : link uri = .error fault) :
    ∃ flaw, fault = .breach (.invalidUri uri flaw) := by
  unfold link at fails
  split at fails
  · cases fails
  · next flaw _ =>
    cases fails
    exact ⟨flaw, rfl⟩

theorem link_rooted (path : RootedPath uri.toList) :
    link uri = .ok text ↔ text = uri ∧ WellFormed uri.toList := by
  rw [link_eq_ok_iff]
  exact and_congr_right fun _ => ⟨Passes.formed, fun formed => passes_of_rootedPath formed path⟩

/-! Links under a name space. -/

/-- What keeps the first two slashes of a path apart: a name space that is not all slashes, or else a
type that does not begin with one. -/
def Anchored (space kind : String) : Prop :=
  (∃ c ∈ space.toList, c ≠ '/') ∨ ∃ first rest, kind.toList = first :: rest ∧ first ≠ '/'

/-- Without an origin, all that comes below a type is a path from the root. -/
theorem rootedPath_joinBase {space kind : String} (anchored : Anchored space kind) (rest : List Char) :
    RootedPath (joinBase [] space.toList ++ '/' :: (kind.toList ++ '/' :: rest)) := by
  by_cases nothing : Text.strip (· = '/') space.toList = []
  · have base : joinBase [] space.toList = [] := if_pos nothing
    rcases anchored with ⟨c, member, other⟩ | ⟨first, more, shape, other⟩
    · exact absurd (of_decide_eq_true (Text.all_of_strip_eq_nil nothing c member)) other
    · rw [base, shape]
      exact ⟨_, rfl, fun same => other (Option.some.inj same)⟩
  · have base : joinBase [] space.toList = '/' :: Text.strip (· = '/') space.toList := if_neg nothing
    obtain ⟨first, more, shape⟩ := List.exists_cons_of_ne_nil nothing
    have begins : (Text.strip (· = '/') space.toList).head? = some first := by rw [shape]; rfl
    have other : decide (first = '/') = false := Text.of_head?_strip begins
    rw [base, shape]
    exact ⟨_, rfl, fun same => of_decide_eq_false other (Option.some.inj same)⟩

theorem toList_resourceReference (base kind id : String) :
    (resourceReference base kind id).toList =
      base.toList ++ '/' :: (kind.toList ++ '/' :: id.toList) := by
  simp [resourceReference]

theorem toList_relationshipReference (resource name : String) :
    (relationshipReference resource name).toList =
      resource.toList ++ '/' :: ("relationships".toList ++ '/' :: name.toList) := by
  simp [relationshipReference]

theorem toList_relatedReference (resource name : String) :
    (relatedReference resource name).toList = resource.toList ++ '/' :: name.toList := by
  simp [relatedReference]

theorem wellFormed_resourceReference {base kind id : String} :
    WellFormed (resourceReference base kind id).toList ↔
      WellFormed base.toList ∧ WellFormed kind.toList ∧ WellFormed id.toList := by
  rw [toList_resourceReference, wellFormed_slash, wellFormed_slash]

theorem rootedPath_below {space kind : String} (anchored : Anchored space kind) (id : String)
    (more : List Char) :
    RootedPath ((resourceReference (Generator.joined "" space) kind id).toList ++ more) := by
  have path := rootedPath_joinBase anchored (id.toList ++ more)
  rw [toList_resourceReference, Generator.joined, String.toList_ofList]
  simpa using path

/-- A link to that reference under the condition, and a violation otherwise. -/
structure Decides (condition : Prop) (uri : String) (outcome : Except Fault String) : Prop where
  links : condition → outcome = .ok uri
  violates : ¬condition → ∃ text flaw, outcome = .error (.breach (.invalidUri text flaw))

variable {condition further : Prop} {outcome : Except Fault String}

theorem Decides.exists_iff (decides : Decides condition uri outcome) :
    (∃ text, outcome = .ok text) ↔ condition := by
  constructor
  · rintro ⟨text, given⟩
    by_contra fails
    obtain ⟨_, _, violates⟩ := decides.violates fails
    rw [given] at violates
    cases violates
  · intro holds
    exact ⟨uri, decides.links holds⟩

theorem decides_link (path : RootedPath uri.toList) (formed : WellFormed uri.toList ↔ condition) :
    Decides condition uri (link uri) where
  links := fun holds => (link_rooted path).mpr ⟨rfl, formed.mpr holds⟩
  violates := by
    intro fails
    cases outcome : link uri with
    | ok text => exact absurd (formed.mp ((link_rooted path).mp outcome).2) fails
    | error fault =>
      obtain ⟨flaw, rfl⟩ := link_fails outcome
      exact ⟨uri, flaw, rfl⟩

theorem Decides.bind {follow : String → Except Fault String} (first : Decides condition uri outcome)
    (second : condition → Decides further text (follow uri)) :
    Decides (condition ∧ further) text (outcome >>= follow) where
  links := by
    rintro ⟨holds, further⟩
    rw [first.links holds]
    exact (second holds).links further
  violates := by
    intro fails
    by_cases holds : condition
    · rw [first.links holds]
      exact (second holds).violates fun further => fails ⟨holds, further⟩
    · obtain ⟨text, flaw, violates⟩ := first.violates holds
      rw [violates]
      exact ⟨text, flaw, rfl⟩

theorem ofRelationship_eq (base : Except Fault String) (identifier : Identifier) (name : String) :
    ofRelationship base identifier name =
      ofResource base identifier >>= fun resource => link (relationshipReference resource name) := by
  unfold ofRelationship
  cases ofResource base identifier <;> rfl

theorem ofRelated_eq (base : Except Fault String) (identifier : Identifier) (name : String) :
    ofRelated base identifier name =
      ofResource base identifier >>= fun resource => link (relatedReference resource name) := by
  unfold ofRelated
  cases ofResource base identifier <;> rfl

/-- What comes below a link is decided by what it adds. -/
theorem decides_below {space kind id next : String} {more : List Char} (anchored : Anchored space kind)
    (formed : WellFormed (resourceReference (Generator.joined "" space) kind id).toList)
    (shape : next.toList =
      (resourceReference (Generator.joined "" space) kind id).toList ++ '/' :: more)
    (added : WellFormed more ↔ further) : Decides further next (link next) := by
  apply decides_link
  · rw [shape]
    exact rootedPath_below anchored id _
  · rw [shape, wellFormed_slash, added]
    exact and_iff_right formed

/-- Under a name space without an origin, a resource has its link exactly if base, type and id are well
formed, each for itself, and so do its relationships and what they lead to if the name is, too; all else
is refused as no link. -/
theorem rooted_links (settings : Settings) (request : Option Request) (space id name : String)
    (kind : Identifier.Kind) (anchored : Anchored space kind.display) :
    ∃ generator base, Generator.ofOrigin "" "" space = .ok generator ∧
      Generator.base settings request generator = .ok base ∧
      Decides (WellFormed base.toList ∧ WellFormed kind.display.toList ∧ WellFormed id.toList)
        (base ++ "/" ++ kind.display ++ "/" ++ id) (ofResource (.ok base) (.existing kind id)) ∧
      Decides ((∃ uri, ofResource (.ok base) (.existing kind id) = .ok uri) ∧ WellFormed name.toList)
        (base ++ "/" ++ kind.display ++ "/" ++ id ++ "/relationships/" ++ name)
        (ofRelationship (.ok base) (.existing kind id) name) ∧
      Decides ((∃ uri, ofResource (.ok base) (.existing kind id) = .ok uri) ∧ WellFormed name.toList)
        (base ++ "/" ++ kind.display ++ "/" ++ id ++ "/" ++ name)
        (ofRelated (.ok base) (.existing kind id) name) := by
  have resource : Decides (WellFormed (Generator.joined "" space).toList ∧
      WellFormed kind.display.toList ∧ WellFormed id.toList)
      (resourceReference (Generator.joined "" space) kind.display id)
      (ofResource (.ok (Generator.joined "" space)) (.existing kind id)) := by
    have path := rootedPath_below anchored id []
    rw [List.append_nil] at path
    exact decides_link path wellFormed_resourceReference
  refine ⟨.origin "" "" space, Generator.joined "" space, rfl, rfl, resource, ?_, ?_⟩
  · rw [resource.exists_iff, ofRelationship_eq]
    apply resource.bind
    intro holds
    have word : WellFormed "relationships".toList := by decide
    apply decides_below anchored (wellFormed_resourceReference.mpr holds)
      (toList_relationshipReference _ _)
    rw [wellFormed_slash]
    exact and_iff_right word
  · rw [resource.exists_iff, ofRelated_eq]
    apply resource.bind
    intro holds
    exact decides_below anchored (wellFormed_resourceReference.mpr holds) (toList_relatedReference _ _)
      Iff.rfl

/-- Signs that have a meaning in references do not mislead, and half an escape is refused where it stands. -/
theorem versioned_links :
    ofResource (.ok "/api:80/v1") (.existing (.text "us@er") "[a%20?b") = .ok "/api:80/v1/us@er/[a%20?b" ∧
    ofRelationship (.ok "/api:80/v1") (.existing (.text "us@er") "[a%20?b") "#" =
      .ok "/api:80/v1/us@er/[a%20?b/relationships/#" ∧
    ∃ text flaw, ofRelated (.ok "/api:80/v1") (.existing (.text "us@er") "[a%20?b") "%4" =
      .error (.breach (.invalidUri text flaw)) := by
  have anchored : Anchored "//api:80/v1/" "us@er" := Or.inl ⟨'a', by decide, by decide⟩
  have base : Generator.joined "" "//api:80/v1/" = "/api:80/v1" := by decide +kernel
  obtain ⟨_, start, made, given, resource, relationship, _⟩ :=
    rooted_links (Settings.make none [] []) none "//api:80/v1/" "[a%20?b" "#" (.text "us@er") anchored
  obtain ⟨_, start', made', given', _, _, related⟩ :=
    rooted_links (Settings.make none [] []) none "//api:80/v1/" "[a%20?b" "%4" (.text "us@er") anchored
  cases Except.ok.inj made
  cases Except.ok.inj made'
  obtain rfl := base.symm.trans (Except.ok.inj given)
  obtain rfl := base.symm.trans (Except.ok.inj given')
  have formed : WellFormed "/api:80/v1".toList ∧ WellFormed "us@er".toList ∧
      WellFormed "[a%20?b".toList := by decide
  have links := resource.links formed
  exact ⟨links, relationship.links ⟨⟨_, links⟩, by decide⟩,
    related.violates fun holds => absurd holds.2 (by decide)⟩

/-! Links under one base. -/

inductive Target where
  | resource (kind id : String)
  | relationship (kind id name : String)
  | related (kind id name : String)
deriving DecidableEq

namespace Target

def address (base : Except Fault String) : Target → Except Fault String
  | .resource kind id => ofResource base (.existing (.text kind) id)
  | .relationship kind id name => ofRelationship base (.existing (.text kind) id) name
  | .related kind id name => ofRelated base (.existing (.text kind) id) name

/-- What stands between the slashes behind the base. -/
def segments : Target → List String
  | .resource kind id => [kind, id]
  | .relationship kind id name => [kind, id, "relationships", name]
  | .related kind id name => [kind, id, name]

def Plain : Target → Prop
  | .resource kind id => '/' ∉ kind.toList ∧ '/' ∉ id.toList
  | .relationship kind id name => '/' ∉ kind.toList ∧ '/' ∉ id.toList ∧ '/' ∉ name.toList
  | .related kind id name => '/' ∉ kind.toList ∧ '/' ∉ id.toList ∧ '/' ∉ name.toList

instance (target : Target) : Decidable target.Plain := by
  cases target <;> exact inferInstanceAs (Decidable (_ ∧ _))

/-- The number of segments tells the sorts of targets apart. -/
theorem segments_inj {target other : Target} (same : target.segments = other.segments) :
    target = other := by
  cases target <;> cases other <;> simp_all [segments]

end Target

theorem link_below {base : Except Fault String} {identifier : Identifier} {reference : String → String}
    (below : (ofResource base identifier >>= fun resource => link (reference resource)) = .ok uri) :
    ∃ resource, ofResource base identifier = .ok resource ∧ uri = reference resource := by
  cases outcome : ofResource base identifier with
  | error fault =>
    rw [outcome] at below
    cases below
  | ok resource =>
    rw [outcome] at below
    exact ⟨resource, rfl, (link_eq_ok_iff.mp below).1⟩

theorem ofResource_ok {base : Except Fault String} {kind : Identifier.Kind} {id : String}
    (given : ofResource base (.existing kind id) = .ok uri) :
    ∃ start, base = .ok start ∧ uri = resourceReference start kind.display id := by
  cases base with
  | error fault => cases given
  | ok start => exact ⟨start, rfl, (link_eq_ok_iff.mp given).1⟩

namespace Target

variable {base : Except Fault String} {target : Target}

theorem toList_address (given : target.address base = .ok uri) :
    ∃ start, base = .ok start ∧
      uri.toList = start.toList ++ '/' :: Text.joinWith ['/'] (target.segments.map String.toList) := by
  have shown (kind : String) : (Identifier.Kind.text kind).display = kind := rfl
  cases target with
  | resource kind id =>
    obtain ⟨start, rfl, rfl⟩ := ofResource_ok given
    refine ⟨start, rfl, ?_⟩
    rw [toList_resourceReference, shown]
    simp [segments, Text.joinWith]
  | relationship kind id name =>
    rw [address, ofRelationship_eq] at given
    obtain ⟨resource, found, rfl⟩ := link_below given
    obtain ⟨start, rfl, rfl⟩ := ofResource_ok found
    refine ⟨start, rfl, ?_⟩
    rw [toList_relationshipReference, toList_resourceReference, shown]
    simp [segments, Text.joinWith]
  | related kind id name =>
    rw [address, ofRelated_eq] at given
    obtain ⟨resource, found, rfl⟩ := link_below given
    obtain ⟨start, rfl, rfl⟩ := ofResource_ok found
    refine ⟨start, rfl, ?_⟩
    rw [toList_relatedReference, toList_resourceReference, shown]
    simp [segments, Text.joinWith]

theorem pieces_segments (plain : target.Plain) :
    Text.pieces '/' (Text.joinWith ['/'] (target.segments.map String.toList)) =
      target.segments.map String.toList := by
  have word : '/' ∉ "relationships".toList := by decide
  apply Text.pieces_joinWith
  · cases target <;> simp [segments]
  · cases target <;> simp_all [segments, Plain]

/-- Two links are the same only if they lead to the same target, also where a relationship or a resource
is called what stands in front of the names of relationships. -/
theorem address_inj (base : Except Fault String) (target other : Target) (plain : target.Plain)
    (plain' : other.Plain) (uri uri' : String) (given : target.address base = .ok uri)
    (given' : other.address base = .ok uri') : uri = uri' ↔ target = other := by
  constructor
  · rintro rfl
    obtain ⟨start, rfl, shape⟩ := toList_address given
    obtain ⟨_, same, shape'⟩ := toList_address given'
    cases same
    have joined := List.append_cancel_left (shape.symm.trans shape')
    have segments := congrArg (Text.pieces '/') (List.cons.inj joined).2
    rw [pieces_segments plain, pieces_segments plain'] at segments
    exact segments_inj (List.map_injective_iff.mpr (fun _ _ => String.toList_inj.mp) segments)
  · rintro rfl
    rw [given] at given'
    exact Except.ok.inj given'

/-- A relationship named like the word in front of names, and one without a name. -/
theorem relationships_apart :
    address (.ok "/posts/1") (.related "posts" "1" "relationships") =
      .ok "/posts/1/posts/1/relationships" ∧
    address (.ok "/posts/1") (.relationship "posts" "1" "") = .ok "/posts/1/posts/1/relationships/" ∧
    "/posts/1/posts/1/relationships" ≠ "/posts/1/posts/1/relationships/" := by
  have resource : ofResource (.ok "/posts/1") (.existing (.text "posts") "1") = .ok "/posts/1/posts/1" := by
    change link (resourceReference "/posts/1" "posts" "1") = _
    exact link_of_flaw? (by decide +kernel) (by decide +kernel)
  have related : address (.ok "/posts/1") (.related "posts" "1" "relationships") =
      .ok "/posts/1/posts/1/relationships" := by
    rw [address, ofRelated_eq, resource]
    change link (relatedReference "/posts/1/posts/1" "relationships") = _
    exact link_of_flaw? (by decide +kernel) (by decide +kernel)
  have relationship : address (.ok "/posts/1") (.relationship "posts" "1" "") =
      .ok "/posts/1/posts/1/relationships/" := by
    rw [address, ofRelationship_eq, resource]
    change link (relationshipReference "/posts/1/posts/1" "") = _
    exact link_of_flaw? (by decide +kernel) (by decide +kernel)
  refine ⟨related, relationship, ?_⟩
  rw [Ne, address_inj _ _ _ (by decide) (by decide) _ _ related relationship]
  decide

end Target

end JsonApi.Uri
