import JsonApi.Value.Dump

/-!
Error objects: what a document says about one problem. Beyond the declared members they and two of
their parts take any further ones.
-/

namespace JsonApi

structure ErrorLinks where
  about : Option String
  type : Option String
  extra : Members

structure ErrorSource where
  pointer : Option String
  parameter : Option String
  header : Option String
  extra : Members

structure ErrorObject where
  id : Option String
  links : Option ErrorLinks
  status : Option String
  code : Option String
  title : Option String
  detail : Option String
  source : Option ErrorSource
  info : Option Members
  extra : Members

def textMember? (members : Members) (name : String) : Option String :=
  match Entries.get? members name with
  | some (.text s) => some s
  | _ => none

def membersOf (entries : List (Value × Value)) : Members :=
  entries.filterMap fun entry => match entry.1 with
    | .text name => some (name, entry.2)
    | _ => none

namespace ErrorLinks

def toValue (l : ErrorLinks) : Value :=
  .record .errorLinks [("about", .ofOption .text l.about), ("type_", .ofOption .text l.type)] l.extra

def ofValue? : Value → Option ErrorLinks
  | .record .errorLinks fields extra =>
    some ⟨textMember? fields "about", textMember? fields "type_", extra⟩
  | _ => none

end ErrorLinks

namespace ErrorSource

def toValue (s : ErrorSource) : Value :=
  .record .errorSource
    [("pointer", .ofOption .text s.pointer), ("parameter", .ofOption .text s.parameter),
      ("header", .ofOption .text s.header)]
    s.extra

def ofValue? : Value → Option ErrorSource
  | .record .errorSource fields extra =>
    some ⟨textMember? fields "pointer", textMember? fields "parameter",
      textMember? fields "header", extra⟩
  | _ => none

end ErrorSource

namespace ErrorObject

def empty : ErrorObject := ⟨none, none, none, none, none, none, none, none, []⟩

def unexpected : ErrorObject :=
  { empty with
    status := some "500"
    code := some "InternalServerFault"
    title := some "An unexpected error occurred. No more information is available." }

def fields (e : ErrorObject) : Members :=
  [("id", .ofOption .text e.id), ("links", .ofOption ErrorLinks.toValue e.links),
    ("status", .ofOption .text e.status), ("code", .ofOption .text e.code),
    ("title", .ofOption .text e.title), ("detail", .ofOption .text e.detail),
    ("source", .ofOption ErrorSource.toValue e.source), ("meta", .ofOption .ofMembers e.info)]

def toValue (e : ErrorObject) : Value := .record .errorObject e.fields e.extra

def ofValue? : Value → Option ErrorObject
  | .record .errorObject fields extra =>
    some {
      id := textMember? fields "id"
      links := (Entries.get? fields "links").bind ErrorLinks.ofValue?
      status := textMember? fields "status"
      code := textMember? fields "code"
      title := textMember? fields "title"
      detail := textMember? fields "detail"
      source := (Entries.get? fields "source").bind ErrorSource.ofValue?
      info := match Entries.get? fields "meta" with
        | some (.dict entries) => some (membersOf entries)
        | _ => none
      extra := extra }
  | _ => none

/-- The members of the object as a document shows them: the declared ones that are present, then the
others that are. -/
def members (e : ErrorObject) : Members :=
  Value.presentMembers .errorObject (Value.dumpFields e.fields) (Value.dumpFields e.extra)

end ErrorObject

end JsonApi
