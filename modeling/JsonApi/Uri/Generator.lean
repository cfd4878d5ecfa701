import JsonApi.Settings
import JsonApi.Uri.Layout

/-!
Where the links of a document start: at a fixed base, at an origin with a name space, or at the root
of the request that is being answered.
-/

namespace JsonApi

structure Request where
  url : String
  root : String
deriving DecidableEq, Repr

namespace Uri

inductive Generator where
  | fixed (base : String)
  | origin (protocol host space : String)
  | ofRequest (space : String)
deriving DecidableEq, Repr

namespace Generator

def rooted : Generator := .fixed ""

/-- An origin has both protocol and host, or neither. -/
def ofOrigin (protocol host space : String) : Except Fault Generator :=
  if (protocol = "") = (host = "") then .ok (.origin protocol host space) else .error .halfOrigin

/-- The root of links outside of requests; what counts as false is no root. -/
def configuredRoot (settings : Settings) : Except Fault String :=
  let root := settings.baseUrl
  if root.isTruthy then
    match root with
    | .text root => .ok root
    | .bytes _ => .error .wrongType
    | _ => .error .noSuchMember
  else .ok ""

def joined (root space : String) : String := String.ofList (joinBase root.toList space.toList)

def base (settings : Settings) (request : Option Request) : Generator → Except Fault String
  | .fixed base => .ok base
  | .origin protocol host space =>
    .ok (joined (if host = "" then "" else protocol ++ "://" ++ host) space)
  | .ofRequest space =>
    match request with
    | some request => .ok (joined request.root space)
    | none =>
      match configuredRoot settings with
      | .ok root => .ok (joined root space)
      | .error fault => .error fault

end Generator

end Uri

end JsonApi
