import JsonApi.Text.Quoted
import JsonApi.Uri.Address

/-!
Taking a reference apart into scheme, authority, path, query and fragment. Blanks and controls in
front and line breaks and tabs anywhere are dropped first; brackets in the authority must hold an
address, and characters that a compatibility form would turn into a separator are refused there.
-/

namespace JsonApi.Uri

inductive SplitError where
  | brackets
  | futureAddress
  | noAddress (host : List Char)
  | version4
  | unsafeAuthority (authority : List Char)
deriving DecidableEq, Repr

namespace SplitError

def message : SplitError → String
  | .brackets => "Invalid IPv6 URL"
  | .futureAddress => "IPvFuture address is invalid"
  | .noAddress host =>
    Text.quoted (String.ofList host) ++ " does not appear to be an IPv4 or IPv6 address"
  | .version4 => "An IPv4 address cannot be in brackets"
  | .unsafeAuthority authority =>
    "netloc '" ++ String.ofList authority ++
      "' contains invalid characters under NFKC normalization"

end SplitError

structure Parts where
  scheme : List Char
  authority : List Char
  path : List Char
  query : List Char
  fragment : List Char
deriving DecidableEq, Repr

def isDropped (c : Char) : Bool := c = '\t' || c = '\r' || c = '\n'

/-- Blanks and controls in front go, line breaks and tabs go everywhere. -/
def cleaned (uri : List Char) : List Char :=
  (uri.dropWhile fun c => c.toNat ≤ 32).filter fun c => !isDropped c

def isSchemeChar (c : Char) : Bool := c.isAlphanum || c = '+' || c = '-' || c = '.'

/-- The scheme in small letters, if there is one, and what follows it. -/
def splitScheme (uri : List Char) : List Char × List Char :=
  match Text.cut ':' uri with
  | (scheme, some rest) =>
    if scheme.head?.any Char.isAlpha ∧ scheme.all isSchemeChar then (scheme.map Char.toLower, rest)
    else ([], uri)
  | (_, none) => ([], uri)

def endsAuthority (c : Char) : Bool := c = '/' || c = '?' || c = '#'

def splitAuthority : List Char → List Char × List Char
  | '/' :: '/' :: rest =>
    (rest.takeWhile (!endsAuthority ·), rest.dropWhile (!endsAuthority ·))
  | rest => ([], rest)

def hostAndPort (authority : List Char) : List Char := Text.afterLast '@' authority

def checkAddress (host : List Char) : Except SplitError Unit :=
  if host.head? = some 'v' then
    if isFutureVersion host then .ok () else .error .futureAddress
  else if '/' ∉ host ∧ isVersion4 host then .error .version4
  else if isVersion6 host then .ok ()
  else .error (.noAddress host)

/-- Brackets come in pairs, stand around all of the host, and only a port follows them. -/
def checkBrackets (authority : List Char) : Except SplitError Unit :=
  if '[' ∈ authority ∧ ']' ∈ authority then
    let rest := hostAndPort authority
    match Text.cut '[' rest with
    | (before, some bracketed) =>
      if before ≠ [] then .error .brackets
      else
        let (host, after) := Text.cut ']' bracketed
        let after := after.getD []
        if after ≠ [] ∧ after.head? ≠ some ':' then .error .brackets else checkAddress host
    | (_, none) => checkAddress (Text.cut ':' rest).1
  else if '[' ∈ authority ∨ ']' ∈ authority then .error .brackets
  else .ok ()

/-- Characters whose compatibility form contains a slash, a question mark, a number sign, an at sign
or a colon. -/
def unsafeCompatibility : List Nat :=
  [0x2047, 0x2048, 0x2049, 0x2100, 0x2101, 0x2105, 0x2106, 0x2a74, 0xfe13, 0xfe16, 0xfe55, 0xfe56,
   0xfe5f, 0xfe6b, 0xff03, 0xff0f, 0xff1a, 0xff1f, 0xff20]

def checkAuthority (authority : List Char) : Except SplitError Unit :=
  if authority.any fun c => c.toNat ∈ unsafeCompatibility then .error (.unsafeAuthority authority)
  else .ok ()

def split (uri : List Char) : Except SplitError Parts := do
  let (scheme, rest) := splitScheme (cleaned uri)
  let (authority, rest) := splitAuthority rest
  checkBrackets authority
  let (rest, fragment) := Text.cut '#' rest
  let (path, query) := Text.cut '?' rest
  checkAuthority authority
  return ⟨scheme, authority, path, query.getD [], fragment.getD []⟩

inductive PortError where
  | notNumeric (port : List Char)
  | tooLong (digits : Nat)
  | outOfRange
deriving DecidableEq, Repr

namespace PortError

def message : PortError → String
  | .notNumeric port =>
    "Port could not be cast to integer value as " ++ Text.quoted (String.ofList port)
  | .tooLong digits =>
    "Exceeds the limit (4300 digits) for integer string conversion: value has " ++
      toString digits ++ " digits; use sys.set_int_max_str_digits() to increase the limit"
  | .outOfRange => "Port out of range 0-65535"

end PortError

def portText (authority : List Char) : List Char :=
  let rest := hostAndPort authority
  let afterHost := match Text.cut '[' rest with
    | (_, some bracketed) => ((Text.cut ']' bracketed).2).getD []
    | (_, none) => rest
  ((Text.cut ':' afterHost).2).getD []

def checkPort (authority : List Char) : Except PortError Unit :=
  let port := portText authority
  if port = [] then .ok ()
  else if !port.all Char.isDigit then .error (.notNumeric port)
  else if 4300 < port.length then .error (.tooLong port.length)
  else if 65535 < port.foldl (fun n c => 10 * n + (c.toNat - 48)) 0 then .error .outOfRange
  else .ok ()

end JsonApi.Uri
