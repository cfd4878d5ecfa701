import JsonApi.Uri.Split

/-!
The links of a document are absolute references or absolute paths, made of the characters that
RFC 3986 allows.
-/

namespace JsonApi.Uri

inductive Flaw where
  | characters
  | escape
  | parts (error : SplitError)
  | port (error : PortError)
  | missingHost
  | relative
deriving DecidableEq, Repr

namespace Flaw

def remark : Flaw → String
  | .characters => ""
  | .escape => " (invalid percent encoding)"
  | .parts error => " (" ++ error.message ++ ")"
  | .port error => " (" ++ error.message ++ ")"
  | .missingHost => " (missing host)"
  | .relative => " (relative reference)"

end Flaw

def isUriChar (c : Char) : Bool :=
  c.isAlphanum ||
    ['-', '.', '_', '~', ':', '/', '?', '#', '[', ']', '@', '!', '$', '&', '\'', '(', ')', '*', '+',
      ',', ';', '=', '%'].contains c

def startsWithEscape : List Char → Bool
  | a :: b :: _ => Text.isHexDigit a && Text.isHexDigit b
  | _ => false

def escapesHold : List Char → Bool
  | [] => true
  | c :: rest => (c ≠ '%' || startsWithEscape rest) && escapesHold rest

def flaw? (uri : List Char) : Option Flaw :=
  if uri = [] ∨ !uri.all isUriChar then some .characters
  else if !escapesHold uri then some .escape
  else match split uri with
    | .error error => some (.parts error)
    | .ok parts =>
      match checkPort parts.authority with
      | .error error => some (.port error)
      | .ok () =>
        if parts.scheme ≠ [] ∧ parts.authority = [] then some .missingHost
        else if parts.scheme = [] ∧ uri.head? ≠ some '/' then some .relative
        else none

def check (uri : String) : Except Flaw String :=
  match flaw? uri.toList with
  | some flaw => .error flaw
  | none => .ok uri

end JsonApi.Uri
