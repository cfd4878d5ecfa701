import JsonApi.Text.Percent
import JsonApi.Text.Split

/-!
Internet addresses as they stand in brackets in an authority: version 6 with an optional zone,
perhaps ending in a version 4 address, or a future version.
-/

namespace JsonApi.Uri

/-- Up to three digits, at most 255, no needless zero in front. -/
def isOctet (text : List Char) : Bool :=
  text ≠ [] && text.all Char.isDigit && text.length ≤ 3 &&
    (text = ['0'] || text.head? ≠ some '0') &&
    text.foldl (fun n c => 10 * n + (c.toNat - 48)) 0 ≤ 255

def isVersion4 (text : List Char) : Bool :=
  let octets := Text.pieces '.' text
  octets.length = 4 && octets.all isOctet

def isHextet (text : List Char) : Bool :=
  text ≠ [] && text.all Text.isHexDigit && text.length ≤ 4

/-- Eight groups of hexadecimal digits, or fewer around one gap; the gap shows as an empty group,
two or three of them if it is at an end. -/
def isVersion6Groups (groups : List (List Char)) : Bool :=
  let inner := groups.tail.dropLast
  match inner.findIdx? (· = []) with
  | none => groups.length = 8 && groups.all isHextet
  | some gap =>
    let before := groups.take (gap + 1)
    let after := groups.drop (gap + 2)
    let before := if before = [[]] then [] else before
    let after := if after = [[]] then [] else after
    before.all isHextet && after.all isHextet && before.length + after.length < 8

/-- A zone is not empty and holds no percent sign. -/
def isVersion6 (text : List Char) : Bool :=
  let (address, zone) := Text.cut '%' text
  let zoneHolds := match zone with
    | none => true
    | some zone => zone ≠ [] && '%' ∉ zone
  let groups := Text.pieces ':' address
  let last := groups.getLast?.getD []
  let mixed := '.' ∈ last
  let groups := if mixed then groups.dropLast ++ [['0'], ['0']] else groups
  '/' ∉ text && zoneHolds && 3 ≤ (Text.pieces ':' address).length &&
    (!mixed || isVersion4 last) && isVersion6Groups groups

def isFutureVersion (text : List Char) : Bool :=
  let rest := text.tail.dropWhile Text.isHexDigit
  text.head? = some 'v' && (text.tail.head?.any Text.isHexDigit) && rest.head? = some '.' &&
    rest.tail ≠ []

end JsonApi.Uri
