import RunQuery.Text.Bytes
import RunQuery.Text.Parts

/-!
The target of a request: path and query of a URL as they are sent. The steps `.` and `..` are taken,
and a character that may not stand in a target is written as `%` and two digits for each of its bytes.
A fragment is not sent.
-/
namespace RunQuery.Http

/-- What may follow the host in a URL. -/
def startsTarget (c : Char) : Bool := c = '/' || c = '\\' || c = '?' || c = '#'

def percent (b : UInt8) : List Char := '%' :: (Hex.encode [b]).map Char.toUpper

/-- Writes characters of one list, and those that may stand nowhere in a target, by their bytes. -/
def escapeAll (special : List Char) (text : List Char) : List Char :=
  text.flatMap fun c =>
    if c.toNat ≤ 0x20 || 0x7f ≤ c.toNat || c ∈ ['"', '#', '<', '>'] || c ∈ special then
      (Text.utf8 (String.singleton c)).flatMap percent
    else [c]

def isHere (segment : List Char) : Bool :=
  String.ofList (segment.map Char.toLower) ∈ [".", "%2e"]

def isAbove (segment : List Char) : Bool :=
  String.ofList (segment.map Char.toLower) ∈ ["..", ".%2e", "%2e.", "%2e%2e"]

/-- Takes the steps among segments; `above` are those already passed, the last one first. A step at the end
leaves an empty segment. -/
def takeSteps (above : List (List Char)) : List (List Char) → List (List Char)
  | [] => above.reverse
  | segment :: rest =>
    if isHere segment || isAbove segment then
      let above := if isAbove segment then above.drop 1 else above
      takeSteps (if rest.isEmpty then [] :: above else above) rest
    else takeSteps (segment :: above) rest

/-- The path that is sent for the segments of a URL. -/
def pathOf (segments : List (List Char)) : List Char :=
  '/' :: ['/'].intercalate ((takeSteps [] segments).map (escapeAll ['\x60', '?', '{', '}']))

/-- The target that is sent for what follows the host. -/
def targetOf (text : List Char) : List Char :=
  let sent := (text.filter fun c => !(c = '\t' || c = '\n' || c = '\r')).takeWhile (· ≠ '#')
  let path := sent.takeWhile (· ≠ '?')
  let segments := Text.segments '/' (path.map fun c => if c = '\\' then '/' else c)
  pathOf (segments.drop 1) ++ escapeAll ['\''] (sent.drop path.length)

end RunQuery.Http
