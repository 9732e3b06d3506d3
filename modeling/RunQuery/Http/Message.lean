import RunQuery.Http.Exchange
import RunQuery.Http.Target
import RunQuery.Number.Reading

/-!
Messages on the wire of HTTP. A query is posted on a connection of its own, which the server closes. Of the
answer it is read what the status is and where the body ends: after so many bytes, after the last chunk,
or with the connection. Bytes stand here as the characters with their codes.
-/
namespace RunQuery.Http

/-- Where a query goes. -/
structure Address where
  host : String
  /-- The number under which the host answers. -/
  service : UInt16
  target : String
deriving DecidableEq

namespace Address

/-- Host and number of the service, which is that of the scheme unless it is given. -/
def ofAuthority? (authority : List Char) (target : List Char) : Option Address :=
  match Text.cutLast? ':' authority with
  | none => some ⟨String.ofList authority, 80, String.ofList target⟩
  | some (host, service) =>
    (Integer.parseWithin? 0 65535 service).map fun n =>
      ⟨String.ofList host, UInt16.ofNat n.toNat, String.ofList target⟩

/-- The address that a URL names, if it is one without encryption. -/
def ofUrl? (url : String) : Option Address :=
  match Text.cut? "http://".toList url.toList with
  | some ([], rest) =>
    let authority := rest.takeWhile fun c => !startsTarget c
    if authority.isEmpty then none
    else ofAuthority? authority (targetOf (rest.drop authority.length))
  | _ => none

end Address

/-- The message that posts a body. -/
def post (address : Address) (body : String) : String :=
  "POST " ++ address.target ++ " HTTP/1.1\r\nHost: " ++ address.host ++ ":" ++
    toString address.service.toNat ++ "\r\nAccept: */*\r\nContent-Type: application/json\r\n" ++
    "Content-Length: " ++ toString body.utf8ByteSize ++ "\r\nConnection: close\r\n\r\n" ++ body

def lineEnd : List Char := ['\r', '\n']

/-- Status of a first line such as `HTTP/1.1 200 OK`. -/
def statusOf? (line : List Char) : Option Nat :=
  match Text.segments ' ' line with
  | _ :: status :: _ => (Integer.parseUnsigned? (Text.trim status))
  | _ => none

/-- The value of a header whose name is given in lower case. -/
def header? (name : String) (lines : List (List Char)) : Option (List Char) :=
  lines.findSome? fun line =>
    match Text.cut? [':'] line with
    | some (found, value) =>
      if found.map Char.toLower = name.toList then some (Text.trim value) else none
    | none => none

/-- The number that hexadecimal digits spell. -/
def hexNumber? (ds : List Char) : Option Nat :=
  if ds.isEmpty then none
  else
    ds.foldl
      (fun n c => n.bind fun n => (Hex.value? (UInt8.ofNat c.toNat)).map fun digit => 16 * n + digit)
      (some 0)

/-- The chunks of a body up to the one of no length, joined. -/
def chunks? : (fuel : Nat) → List Char → Option (List Char)
  | 0, _ => none
  | fuel + 1, body => do
    let (line, rest) ← Text.cut? lineEnd body
    let length ← hexNumber? (Text.trim (line.takeWhile (· ≠ ';')))
    if length = 0 then some []
    else if rest.length < length then none
    else
      let later ← chunks? fuel (rest.drop (length + lineEnd.length))
      some (rest.take length ++ later)

/-- The body of an answer with the given headers, of all that came after them. -/
def bodyOf? (headers : List (List Char)) (rest : List Char) : Option (List Char) :=
  match header? "transfer-encoding" headers, header? "content-length" headers with
  | some _, _ => chunks? (rest.length + 1) rest
  | none, some length =>
    (Integer.parseUnsigned? length).bind fun n => if rest.length < n then none else some (rest.take n)
  | none, none => some rest

/-- The answer that bytes spell, if it is whole. -/
def readResponse? (bytes : List UInt8) : Option Response := do
  let message := bytes.map fun b => Char.ofNat b.toNat
  let (head, rest) ← Text.cut? (lineEnd ++ lineEnd) message
  let lines := (Text.segments '\n' head).map Text.trim
  let status ← statusOf? (← lines.head?)
  let body ← bodyOf? (lines.drop 1) rest
  let text ← Text.ofUtf8? (body.map fun c => UInt8.ofNat c.toNat)
  return ⟨status, text⟩

end RunQuery.Http
