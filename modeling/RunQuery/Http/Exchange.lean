import RunQuery.Json.Writer
import RunQuery.Slot.Basic
import RunQuery.Store.Memory
import RunQuery.Wire.Decode
import RunQuery.Wire.Encode

/-!
A record store behind HTTP: a request is posted as JSON, and the page comes back as JSON. The two ends
are `requestBody?` with `replyOf`, for the one who asks, and `serve`, which answers out of a memory
store.
-/
namespace RunQuery.Http

structure Response where
  status : Nat
  body : String

/-- The name of a status. -/
def reason? (status : Nat) : Option String :=
  [(100, "Continue"), (101, "Switching Protocols"), (102, "Processing"), (200, "OK"),
    (201, "Created"), (202, "Accepted"), (203, "Non Authoritative Information"),
    (204, "No Content"), (205, "Reset Content"), (206, "Partial Content"), (207, "Multi-Status"),
    (208, "Already Reported"), (226, "IM Used"), (300, "Multiple Choices"),
    (301, "Moved Permanently"), (302, "Found"), (303, "See Other"), (304, "Not Modified"),
    (305, "Use Proxy"), (307, "Temporary Redirect"), (308, "Permanent Redirect"),
    (400, "Bad Request"), (401, "Unauthorized"), (402, "Payment Required"), (403, "Forbidden"),
    (404, "Not Found"), (405, "Method Not Allowed"), (406, "Not Acceptable"),
    (407, "Proxy Authentication Required"), (408, "Request Timeout"), (409, "Conflict"),
    (410, "Gone"), (411, "Length Required"), (412, "Precondition Failed"),
    (413, "Payload Too Large"), (414, "URI Too Long"), (415, "Unsupported Media Type"),
    (416, "Range Not Satisfiable"), (417, "Expectation Failed"), (418, "I'm a teapot"),
    (421, "Misdirected Request"), (422, "Unprocessable Entity"), (423, "Locked"),
    (424, "Failed Dependency"), (426, "Upgrade Required"), (428, "Precondition Required"),
    (429, "Too Many Requests"), (431, "Request Header Fields Too Large"),
    (451, "Unavailable For Legal Reasons"), (500, "Internal Server Error"),
    (501, "Not Implemented"), (502, "Bad Gateway"), (503, "Service Unavailable"),
    (504, "Gateway Timeout"), (505, "HTTP Version Not Supported"),
    (506, "Variant Also Negotiates"), (507, "Insufficient Storage"), (508, "Loop Detected"),
    (510, "Not Extended"), (511, "Network Authentication Required")].lookup status

def statusText (status : Nat) : String :=
  toString status ++ " " ++ (reason? status).getD "<unknown status code>"

/-- The body that a request is posted with. -/
def requestBody? (request : Request) : Option String := Json.compact? request.toWire

/-- What is read of the body; responses of some statuses have none. -/
def Response.content (response : Response) : String :=
  if response.status = 204 ∨ response.status = 304 then "" else response.body

/-- What a response says. -/
def replyOf (response : Response) : Reply Page :=
  if 200 ≤ response.status ∧ response.status < 300 then
    (Json.decode Page.decode response.content.toList).mapError fun _ => ["malformed page result"]
  else .error ["store returned " ++ statusText response.status ++ ": " ++ response.content]

/-- What is said when nothing comes back. -/
def unreachable (endpoint : String) : Reply Page := .error ["POST " ++ endpoint]

/-- Whether a request asks for all records of one type. -/
def isListing (request : Request) : Bool :=
  match request.filter with
  | some ⟨some (.compare ⟨"$type", _, .literal _⟩), _⟩ => true
  | _ => false

/-- The page of a query, or the text of its error. -/
def respond : Except StoreError Page → Response
  | .ok page => ⟨200, (Json.compact? page.toWire).getD ""⟩
  | .error e => ⟨500, e.message⟩

/-- Answers a posted request out of a memory store. -/
def serve (memory : Memory) (request : Request) : Response × Memory :=
  let answered := memory.query request
  (respond answered.1, answered.2)

end RunQuery.Http
