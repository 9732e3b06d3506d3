import RunQuery.Query
import RunQuery.Text.Bytes
import RunQuery.Text.Quoted

/-!
Pages of a sorted result. A token is an offset in sixteen hexadecimal digits, the lowest byte first: the
start of a page for a forward cursor, and the end of one for a backward cursor. `Window.of` cuts a
window out of the result, and a page carries a token for each side on which the result goes on.
-/
namespace RunQuery

inductive TokenError where
  | malformed (token : String) (fault : Hex.Fault)
  | wrongLength (token : String)
deriving DecidableEq

namespace Hex

def Fault.message : Fault → String
  | .oddLength => "Odd number of digits"
  | .invalidDigit byte position =>
    "Invalid character " ++ Text.quotedChar (Char.ofNat byte.toNat) ++ " at position " ++
      toString position

end Hex

/-- The causes of an error, the outermost first. -/
def TokenError.causes : TokenError → List String
  | .malformed token fault => ["malformed cursor " ++ Text.quoted token, fault.message]
  | .wrongLength token => ["cursor " ++ Text.quoted token ++ " must encode 8 bytes"]

namespace Offset

/-- The lowest `width` bytes of a number, the lowest first. -/
def littleEndian : (width : Nat) → Nat → List UInt8
  | 0, _ => []
  | width + 1, n => UInt8.ofNat n :: littleEndian width (n / 256)

def ofLittleEndian (bytes : List UInt8) : Nat := bytes.foldr (fun b n => b.toNat + 256 * n) 0

def token (offset : Nat) : String := String.ofList (Hex.encode (littleEndian 8 offset))

def ofToken (token : String) : Except TokenError Nat :=
  match Hex.decode (Text.utf8 token) with
  | .error fault => .error (.malformed token fault)
  | .ok bytes =>
    if bytes.length = 8 then .ok (ofLittleEndian bytes) else .error (.wrongLength token)

end Offset

/-- The part of a result from `start` up to `stop`. -/
structure Window where
  start : Nat
  stop : Nat
deriving DecidableEq

namespace Window

/-- The window of at most `limit` records that a cursor points at, in a result of `total` records. -/
def of (total limit : Nat) : Option Cursor → Except TokenError Window
  | none => .ok ⟨0, min limit total⟩
  | some (.forward token) =>
    (Offset.ofToken token).map fun offset =>
      let start := min offset total
      ⟨start, min (start + limit) total⟩
  | some (.backward token) =>
    (Offset.ofToken token).map fun offset =>
      let stop := min offset total
      ⟨stop - limit, stop⟩

/-- The page in a window of a result. -/
def page (window : Window) (records : List Record) : Page where
  records := (records.take window.stop).drop window.start
  next := if window.stop < records.length then some (Offset.token window.stop) else none
  previous := if 0 < window.start then some (Offset.token window.start) else none

end Window

end RunQuery
