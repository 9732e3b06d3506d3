/-!
Text as bytes, and bytes as hexadecimal text. Reading back what was written gives the same text and
the same bytes.
-/
namespace RunQuery.Text

/-- The bytes of a text in UTF-8. -/
def utf8 (s : String) : List UInt8 := s.toByteArray.data.toList

/-- The text that bytes spell in UTF-8, if they do. -/
def ofUtf8? (bytes : List UInt8) : Option String := String.fromUTF8? ⟨bytes.toArray⟩

theorem ofUtf8?_utf8 (s : String) : ofUtf8? (utf8 s) = some s := by
  rw [ofUtf8?, utf8, Array.toArray_toList]
  exact dif_pos s.isValidUTF8

end RunQuery.Text

namespace RunQuery.Hex

/-- Why a text is not the hexadecimal form of bytes. -/
inductive Fault where
  | oddLength
  | invalidDigit (byte : UInt8) (position : Nat)
deriving DecidableEq

def digit (n : Nat) : Char := Nat.digitChar n

/-- Two lower-case digits a byte. -/
def encode (bytes : List UInt8) : List Char :=
  bytes.flatMap fun b => [digit (b.toNat / 16), digit (b.toNat % 16)]

/-- The value of a digit in either case. -/
def value? (byte : UInt8) : Option Nat :=
  let n := byte.toNat
  if 0x30 ≤ n ∧ n ≤ 0x39 then some (n - 0x30)
  else if 0x61 ≤ n ∧ n ≤ 0x66 then some (n - 0x61 + 10)
  else if 0x41 ≤ n ∧ n ≤ 0x46 then some (n - 0x41 + 10)
  else none

/-- Reads two digits a byte from `position` on. -/
def decodePairs (position : Nat) : List UInt8 → Except Fault (List UInt8)
  | [] => .ok []
  | [_] => .error .oddLength
  | high :: low :: rest =>
    match value? high, value? low with
    | none, _ => .error (.invalidDigit high position)
    | some _, none => .error (.invalidDigit low (position + 1))
    | some h, some l => (decodePairs (position + 2) rest).map (UInt8.ofNat (16 * h + l) :: ·)

/-- The bytes that a hexadecimal text spells; an odd length is noticed first. -/
def decode (text : List UInt8) : Except Fault (List UInt8) :=
  if text.length % 2 = 1 then .error .oddLength else decodePairs 0 text

end RunQuery.Hex
