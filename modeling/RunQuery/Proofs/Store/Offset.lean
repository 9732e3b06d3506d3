import RunQuery.Store.Window

/-!
Tokens of offsets. Below two to the power of 64, an offset comes back from its token: the two digits of a byte
spell it, and the bytes spell the offset from its lowest place up.
-/
namespace RunQuery

theorem Text.utf8_ofList (chars : List Char) :
    Text.utf8 (String.ofList chars) = chars.flatMap String.utf8EncodeChar := by
  rw [Text.utf8, String.toByteArray_ofList, List.utf8Encode, List.data_toByteArray]

namespace Hex

/-- A digit is one byte, which has its value. -/
theorem utf8_digit : ∀ n < 16, String.utf8EncodeChar (digit n) = [UInt8.ofNat (digit n).toNat] ∧
    value? (UInt8.ofNat (digit n).toNat) = some n := by
  decide

theorem decodePairs_encode (bytes : List UInt8) (position : Nat) :
    decodePairs position ((encode bytes).flatMap String.utf8EncodeChar) = .ok bytes := by
  induction bytes generalizing position with
  | nil => rfl
  | cons b rest ih =>
    have bound := b.toNat_lt
    obtain ⟨highByte, high⟩ := utf8_digit (b.toNat / 16) (by omega)
    obtain ⟨lowByte, low⟩ := utf8_digit (b.toNat % 16) (by omega)
    have whole : UInt8.ofNat (16 * (b.toNat / 16) + b.toNat % 16) = b := by
      rw [Nat.div_add_mod, UInt8.ofNat_toNat]
    rw [encode, List.flatMap_cons, List.flatMap_append, ← encode]
    simp only [List.flatMap_cons, List.flatMap_nil, highByte, lowByte, List.cons_append, List.nil_append, decodePairs,
      high, low, ih, whole]
    rfl

theorem length_encode (bytes : List UInt8) :
    ((encode bytes).flatMap String.utf8EncodeChar).length = 2 * bytes.length := by
  induction bytes with
  | nil => rfl
  | cons b rest ih =>
    have bound := b.toNat_lt
    have high := (utf8_digit (b.toNat / 16) (by omega)).1
    have low := (utf8_digit (b.toNat % 16) (by omega)).1
    rw [encode, List.flatMap_cons, List.flatMap_append, ← encode, List.length_append, ih]
    simp only [List.flatMap_cons, List.flatMap_nil, high, low, List.length_append, List.length_cons, List.length_nil]
    omega

theorem decode_encode (bytes : List UInt8) : decode (Text.utf8 (String.ofList (encode bytes))) = .ok bytes := by
  rw [Text.utf8_ofList, decode, if_neg (by rw [length_encode]; omega)]
  exact decodePairs_encode bytes 0

end Hex

namespace Offset

theorem length_littleEndian (width n : Nat) : (littleEndian width n).length = width := by
  induction width generalizing n with
  | zero => rfl
  | succ width ih => rw [littleEndian, List.length_cons, ih]

theorem ofLittleEndian_littleEndian {width n : Nat} (fits : n < Nat.pow 256 width) :
    ofLittleEndian (littleEndian width n) = n := by
  induction width generalizing n with
  | zero =>
    have zero : n = 0 := by simpa using fits
    subst zero
    rfl
  | succ width ih =>
    have high : n / 256 < Nat.pow 256 width := by
      rw [Nat.div_lt_iff_lt_mul (by decide)]
      exact fits
    rw [littleEndian]
    show (UInt8.ofNat n).toNat + 256 * ofLittleEndian (littleEndian width (n / 256)) = n
    rw [ih high, UInt8.toNat_ofNat']
    exact Nat.mod_add_div n 256

theorem ofToken_token {offset : Nat} (fits : offset < 0x10000000000000000) :
    ofToken (token offset) = .ok offset := by
  rw [ofToken, token, Hex.decode_encode]
  show (if (littleEndian 8 offset).length = 8 then _ else _) = _
  rw [if_pos (length_littleEndian 8 offset), ofLittleEndian_littleEndian fits]

end Offset

end RunQuery
