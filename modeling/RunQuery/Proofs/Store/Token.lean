import RunQuery.Proofs.Store.Bounds

/-!
Which texts are tokens of offsets. A token is read digit by digit, in either case, and a text is read as an offset
exactly if its lower-case form is the token that the offset is given. So a text is a token if it has sixteen hexadecimal
digits and nothing else, and two texts mark one offset only if they differ in the case of their letters.
-/
namespace RunQuery

namespace Hex

/-- The hexadecimal digits, in either case. -/
def digits : List Char := "0123456789abcdefABCDEF".toList

def digitValue (c : Char) : Nat := "0123456789abcdef".toList.idxOf c.toLower

/-- A digit is one byte, which has its value, and is written back in lower case. -/
theorem of_mem_digits {c : Char} (digital : c ∈ digits) : String.utf8EncodeChar c = [UInt8.ofNat c.toNat] ∧
    value? (UInt8.ofNat c.toNat) = some (digitValue c) ∧ digitValue c < 16 ∧ digit (digitValue c) = c.toLower := by
  have all : digits.all fun c => String.utf8EncodeChar c = [UInt8.ofNat c.toNat] ∧
      value? (UInt8.ofNat c.toNat) = some (digitValue c) ∧ digitValue c < 16 ∧ digit (digitValue c) = c.toLower := by
    decide
  exact of_decide_eq_true (List.all_eq_true.mp all c digital)

theorem digit_mem_digits : ∀ n < 16, digit n ∈ digits ∧ "0123456789abcdef".toList.idxOf (digit n) = n := by
  decide

/-- A character beyond the first 128 has a byte that is no digit. -/
theorem value?_beyond {c : Char} (beyond : 0x7f < c.toNat) : ∃ b ∈ String.utf8EncodeChar c, value? b = none := by
  have large : ∃ b ∈ String.utf8EncodeChar c, 0x80 ≤ b.toNat := by
    have long : ¬ c.val.toNat ≤ 0x7f := Nat.not_le.mpr beyond
    rw [String.utf8EncodeChar]
    simp only [if_neg long]
    split
    next => exact ⟨_, List.mem_cons_self, by simp; omega⟩
    next =>
      split
      next => exact ⟨_, List.mem_cons_self, by simp; omega⟩
      next => exact ⟨_, List.mem_cons_self, by simp; omega⟩
  obtain ⟨b, member, large⟩ := large
  refine ⟨b, member, ?_⟩
  rw [value?, if_neg (by omega), if_neg (by omega), if_neg (by omega)]

theorem mem_digits_of_byte : ∀ n < 0x80, (value? (UInt8.ofNat n)).isSome = true → Char.ofNat n ∈ digits := by
  decide +kernel

/-- Digits are the characters all of whose bytes have values. -/
theorem mem_digits_of_utf8 {c : Char} (valued : ∀ b ∈ String.utf8EncodeChar c, (value? b).isSome = true) :
    c ∈ digits := by
  by_cases beyond : 0x7f < c.toNat
  · obtain ⟨b, member, none⟩ := value?_beyond beyond
    have some := valued b member
    rw [none] at some
    cases some
  · have first : UInt8.ofNat c.toNat ∈ String.utf8EncodeChar c := by
      have short : c.val.toNat ≤ 0x7f := Nat.not_lt.mp beyond
      rw [String.utf8EncodeChar]
      simp only [if_pos short]
      exact List.mem_singleton_self _
    have digital := mem_digits_of_byte c.toNat (by omega) (valued _ first)
    rwa [Char.ofNat_toNat] at digital

theorem mem_digits_of_small : ∀ n < 0x80, (Char.ofNat n).toLower ∈ digits → Char.ofNat n ∈ digits := by
  decide +kernel

/-- What is a digit in lower case is a digit. -/
theorem mem_digits_of_toLower {c : Char} (digital : c.toLower ∈ digits) : c ∈ digits := by
  by_cases small : c.toNat < 0x80
  · have known := mem_digits_of_small c.toNat small
    rw [Char.ofNat_toNat] at known
    exact known digital
  · have same : c.toLower = c := by
      refine dif_neg fun upper => small ?_
      exact Nat.lt_of_le_of_lt (UInt32.le_iff_toNat_le.mp upper.2) (by decide)
    rwa [same] at digital

/-- Digits in pairs are read as the bytes that are written as their lower-case forms. -/
theorem decodePairs_of_digits {chars : List Char} (digital : ∀ c ∈ chars, c ∈ digits) (even : chars.length % 2 = 0)
    (position : Nat) :
    ∃ bytes, decodePairs position (chars.flatMap String.utf8EncodeChar) = .ok bytes ∧
      encode bytes = chars.map Char.toLower := by
  match chars with
  | [] => exact ⟨[], rfl, rfl⟩
  | [_] => cases even
  | high :: low :: rest =>
    obtain ⟨highByte, highValue, highBound, highDigit⟩ := of_mem_digits (digital high (by simp))
    obtain ⟨lowByte, lowValue, lowBound, lowDigit⟩ := of_mem_digits (digital low (by simp))
    have others : ∀ c ∈ rest, c ∈ digits := fun c member => digital c (by simp [member])
    have fewer : rest.length % 2 = 0 := by
      simp only [List.length_cons] at even
      omega
    obtain ⟨bytes, read, written⟩ := decodePairs_of_digits others fewer (position + 2)
    refine ⟨UInt8.ofNat (16 * digitValue high + digitValue low) :: bytes, ?_, ?_⟩
    · simp only [List.flatMap_cons, highByte, lowByte, List.cons_append, List.nil_append, decodePairs, highValue,
        lowValue, read]
      rfl
    · have fits : 16 * digitValue high + digitValue low < 256 := by omega
      have whole := UInt8.toNat_ofNat_of_lt' fits
      have above : (16 * digitValue high + digitValue low) / 16 = digitValue high := by omega
      have below : (16 * digitValue high + digitValue low) % 16 = digitValue low := by omega
      rw [encode, List.flatMap_cons, ← encode, written, whole, above, below, highDigit, lowDigit]
      rfl

/-- Where pairs are read, every byte has a value. -/
theorem value?_of_decodePairs {position : Nat} {text bytes : List UInt8}
    (read : decodePairs position text = .ok bytes) : ∀ b ∈ text, (value? b).isSome = true := by
  match text with
  | [] => simp
  | [_] => cases read
  | high :: low :: rest =>
    rw [decodePairs] at read
    split at read
    next => cases read
    next => cases read
    next h l highValue lowValue =>
      obtain ⟨others, later, -⟩ := map_eq_ok read
      intro b member
      rcases List.mem_cons.mp member with rfl | member
      · simp [highValue]
      · rcases List.mem_cons.mp member with rfl | member
        · simp [lowValue]
        · exact value?_of_decodePairs later b member

section Read

variable {chars : List Char} {bytes : List UInt8}

theorem length_utf8_of_digits (digital : ∀ c ∈ chars, c ∈ digits) :
    (chars.flatMap String.utf8EncodeChar).length = chars.length := by
  induction chars with
  | nil => rfl
  | cons c rest ih =>
    have one := (of_mem_digits (digital c List.mem_cons_self)).1
    rw [List.flatMap_cons, List.length_append, ih fun d member => digital d (List.mem_cons_of_mem c member), one]
    exact Nat.add_comm ..

theorem encode_cons (b : UInt8) (rest : List UInt8) :
    encode (b :: rest) = digit (b.toNat / 16) :: digit (b.toNat % 16) :: encode rest := rfl

theorem mem_digits_of_mem_encode : ∀ c ∈ encode bytes, c ∈ digits := by
  intro c member
  obtain ⟨b, -, half⟩ := List.mem_flatMap.mp member
  have bound := b.toNat_lt
  have known (n : Nat) (small : n < 16) : digit n ∈ digits := (digit_mem_digits n small).1
  rcases List.mem_cons.mp half with rfl | half
  · exact known _ (by omega)
  · rw [List.mem_singleton.mp half]
    exact known _ (by omega)

theorem length_chars_encode (bytes : List UInt8) : (encode bytes).length = 2 * bytes.length := by
  rw [← length_utf8_of_digits mem_digits_of_mem_encode, length_encode]

/-- A text whose lower-case form bytes are written as has two digits for each byte, and nothing else. -/
theorem digits_of_encode (written : encode bytes = chars.map Char.toLower) :
    (∀ c ∈ chars, c ∈ digits) ∧ chars.length = 2 * bytes.length := by
  constructor
  · intro c member
    exact mem_digits_of_toLower (mem_digits_of_mem_encode _ (written ▸ List.mem_map_of_mem member))
  · rw [← length_chars_encode, written, List.length_map]

theorem encode_injective : Function.Injective encode := by
  intro first second same
  have read := decode_encode first
  rw [same, decode_encode second] at read
  exact (Except.ok.inj read).symm

/-- A text is read as the bytes that are written as its lower-case form. -/
theorem decode_eq_ok_iff {text : String} :
    decode (Text.utf8 text) = .ok bytes ↔ encode bytes = text.toList.map Char.toLower := by
  obtain ⟨chars, rfl⟩ : ∃ chars, text = String.ofList chars := ⟨text.toList, String.ofList_toList.symm⟩
  rw [Text.utf8_ofList, String.toList_ofList]
  have readAs (digital : ∀ c ∈ chars, c ∈ digits) (even : chars.length % 2 = 0) :
      ∃ bytes, decode (chars.flatMap String.utf8EncodeChar) = .ok bytes ∧ encode bytes = chars.map Char.toLower := by
    obtain ⟨bytes, read, written⟩ := decodePairs_of_digits digital even 0
    refine ⟨bytes, ?_, written⟩
    rw [decode, length_utf8_of_digits digital, if_neg (by omega), read]
  constructor
  · intro read
    have pairs : (chars.flatMap String.utf8EncodeChar).length % 2 ≠ 1 ∧
        decodePairs 0 (chars.flatMap String.utf8EncodeChar) = .ok bytes := by
      rw [decode] at read
      split at read
      next => cases read
      next even => exact ⟨even, read⟩
    have digital : ∀ c ∈ chars, c ∈ digits := fun c member => mem_digits_of_utf8 fun b inside =>
      value?_of_decodePairs pairs.2 b (List.mem_flatMap.mpr ⟨c, member, inside⟩)
    have even := pairs.1
    rw [length_utf8_of_digits digital] at even
    obtain ⟨others, again, written⟩ := readAs digital (by omega)
    rw [read] at again
    rw [Except.ok.inj again, written]
  · intro written
    obtain ⟨digital, length⟩ := digits_of_encode written
    obtain ⟨others, read, again⟩ := readAs digital (by omega)
    rw [read, encode_injective (written.trans again.symm)]

end Read

end Hex

namespace Offset

/-- The number that digits spell, two a byte, the lowest byte first. -/
def spelled : List Char → Nat
  | high :: low :: rest => 16 * Hex.digitValue high + Hex.digitValue low + 256 * spelled rest
  | _ => 0

theorem littleEndian_ofLittleEndian (bytes : List UInt8) :
    littleEndian bytes.length (ofLittleEndian bytes) = bytes := by
  induction bytes with
  | nil => rfl
  | cons b rest ih =>
    have bound := b.toNat_lt
    show UInt8.ofNat (b.toNat + 256 * ofLittleEndian rest) ::
      littleEndian rest.length ((b.toNat + 256 * ofLittleEndian rest) / 256) = b :: rest
    have low : UInt8.ofNat (b.toNat + 256 * ofLittleEndian rest) = b := by
      apply UInt8.toNat_inj.mp
      rw [UInt8.toNat_ofNat']
      omega
    have high : (b.toNat + 256 * ofLittleEndian rest) / 256 = ofLittleEndian rest := by omega
    rw [low, high, ih]

/-- Bytes have the number that is spelled by any text whose lower-case form they are written as. -/
theorem spelled_eq {chars : List Char} {bytes : List UInt8} (written : Hex.encode bytes = chars.map Char.toLower) :
    spelled chars = ofLittleEndian bytes := by
  induction bytes generalizing chars with
  | nil =>
    obtain rfl := List.map_eq_nil_iff.mp written.symm
    rfl
  | cons b rest ih =>
    have bound := b.toNat_lt
    rw [Hex.encode_cons] at written
    obtain ⟨high, later, rfl, highDigit, written⟩ := List.map_eq_cons_iff.mp written.symm
    obtain ⟨low, others, rfl, lowDigit, written⟩ := List.map_eq_cons_iff.mp written
    have value {c : Char} {n : Nat} (small : n < 16) (same : c.toLower = Hex.digit n) : Hex.digitValue c = n := by
      rw [Hex.digitValue, same, (Hex.digit_mem_digits n small).2]
    rw [spelled, ih written.symm, value (by omega) highDigit, value (by omega) lowDigit, Nat.div_add_mod]
    rfl

section Read

variable {text : String} {offset : Nat}

/-- A text is read as an offset if its bytes are eight. -/
theorem ofToken_eq_ok_iff_bytes :
    ofToken text = .ok offset ↔ ∃ bytes, Hex.encode bytes = text.toList.map Char.toLower ∧ bytes.length = 8 ∧
      offset = ofLittleEndian bytes := by
  simp only [← Hex.decode_eq_ok_iff]
  rw [ofToken]
  cases read : Hex.decode (Text.utf8 text) with
  | error fault => simp
  | ok bytes => by_cases eight : bytes.length = 8 <;> simp [eight, eq_comm]

theorem toList_toLower (text : String) : text.toLower.toList = text.toList.map Char.toLower := String.toList_map

/-- A text is read as an offset if its lower-case form is the token of the offset. -/
theorem ofToken_eq_ok_iff :
    ofToken text = .ok offset ↔ offset < 0x10000000000000000 ∧ token offset = text.toLower := by
  have lower (chars : List Char) : String.ofList chars = text.toLower ↔ chars = text.toList.map Char.toLower := by
    rw [← String.toList_inj, String.toList_ofList, toList_toLower]
  rw [token, lower]
  constructor
  · intro read
    refine ⟨ofToken_lt read, ?_⟩
    obtain ⟨bytes, written, eight, rfl⟩ := ofToken_eq_ok_iff_bytes.mp read
    rw [← eight, littleEndian_ofLittleEndian, written]
  · rintro ⟨fits, written⟩
    have value : ofLittleEndian (littleEndian 8 offset) = offset := ofLittleEndian_littleEndian fits
    exact ofToken_eq_ok_iff_bytes.mpr ⟨_, written, length_littleEndian 8 offset, value.symm⟩

/-- A text is read as the offset that it spells, if it has sixteen digits and nothing else. -/
theorem ofToken_eq_ok_iff_spelled :
    ofToken text = .ok offset ↔
      (text.toList.length = 16 ∧ ∀ c ∈ text.toList, c ∈ Hex.digits) ∧ offset = spelled text.toList := by
  rw [ofToken_eq_ok_iff_bytes]
  constructor
  · rintro ⟨bytes, written, eight, rfl⟩
    obtain ⟨digital, length⟩ := Hex.digits_of_encode written
    exact ⟨⟨by omega, digital⟩, (spelled_eq written).symm⟩
  · rintro ⟨⟨sixteen, digital⟩, rfl⟩
    obtain ⟨bytes, -, written⟩ := Hex.decodePairs_of_digits digital (by omega) 0
    have length := (Hex.digits_of_encode written).2
    exact ⟨bytes, written, by omega, spelled_eq written⟩

end Read

/-- Tokens are a code for offsets. A text is read exactly if it has sixteen hexadecimal digits, in either case, and
nothing else, as the number that they spell with the lowest byte first, which is below two to the power of 64; every
such number comes back from its token, and every text that is read comes back in lower case. So two texts are read as
one offset if they differ in the case of letters, and not otherwise. -/
theorem tokens_code_offsets (text : String) (offset : Nat) :
    ((∃ n, ofToken text = .ok n) ↔ text.toList.length = 16 ∧ ∀ c ∈ text.toList, c ∈ Hex.digits) ∧
    (ofToken text = .ok offset → offset = spelled text.toList ∧ offset < 0x10000000000000000 ∧
      token offset = text.toLower ∧ ∀ other, ofToken other = .ok offset ↔ other.toLower = text.toLower) ∧
    (offset < 0x10000000000000000 → ofToken (token offset) = .ok offset) := by
  refine ⟨?_, fun read => ?_, ofToken_token⟩
  · simp only [ofToken_eq_ok_iff_spelled, exists_and_left, exists_eq, and_true]
  · obtain ⟨fits, lower⟩ := ofToken_eq_ok_iff.mp read
    refine ⟨(ofToken_eq_ok_iff_spelled.mp read).2, fits, lower, fun other => ?_⟩
    rw [ofToken_eq_ok_iff, lower, and_iff_right fits, eq_comm]

/-- An offset above the middle of its range, in a token with letters of both cases. -/
theorem tokens_code_offsets_of_letters :
    let text := "Ff00000000000080"
    let offset := 0x80000000000000ff
    ofToken text = .ok offset ∧ offset = spelled text.toList ∧ offset < 0x10000000000000000 ∧
      token offset = text.toLower ∧ ofToken "fF00000000000080" = .ok offset ∧ ofToken (token offset) = .ok offset := by
  intro text offset
  have read : ofToken text = .ok offset := by decide +kernel
  obtain ⟨-, told, back⟩ := tokens_code_offsets text offset
  obtain ⟨value, fits, lower, alike⟩ := told read
  have other : "fF00000000000080".toLower = text.toLower := by
    rw [← String.toList_inj, toList_toLower, toList_toLower]
    decide
  exact ⟨read, value, fits, lower, (alike _).mpr other, back fits⟩

end Offset

end RunQuery
