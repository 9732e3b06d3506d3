import RunQuery.MsgPack.Scanner
import Mathlib.Tactic.Ring

/-!
Scanning what was written. A header of any width announces the length or the integer it was written for, so that
the scan of a written tree is that tree, and the bytes after it are left.
-/
namespace RunQuery

namespace Wire

mutual

/-- What the headers can announce: integers of 64 bits, signed or not, and lengths of 32 bits. -/
def Fits : Wire → Prop
  | .int i => -0x8000000000000000 ≤ i ∧ i < 0x10000000000000000
  | .text s => (Text.utf8 s).length < 0x100000000
  | .bytes b => b.length < 0x100000000
  | .list items => items.length < 0x100000000 ∧ ItemsFit items
  | .map entries => entries.length < 0x100000000 ∧ EntriesFit entries
  | _ => True

def ItemsFit : List Wire → Prop
  | [] => True
  | item :: rest => item.Fits ∧ ItemsFit rest

def EntriesFit : List (Wire × Wire) → Prop
  | [] => True
  | (key, value) :: rest => key.Fits ∧ value.Fits ∧ EntriesFit rest

end

mutual

instance decidableFits : (w : Wire) → Decidable w.Fits
  | .int _ => inferInstanceAs (Decidable (_ ∧ _))
  | .text s => inferInstanceAs (Decidable ((Text.utf8 s).length < 0x100000000))
  | .bytes b => inferInstanceAs (Decidable (b.length < 0x100000000))
  | .list items =>
    have := decidableItemsFit items
    inferInstanceAs (Decidable (items.length < 0x100000000 ∧ ItemsFit items))
  | .map entries =>
    have := decidableEntriesFit entries
    inferInstanceAs (Decidable (entries.length < 0x100000000 ∧ EntriesFit entries))
  | .null => .isTrue trivial
  | .bool _ => .isTrue trivial
  | .single _ => .isTrue trivial
  | .double _ => .isTrue trivial

instance decidableItemsFit : (items : List Wire) → Decidable (ItemsFit items)
  | [] => .isTrue trivial
  | item :: rest =>
    have := decidableFits item
    have := decidableItemsFit rest
    inferInstanceAs (Decidable (item.Fits ∧ ItemsFit rest))

instance decidableEntriesFit : (entries : List (Wire × Wire)) → Decidable (EntriesFit entries)
  | [] => .isTrue trivial
  | (key, value) :: rest =>
    have := decidableFits key
    have := decidableFits value
    have := decidableEntriesFit rest
    inferInstanceAs (Decidable (key.Fits ∧ value.Fits ∧ EntriesFit rest))

end

end Wire

namespace MsgPack

theorem length_bigEndian (width n : Nat) : (bigEndian width n).length = width := by
  induction width with
  | zero => rfl
  | succ width ih => rw [bigEndian, List.length_cons, ih]

theorem foldl_bigEndian (width n start : Nat) :
    (bigEndian width n).foldl (fun n b => 256 * n + b.toNat) start =
      start * Nat.pow 256 width + n % Nat.pow 256 width := by
  induction width generalizing start with
  | zero => simp [bigEndian, Nat.mod_one]
  | succ width ih =>
    have place : Nat.pow 256 (width + 1) = Nat.pow 256 width * 256 := rfl
    rw [bigEndian, List.foldl_cons, ih, place, Nat.mod_mul, UInt8.toNat_ofNat']
    ring

theorem ofBigEndian_bigEndian {width n : Nat} (fits : n < Nat.pow 256 width) :
    ofBigEndian (bigEndian width n) = n := by
  rw [ofBigEndian, foldl_bigEndian, Nat.mod_eq_of_lt fits]
  simp

theorem takeBytes?_append (bytes rest : List UInt8) :
    takeBytes? bytes.length (bytes ++ rest) = some (bytes, rest) := by
  simp [takeBytes?]

theorem takeNat?_bigEndian {width n : Nat} (fits : n < Nat.pow 256 width) (rest : List UInt8) :
    takeNat? width (bigEndian width n ++ rest) = some (n, rest) := by
  have taken := takeBytes?_append (bigEndian width n) rest
  rw [length_bigEndian] at taken
  rw [takeNat?, taken, Option.map_some, ofBigEndian_bigEndian fits]

theorem sized_bigEndian {width n : Nat} (fits : n < Nat.pow 256 width) (rest : List UInt8)
    (next : Nat → List UInt8 → Scan × List UInt8) :
    sized width (bigEndian width n ++ rest) next = next n rest := by
  rw [sized, takeNat?_bigEndian fits]

theorem scanText_utf8 (s : String) (rest : List UInt8) :
    scanText (Text.utf8 s).length (Text.utf8 s ++ rest) = (.leaf (.text s), rest) := by
  rw [scanText, takeBytes?_append]
  simp only [Text.ofUtf8?_utf8]

theorem scanBytes_append (bytes rest : List UInt8) :
    scanBytes bytes.length (bytes ++ rest) = (.leaf (.bytes bytes), rest) := by
  rw [scanBytes, takeBytes?_append]

/-! Markers that hold what they announce. -/

theorem Marker.ofByte_map {n : Nat} (small : n < 16) : ofByte (UInt8.ofNat (0x80 + n)) = .map n := by
  have place : (UInt8.ofNat (0x80 + n)).toNat = 0x80 + n := by simp; omega
  simp only [ofByte, place]
  rw [if_neg (by omega), if_pos (by omega), Nat.add_sub_cancel_left]

theorem Marker.ofByte_list {n : Nat} (small : n < 16) : ofByte (UInt8.ofNat (0x90 + n)) = .list n := by
  have place : (UInt8.ofNat (0x90 + n)).toNat = 0x90 + n := by simp; omega
  simp only [ofByte, place]
  rw [if_neg (by omega), if_neg (by omega), if_pos (by omega), Nat.add_sub_cancel_left]

theorem Marker.ofByte_text {n : Nat} (small : n < 32) : ofByte (UInt8.ofNat (0xa0 + n)) = .text n := by
  have place : (UInt8.ofNat (0xa0 + n)).toNat = 0xa0 + n := by simp; omega
  simp only [ofByte, place]
  rw [if_neg (by omega), if_neg (by omega), if_neg (by omega), if_pos (by omega), Nat.add_sub_cancel_left]

theorem Marker.ofByte_positive {n : Nat} (small : n < 0x80) : ofByte (UInt8.ofNat n) = .scalar (.int n) := by
  have place : (UInt8.ofNat n).toNat = n := by simp; omega
  simp only [ofByte, place]
  rw [if_pos small]

theorem Marker.ofByte_negative {i : Int} (small : -32 ≤ i) (negative : i < 0) :
    ofByte (UInt8.ofNat (i + 0x100).toNat) = .scalar (.int i) := by
  have place : (UInt8.ofNat (i + 0x100).toNat).toNat = (i + 0x100).toNat := by simp; omega
  simp only [ofByte, place]
  rw [if_neg (by omega), if_neg (by omega), if_neg (by omega), if_neg (by omega), if_pos (by omega)]
  congr 2
  omega

/-- A two's complement reads back as the negative number that it was made of. -/
theorem signed_of_negative {width : Nat} {i : Int} (least : -(twoTo (8 * width - 1) : Int) ≤ i) (negative : i < 0)
    (half : twoTo (8 * width) = 2 * twoTo (8 * width - 1)) : signed width (i + twoTo (8 * width)).toNat = i := by
  unfold signed
  rw [if_neg (by omega)]
  omega

section Scalars

variable {byte : UInt8} {width n : Nat} (fuel : Nat) (rest : List UInt8)

theorem scanValue_scalar {value : Wire} (marker : Marker.ofByte byte = .scalar value) :
    scanValue (fuel + 1) (byte :: rest) = (.leaf value, rest) := by
  simp only [scanValue, marker]

theorem scanValue_uint (marker : Marker.ofByte byte = .uint width) (fits : n < Nat.pow 256 width) :
    scanValue (fuel + 1) (byte :: bigEndian width n ++ rest) = (.leaf (.int n), rest) := by
  simp only [List.cons_append, scanValue, marker, sized_bigEndian fits]

theorem scanValue_sint {i : Int} (marker : Marker.ofByte byte = .sint width)
    (least : -(twoTo (8 * width - 1) : Int) ≤ i) (negative : i < 0)
    (half : twoTo (8 * width) = 2 * twoTo (8 * width - 1)) (places : Nat.pow 256 width = twoTo (8 * width)) :
    scanValue (fuel + 1) (byte :: bigEndian width (i + twoTo (8 * width)).toNat ++ rest) =
      (.leaf (.int i), rest) := by
  have fits : (i + twoTo (8 * width)).toNat < Nat.pow 256 width := by omega
  simp only [List.cons_append, scanValue, marker, sized_bigEndian fits, signed_of_negative least negative half]

theorem scanValue_writeInt {i : Int} (fits : (Wire.int i).Fits) :
    scanValue (fuel + 1) (writeInt i ++ rest) = (.leaf (.int i), rest) := by
  obtain ⟨least, most⟩ := fits
  unfold writeInt
  by_cases positive : 0 ≤ i
  · have whole : (i.toNat : Int) = i := Int.toNat_of_nonneg positive
    rw [if_pos positive, ← whole]
    simp only [Int.toNat_natCast]
    split
    next small => exact scanValue_scalar fuel rest (Marker.ofByte_positive small)
    split
    next small => exact scanValue_uint fuel rest rfl small
    split
    next small => exact scanValue_uint fuel rest rfl small
    split
    next small => exact scanValue_uint fuel rest rfl small
    next => exact scanValue_uint fuel rest rfl (show i.toNat < 0x10000000000000000 by omega)
  · have negative : i < 0 := Int.not_le.mp positive
    rw [if_neg positive]
    split
    next small => exact scanValue_scalar fuel rest (Marker.ofByte_negative small negative)
    split
    next small => exact scanValue_sint fuel rest rfl small negative rfl rfl
    split
    next small => exact scanValue_sint fuel rest rfl small negative rfl rfl
    split
    next small => exact scanValue_sint fuel rest rfl small negative rfl rfl
    next => exact scanValue_sint fuel rest rfl least negative rfl rfl

theorem scanValue_text {s : String} (fits : (Wire.text s).Fits) :
    scanValue (fuel + 1) (textHeader (Text.utf8 s).length ++ Text.utf8 s ++ rest) = (.leaf (.text s), rest) := by
  have sized (byte : UInt8) (width : Nat) (marker : Marker.ofByte byte = .textSized width)
      (small : (Text.utf8 s).length < Nat.pow 256 width) :
      scanValue (fuel + 1) (byte :: bigEndian width (Text.utf8 s).length ++ Text.utf8 s ++ rest) =
        (.leaf (.text s), rest) := by
    rw [List.append_assoc]
    simp only [List.cons_append, scanValue, marker, sized_bigEndian small, scanText_utf8]
  unfold textHeader
  split
  next small =>
    rw [List.append_assoc, List.singleton_append]
    simp only [scanValue, Marker.ofByte_text small, scanText_utf8]
  split
  next small => exact sized _ 1 rfl small
  split
  next small => exact sized _ 2 rfl small
  next => exact sized _ 4 rfl fits

theorem scanValue_bytes {b : List UInt8} (fits : (Wire.bytes b).Fits) :
    scanValue (fuel + 1) (bytesHeader b.length ++ b ++ rest) = (.leaf (.bytes b), rest) := by
  have sized (byte : UInt8) (width : Nat) (marker : Marker.ofByte byte = .bytesSized width)
      (small : b.length < Nat.pow 256 width) :
      scanValue (fuel + 1) (byte :: bigEndian width b.length ++ b ++ rest) = (.leaf (.bytes b), rest) := by
    rw [List.append_assoc]
    simp only [List.cons_append, scanValue, marker, sized_bigEndian small, scanBytes_append]
  unfold bytesHeader
  split
  next small => exact sized _ 1 rfl small
  split
  next small => exact sized _ 2 rfl small
  next => exact sized _ 4 rfl fits

/-- After the header of a list its items are scanned. -/
theorem scanValue_listHeader {length : Nat} (fits : length < 0x100000000) :
    scanValue (fuel + 1) (listHeader length ++ rest) = inList (scanItems fuel length rest) := by
  unfold listHeader
  split
  next small =>
    rw [List.singleton_append]
    simp only [scanValue, Marker.ofByte_list small]
  split
  next small =>
    have marker : Marker.ofByte 0xdc = .listSized 2 := rfl
    have small : length < Nat.pow 256 2 := small
    simp only [List.cons_append, scanValue, marker, sized_bigEndian small]
  next =>
    have marker : Marker.ofByte 0xdd = .listSized 4 := rfl
    have small : length < Nat.pow 256 4 := fits
    simp only [List.cons_append, scanValue, marker, sized_bigEndian small]

/-- After the header of a map its entries are scanned. -/
theorem scanValue_mapHeader {length : Nat} (fits : length < 0x100000000) :
    scanValue (fuel + 1) (mapHeader length ++ rest) = inMap (scanEntries fuel length rest) := by
  unfold mapHeader
  split
  next small =>
    rw [List.singleton_append]
    simp only [scanValue, Marker.ofByte_map small]
  split
  next small =>
    have marker : Marker.ofByte 0xde = .mapSized 2 := rfl
    have small : length < Nat.pow 256 2 := small
    simp only [List.cons_append, scanValue, marker, sized_bigEndian small]
  next =>
    have marker : Marker.ofByte 0xdf = .mapSized 4 := rfl
    have small : length < Nat.pow 256 4 := fits
    simp only [List.cons_append, scanValue, marker, sized_bigEndian small]

end Scalars

theorem write_ne_nil (w : Wire) : write w ≠ [] := by
  cases w <;> simp [write, writeInt, textHeader, bytesHeader, listHeader, mapHeader] <;> split_ifs <;> simp

theorem length_write_pos (w : Wire) : 0 < (write w).length := List.length_pos_iff.mpr (write_ne_nil w)

theorem length_mapHeader_pos (length : Nat) : 0 < (mapHeader length).length := by
  unfold mapHeader
  split_ifs <;> simp

theorem length_listHeader_pos (length : Nat) : 0 < (listHeader length).length := by
  unfold listHeader
  split_ifs <;> simp

/-- Items that start with a byte are scanned one after another. -/
theorem scanItems_cons (fuel length : Nat) {bytes : List UInt8} (some : bytes ≠ []) :
    scanItems (fuel + 1) (length + 1) bytes =
      ((scanValue fuel bytes).1 :: (scanItems fuel length (scanValue fuel bytes).2).1,
        (scanItems fuel length (scanValue fuel bytes).2).2) := by
  cases bytes with
  | nil => exact absurd rfl some
  | cons b bytes => rfl

theorem scanEntries_cons (fuel length : Nat) {bytes : List UInt8} (some : bytes ≠ []) :
    scanEntries (fuel + 1) (length + 1) bytes =
      let key := scanValue fuel bytes
      let value := scanValue fuel key.2
      let others := scanEntries fuel length value.2
      ((key.1, value.1) :: others.1, others.2) := by
  cases bytes with
  | nil => exact absurd rfl some
  | cons b bytes => rfl

mutual

/-- A written value is scanned as itself, and what follows it is left. -/
theorem scanValue_write {w : Wire} (fits : w.Fits) {fuel : Nat} (enough : 2 * (write w).length ≤ fuel)
    (rest : List UInt8) : scanValue fuel (write w ++ rest) = (Scan.ofWire w, rest) := by
  obtain ⟨fuel, rfl⟩ : ∃ less, fuel = less + 1 := ⟨fuel - 1, by have := length_write_pos w; omega⟩
  match w, fits with
  | .null, _ => exact scanValue_scalar fuel rest rfl
  | .bool false, _ => exact scanValue_scalar fuel rest rfl
  | .bool true, _ => exact scanValue_scalar fuel rest rfl
  | .int i, fits => exact scanValue_writeInt fuel rest fits
  | .single word, _ =>
    have marker : Marker.ofByte 0xca = .single := rfl
    have small : word.toNat < Nat.pow 256 4 := word.toNat_lt
    simp only [write, List.cons_append, scanValue, marker, sized_bigEndian small, UInt32.ofNat_toNat]
    rfl
  | .double n, _ =>
    have marker : Marker.ofByte 0xcb = .double := rfl
    have small : n.bits.toNat < Nat.pow 256 8 := n.bits.toNat_lt
    simp only [write, List.cons_append, scanValue, marker, sized_bigEndian small, UInt64.ofNat_toNat]
    rfl
  | .text s, fits => exact scanValue_text fuel rest fits
  | .bytes b, fits => exact scanValue_bytes fuel rest fits
  | .list items, ⟨short, fit⟩ =>
    have header := length_listHeader_pos items.length
    simp only [write, List.length_append] at enough
    rw [write, List.append_assoc, scanValue_listHeader fuel _ short, scanItems_write fit (by omega)]
    rfl
  | .map entries, ⟨short, fit⟩ =>
    have header := length_mapHeader_pos entries.length
    simp only [write, List.length_append] at enough
    rw [write, List.append_assoc, scanValue_mapHeader fuel _ short, scanEntries_write fit (by omega)]
    rfl

theorem scanItems_write {items : List Wire} (fit : Wire.ItemsFit items) {fuel : Nat}
    (enough : 2 * (writeItems items).length < fuel) (rest : List UInt8) :
    scanItems fuel items.length (writeItems items ++ rest) = (Scan.ofItems items, rest) := by
  obtain ⟨fuel, rfl⟩ : ∃ less, fuel = less + 1 := ⟨fuel - 1, by omega⟩
  match items, fit with
  | [], _ => rfl
  | item :: others, ⟨first, fit⟩ =>
    have byte := length_write_pos item
    simp only [writeItems, List.length_append] at enough
    rw [writeItems, List.append_assoc, List.length_cons,
      scanItems_cons fuel _ (List.append_ne_nil_of_left_ne_nil (write_ne_nil item) _),
      scanValue_write first (by omega), scanItems_write fit (by omega)]
    rfl

theorem scanEntries_write {entries : List (Wire × Wire)} (fit : Wire.EntriesFit entries) {fuel : Nat}
    (enough : 2 * (writeEntries entries).length < fuel) (rest : List UInt8) :
    scanEntries fuel entries.length (writeEntries entries ++ rest) = (Scan.ofEntries entries, rest) := by
  obtain ⟨fuel, rfl⟩ : ∃ less, fuel = less + 1 := ⟨fuel - 1, by omega⟩
  match entries, fit with
  | [], _ => rfl
  | (key, value) :: others, ⟨first, second, fit⟩ =>
    have byte := length_write_pos key
    simp only [writeEntries, List.length_append] at enough
    have forKey : 2 * (write key).length ≤ fuel := by omega
    have forValue : 2 * (write value).length ≤ fuel := by omega
    have forOthers : 2 * (writeEntries others).length < fuel := by omega
    rw [writeEntries, List.append_assoc, List.append_assoc, List.length_cons,
      scanEntries_cons fuel _ (List.append_ne_nil_of_left_ne_nil (write_ne_nil key) _)]
    simp only [scanValue_write first forKey, scanValue_write second forValue, scanEntries_write fit forOthers]
    rfl

end

/-- The first value of what was written is what was written, whatever comes after it. -/
theorem scan_write {w : Wire} (fits : w.Fits) (rest : List UInt8) :
    scan (write w ++ rest) = Scan.ofWire w := by
  rw [scan, scanValue_write fits (by rw [List.length_append]; omega)]

end MsgPack

end RunQuery
