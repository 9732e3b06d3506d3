import RunQuery.Proofs.MsgPack.Scanner
import RunQuery.Proofs.Wire.Accepted.Message

/-!
What MessagePack can carry. A length or an integer that is scanned fits the header that announced it, so a scan stays
within the limits that its values are written in.
-/
namespace RunQuery

theorem Text.utf8_of_ofUtf8? {bytes : List UInt8} {s : String} (spelled : ofUtf8? bytes = some s) : utf8 s = bytes := by
  rw [ofUtf8?, String.fromUTF8?] at spelled
  split at spelled
  · cases spelled
    rfl
  · cases spelled

namespace MsgPack

def limits : Limits where
  scalar
    | .list _ => False
    | .map _ => False
    | scalar => scalar.Fits
  key _ := True
  count n := n < 0x100000000

theorem limits_kept : limits.Kept where
  noList _ := id
  noMap _ := id
  null := trivial
  widened _ _ := trivial
  promoted _ _ := trivial
  spelled b s spelled fits := by
    show (Text.utf8 s).length < 0x100000000
    rw [Text.utf8_of_ofUtf8? spelled]
    exact fits
  small n bound := by
    show (_ : Int) ≤ n ∧ (n : Int) < _
    omega
  short s bound := Nat.lt_trans bound (by decide)
  named _ _ := trivial
  fewer _ _ le bound := Nat.lt_of_le_of_lt le bound
  few := show 4 < 0x100000000 by decide

mutual

theorem fits_of_within {w : Wire} {room : Nat} (within : w.Within limits room) : w.Fits := by
  match w, within with
  | .list items, ⟨_, count, inside⟩ => exact ⟨count, itemsFit_of_within inside⟩
  | .map entries, ⟨_, count, inside⟩ => exact ⟨count, entriesFit_of_within inside⟩
  | .null, fits => exact fits
  | .bool _, fits => exact fits
  | .int _, fits => exact fits
  | .single _, fits => exact fits
  | .double _, fits => exact fits
  | .text _, fits => exact fits
  | .bytes _, fits => exact fits

theorem itemsFit_of_within {items : List Wire} {room : Nat} (within : Wire.ItemsWithin limits room items) :
    Wire.ItemsFit items := by
  match items, within with
  | [], _ => trivial
  | item :: rest, ⟨first, others⟩ => exact ⟨fits_of_within first, itemsFit_of_within others⟩

theorem entriesFit_of_within {entries : List (Wire × Wire)} {room : Nat}
    (within : Wire.EntriesWithin limits room entries) : Wire.EntriesFit entries := by
  match entries, within with
  | [], _ => trivial
  | (key, value) :: rest, ⟨⟨_, ofKey, ofValue⟩, others⟩ =>
    exact ⟨fits_of_within ofKey, fits_of_within ofValue, entriesFit_of_within others⟩

end

/-- A marker announces a value that fits, or lengths and integers of at most as many bytes as their headers have. -/
def Marker.Sound : Marker → Prop
  | .scalar value => limits.scalar value
  | .uint width => width ≤ 8
  | .sint width => 0 < width ∧ width ≤ 8
  | .text length => length < 0x100000000
  | .textSized width => width ≤ 4
  | .bytesSized width => width ≤ 4
  | .list length => length < 0x100000000
  | .listSized width => width ≤ 4
  | .map length => length < 0x100000000
  | .mapSized width => width ≤ 4
  | _ => True

theorem Marker.ofByte_sound (b : UInt8) : (ofByte b).Sound := by
  have byte : b.toNat < 0x100 := b.toNat_lt
  simp only [ofByte]
  split
  · show (_ : Int) ≤ _ ∧ _
    omega
  split
  · show _ < _
    omega
  split
  · show _ < _
    omega
  split
  · show _ < _
    omega
  split
  · show (_ : Int) ≤ _ ∧ _
    omega
  split <;> first | trivial | (simp only [Sound]; decide)

theorem foldl_bytes_lt (bytes : List UInt8) (start : Nat) :
    bytes.foldl (fun n b => 256 * n + b.toNat) start < (start + 1) * Nat.pow 256 bytes.length := by
  induction bytes generalizing start with
  | nil => simp
  | cons b bytes ih =>
    have byte : b.toNat < 256 := b.toNat_lt
    have place : 256 * start + b.toNat + 1 ≤ (start + 1) * 256 := by omega
    calc (b :: bytes).foldl (fun n b => 256 * n + b.toNat) start
        < (256 * start + b.toNat + 1) * Nat.pow 256 bytes.length := ih (256 * start + b.toNat)
      _ ≤ (start + 1) * 256 * Nat.pow 256 bytes.length := Nat.mul_le_mul_right _ place
      _ = (start + 1) * Nat.pow 256 (bytes.length + 1) := by
        rw [Nat.mul_assoc, Nat.mul_comm 256]
        rfl

theorem length_of_takeBytes? {count : Nat} {bytes : List UInt8} {parts : List UInt8 × List UInt8}
    (taken : takeBytes? count bytes = some parts) : parts.1.length = count := by
  rw [takeBytes?] at taken
  split at taken
  next => cases taken
  next enough =>
    cases taken
    rw [List.length_take, Nat.min_eq_left (Nat.not_lt.mp enough)]

theorem takeNat?_lt {width n : Nat} {bytes rest : List UInt8} (taken : takeNat? width bytes = some (n, rest)) :
    n < Nat.pow 256 width := by
  obtain ⟨parts, found, same⟩ := Option.map_eq_some_iff.mp taken
  cases same
  have bound := foldl_bytes_lt parts.1 0
  rwa [length_of_takeBytes? found, Nat.zero_add, Nat.one_mul] at bound

/-- A number of few bytes is a small one. -/
theorem takeNat?_small {width most n : Nat} {bytes rest : List UInt8} (le : width ≤ most)
    (taken : takeNat? width bytes = some (n, rest)) : n < Nat.pow 256 most :=
  Nat.lt_of_lt_of_le (takeNat?_lt taken) (Nat.pow_le_pow_right (by decide) le)

theorem takeBytes?_rest {count : Nat} {bytes : List UInt8} {parts : List UInt8 × List UInt8}
    (taken : takeBytes? count bytes = some parts) : parts.2.length ≤ bytes.length := by
  rw [takeBytes?] at taken
  split at taken
  · cases taken
  · cases taken
    rw [List.length_drop]
    exact Nat.sub_le ..

/-- What is found is within the limits, and at most so many bytes are left. -/
structure Taken (most : Nat) (found : Scan × List UInt8) : Prop where
  within : found.1.Within limits
  left : found.2.length ≤ most

section Taken

variable {most : Nat} {bytes : List UInt8}

theorem taken_broken : Taken most broken := ⟨trivial, Nat.zero_le most⟩

theorem Taken.mono {found : Scan × List UInt8} (taken : Taken most found) {more : Nat} (le : most ≤ more) :
    Taken more found :=
  ⟨taken.within, Nat.le_trans taken.left le⟩

/-- What goes on with a length of few bytes goes on with a small one. -/
theorem sized_taken {width limit : Nat} (le : width ≤ limit) {next : Nat → List UInt8 → Scan × List UInt8}
    (each : ∀ n rest, n < Nat.pow 256 limit → rest.length ≤ bytes.length → Taken bytes.length (next n rest)) :
    Taken bytes.length (sized width bytes next) := by
  rw [sized]
  split
  · exact taken_broken
  next n rest taken =>
    obtain ⟨parts, found, same⟩ := Option.map_eq_some_iff.mp taken
    cases same
    exact each _ _ (takeNat?_small le taken) (takeBytes?_rest found)

theorem signed_fits {width n : Nat} (some : 0 < width) (le : width ≤ 8) (small : n < Nat.pow 256 width) :
    (Wire.int (signed width n)).Fits := by
  have places : Nat.pow 256 width = twoTo (8 * width) := (Nat.pow_mul 2 8 width).symm
  have half : twoTo (8 * width) = 2 * twoTo (8 * width - 1) := by
    obtain ⟨less, rfl⟩ := Nat.exists_eq_add_one.mpr some
    exact Nat.pow_succ'
  have bound : twoTo (8 * width - 1) ≤ twoTo 63 := Nat.pow_le_pow_right (by decide) (by omega)
  have greatest : twoTo 63 = 0x8000000000000000 := rfl
  rw [places] at small
  unfold signed
  show _ ≤ _ ∧ _ < _
  split <;> omega

theorem scanText_taken {length : Nat} (small : length < 0x100000000) : Taken bytes.length (scanText length bytes) := by
  rw [scanText]
  split
  · exact taken_broken
  next content rest taken =>
    have short : content.length < 0x100000000 := by rwa [length_of_takeBytes? taken]
    have left := takeBytes?_rest taken
    split
    next s spelled =>
      refine ⟨?_, left⟩
      show (Text.utf8 s).length < 0x100000000
      rwa [Text.utf8_of_ofUtf8? spelled]
    next => exact ⟨short, left⟩

theorem scanBytes_taken {length : Nat} (small : length < 0x100000000) :
    Taken bytes.length (scanBytes length bytes) := by
  rw [scanBytes]
  split
  · exact taken_broken
  next content rest taken =>
    refine ⟨?_, takeBytes?_rest taken⟩
    show content.length < 0x100000000
    rwa [length_of_takeBytes? taken]

theorem scanExtension_taken (length : Nat) : Taken bytes.length (scanExtension length bytes) := by
  rw [scanExtension]
  split
  · exact taken_broken
  next taken => exact ⟨trivial, takeBytes?_rest taken⟩

end Taken

/-- What is found of a list that was announced with a length. -/
structure ItemsTaken (length most : Nat) (found : List Scan × List UInt8) : Prop where
  count : found.1.length ≤ length
  within : Scan.ItemsWithin limits found.1
  left : found.2.length ≤ most

structure EntriesTaken (length most : Nat) (found : List (Scan × Scan) × List UInt8) : Prop where
  count : found.1.length ≤ length
  within : Scan.EntriesWithin limits found.1
  left : found.2.length ≤ most

theorem ItemsTaken.inList {length most : Nat} (small : length < 0x100000000) {found : List Scan × List UInt8}
    (taken : ItemsTaken length most found) : Taken most (inList found) := by
  refine ⟨⟨?_, taken.within⟩, taken.left⟩
  have count := taken.count
  show found.1.length < 0x100000000
  omega

theorem EntriesTaken.inMap {length most : Nat} (small : length < 0x100000000) {found : List (Scan × Scan) × List UInt8}
    (taken : EntriesTaken length most found) : Taken most (inMap found) := by
  refine ⟨⟨?_, taken.within⟩, taken.left⟩
  have count := taken.count
  show found.1.length < 0x100000000
  omega

/-- With enough fuel for every byte twice, what is found is within the limits. The fuel counts, as a list that runs
out of it has one item more than announced. -/
theorem scan_taken (fuel : Nat) :
    (∀ bytes : List UInt8, 2 * bytes.length ≤ fuel → Taken (bytes.length - 1) (scanValue fuel bytes)) ∧
    (∀ length (bytes : List UInt8), 2 * bytes.length < fuel →
      ItemsTaken length bytes.length (scanItems fuel length bytes)) ∧
    (∀ length (bytes : List UInt8), 2 * bytes.length < fuel →
      EntriesTaken length bytes.length (scanEntries fuel length bytes)) := by
  induction fuel with
  | zero => exact ⟨fun _ _ => taken_broken, nofun, nofun⟩
  | succ fuel ih =>
    obtain ⟨ofValue, ofItems, ofEntries⟩ := ih
    refine ⟨fun bytes enough => ?_, fun length bytes enough => ?_, fun length bytes enough => ?_⟩
    · match bytes, enough with
      | [], _ => exact taken_broken
      | b :: bytes, enough =>
        rw [List.length_cons] at enough
        have items (length : Nat) (rest : List UInt8) (small : length < 0x100000000) (le : rest.length ≤ bytes.length) :
            Taken bytes.length (inList (scanItems fuel length rest)) := by
          have taken := ofItems length rest (by omega)
          exact ItemsTaken.inList small { taken with left := taken.left.trans le }
        have entries (length : Nat) (rest : List UInt8) (small : length < 0x100000000)
            (le : rest.length ≤ bytes.length) : Taken bytes.length (inMap (scanEntries fuel length rest)) := by
          have taken := ofEntries length rest (by omega)
          exact EntriesTaken.inMap small { taken with left := taken.left.trans le }
        have sound := Marker.ofByte_sound b
        rw [List.length_cons, Nat.add_sub_cancel, scanValue]
        cases marker : Marker.ofByte b <;> rw [marker] at sound <;> dsimp only
        case scalar value => exact ⟨sound, Nat.le_refl _⟩
        case uint width =>
          refine sized_taken sound fun n rest small left => ⟨?_, left⟩
          have small : n < 0x10000000000000000 := small
          show _ ≤ (n : Int) ∧ (n : Int) < _
          omega
        case sint width =>
          exact sized_taken (Nat.le_refl width) fun n rest small left => ⟨signed_fits sound.1 sound.2 small, left⟩
        case single => exact sized_taken (Nat.le_refl 4) fun n rest _ left => ⟨trivial, left⟩
        case double => exact sized_taken (Nat.le_refl 8) fun n rest _ left => ⟨trivial, left⟩
        case text length => exact scanText_taken sound
        case textSized width => exact sized_taken sound fun n rest small left => (scanText_taken small).mono left
        case bytesSized width => exact sized_taken sound fun n rest small left => (scanBytes_taken small).mono left
        case list length => exact items length bytes sound (Nat.le_refl _)
        case listSized width => exact sized_taken sound items
        case map length => exact entries length bytes sound (Nat.le_refl _)
        case mapSized width => exact sized_taken sound entries
        case extension length => exact scanExtension_taken length
        case extensionSized width =>
          exact sized_taken (Nat.le_refl width) fun n rest _ left => (scanExtension_taken n).mono left
        case reserved => exact taken_broken
    · match length, bytes, enough with
      | 0, bytes, _ => exact ⟨Nat.zero_le _, trivial, Nat.le_refl _⟩
      | length + 1, [], _ => exact ⟨Nat.le_add_left 1 length, ⟨trivial, trivial⟩, Nat.zero_le _⟩
      | length + 1, b :: bytes, enough =>
        have first := ofValue (b :: bytes) (by omega)
        have left := first.left
        rw [List.length_cons] at enough left
        have others := ofItems length (scanValue fuel (b :: bytes)).2 (by omega)
        rw [scanItems_cons fuel length (List.cons_ne_nil b bytes)]
        exact ⟨Nat.succ_le_succ others.count, ⟨first.within, others.within⟩,
          others.left.trans (left.trans (Nat.sub_le ..))⟩
    · match length, bytes, enough with
      | 0, bytes, _ => exact ⟨Nat.zero_le _, trivial, Nat.le_refl _⟩
      | length + 1, [], _ =>
        exact ⟨Nat.le_add_left 1 length, ⟨⟨fun _ _ _ => trivial, trivial, trivial⟩, trivial⟩, Nat.zero_le _⟩
      | length + 1, b :: bytes, enough =>
        have key := ofValue (b :: bytes) (by omega)
        have afterKey := key.left
        rw [List.length_cons] at enough afterKey
        have value := ofValue (scanValue fuel (b :: bytes)).2 (by omega)
        have afterValue := value.left.trans ((Nat.sub_le ..).trans afterKey)
        have others := ofEntries length (scanValue fuel (scanValue fuel (b :: bytes)).2).2 (by omega)
        rw [scanEntries_cons fuel length (List.cons_ne_nil b bytes)]
        exact ⟨Nat.succ_le_succ others.count, ⟨⟨fun _ _ _ => trivial, key.within, value.within⟩, others.within⟩,
          others.left.trans (afterValue.trans (Nat.sub_le ..))⟩

theorem scan_within (bytes : List UInt8) : (scan bytes).Within limits :=
  ((scan_taken (2 * bytes.length + 1)).1 bytes (Nat.le_succ _)).within

theorem filter_kept {bytes : List UInt8} {f : Filter} (read : decode Filter.decode bytes = .ok f) :
    f.Kept limits room :=
  Filter.decode_kept limits_kept (scan_within bytes) read

theorem request_kept {bytes : List UInt8} {r : Request} (read : decode Request.decode bytes = .ok r) :
    r.Kept limits room :=
  Request.decode_kept limits_kept (scan_within bytes) read

theorem decode_write {α : Type} {w : Wire} (within : w.Within limits room)
    (decoder : Dialect → Nat → Scan → Except DecodeError α) :
    decode decoder (write w) = decoder ⟨true, true⟩ room (Scan.ofWire w) := by
  have whole := scan_write (fits_of_within within) []
  rw [List.append_nil] at whole
  rw [decode, whole]

end MsgPack

end RunQuery
