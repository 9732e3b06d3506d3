import RunQuery.Proofs.Wire.Value

/-!
What a format lets through. `Limits` says which scalars, which map keys and how many elements of a container it can
carry; a tree within them has no more containers inside each other than there is room for. What a reader makes of a
scan stays within the limits of the scan, and so does the wire form of every value and operand that is made of it.
-/
namespace RunQuery

structure Limits where
  scalar : Wire → Prop
  key : Wire → Prop
  count : Nat → Prop

namespace Limits

/-- Limits that decoding keeps: what it puts in place of a scalar, and what it writes of its own accord, is within
them. -/
structure Kept (l : Limits) : Prop where
  noList : ∀ items, ¬ l.scalar (.list items)
  noMap : ∀ entries, ¬ l.scalar (.map entries)
  null : l.scalar .null
  widened : ∀ i, l.scalar (.int i) → l.scalar (.double (Number.ofInt i))
  promoted : ∀ word, l.scalar (.single word) → l.scalar (.double (Number.ofSingle word))
  spelled : ∀ b s, Text.ofUtf8? b = some s → l.scalar (.bytes b) → l.scalar (.text s)
  small : ∀ n : Nat, n < 0x100000000 → l.scalar (.int n)
  short : ∀ s, (Text.utf8 s).length < 16 → l.scalar (.text s)
  named : ∀ s, l.scalar (.text s) → l.key (.text s)
  fewer : ∀ m n, m ≤ n → l.count n → l.count m
  few : l.count 4

end Limits

namespace Wire

mutual

def Within (l : Limits) : (room : Nat) → Wire → Prop
  | room, .list items => 0 < room ∧ l.count items.length ∧ ItemsWithin l (room - 1) items
  | room, .map entries => 0 < room ∧ l.count entries.length ∧ EntriesWithin l (room - 1) entries
  | _, scalar => l.scalar scalar

def ItemsWithin (l : Limits) (room : Nat) : List Wire → Prop
  | [] => True
  | item :: rest => item.Within l room ∧ ItemsWithin l room rest

def EntriesWithin (l : Limits) (room : Nat) : List (Wire × Wire) → Prop
  | [] => True
  | (key, value) :: rest => (l.key key ∧ key.Within l room ∧ value.Within l room) ∧ EntriesWithin l room rest

end

section Within

variable {l : Limits}

theorem itemsWithin_iff {room : Nat} {items : List Wire} :
    ItemsWithin l room items ↔ ∀ item ∈ items, item.Within l room := by
  induction items with
  | nil => simp [ItemsWithin]
  | cons item rest ih => rw [ItemsWithin, ih, List.forall_mem_cons]

theorem entriesWithin_iff {room : Nat} {entries : List (Wire × Wire)} :
    EntriesWithin l room entries ↔
      ∀ entry ∈ entries, l.key entry.1 ∧ entry.1.Within l room ∧ entry.2.Within l room := by
  induction entries with
  | nil => simp [EntriesWithin]
  | cons entry rest ih => rw [EntriesWithin, ih, List.forall_mem_cons]

mutual

theorem Within.mono {w : Wire} {room more : Nat} (within : w.Within l room) (le : room ≤ more) : w.Within l more := by
  match w, within with
  | .list items, ⟨roomy, count, inside⟩ =>
    exact ⟨Nat.lt_of_lt_of_le roomy le, count, ItemsWithin.mono inside (Nat.sub_le_sub_right le 1)⟩
  | .map entries, ⟨roomy, count, inside⟩ =>
    exact ⟨Nat.lt_of_lt_of_le roomy le, count, EntriesWithin.mono inside (Nat.sub_le_sub_right le 1)⟩
  | .null, scalar => exact scalar
  | .bool _, scalar => exact scalar
  | .int _, scalar => exact scalar
  | .single _, scalar => exact scalar
  | .double _, scalar => exact scalar
  | .text _, scalar => exact scalar
  | .bytes _, scalar => exact scalar

theorem ItemsWithin.mono {items : List Wire} {room more : Nat} (within : ItemsWithin l room items) (le : room ≤ more) :
    ItemsWithin l more items := by
  match items, within with
  | [], _ => trivial
  | item :: rest, ⟨first, others⟩ => exact ⟨Within.mono first le, ItemsWithin.mono others le⟩

theorem EntriesWithin.mono {entries : List (Wire × Wire)} {room more : Nat}
    (within : EntriesWithin l room entries) (le : room ≤ more) : EntriesWithin l more entries := by
  match entries, within with
  | [], _ => trivial
  | (key, value) :: rest, ⟨⟨named, ofKey, ofValue⟩, others⟩ =>
    exact ⟨⟨named, Within.mono ofKey le, Within.mono ofValue le⟩, EntriesWithin.mono others le⟩

end

mutual

theorem Within.depth_le {w : Wire} {room : Nat} (within : w.Within l room) : w.depth ≤ room := by
  match w, within with
  | .list items, ⟨roomy, _, inside⟩ =>
    have deep := ItemsWithin.depth_le inside
    rw [depth]
    omega
  | .map entries, ⟨roomy, _, inside⟩ =>
    have deep := EntriesWithin.depth_le inside
    rw [depth]
    omega
  | .null, _ => exact Nat.zero_le _
  | .bool _, _ => exact Nat.zero_le _
  | .int _, _ => exact Nat.zero_le _
  | .single _, _ => exact Nat.zero_le _
  | .double _, _ => exact Nat.zero_le _
  | .text _, _ => exact Nat.zero_le _
  | .bytes _, _ => exact Nat.zero_le _

theorem ItemsWithin.depth_le {items : List Wire} {room : Nat} (within : ItemsWithin l room items) :
    itemsDepth items ≤ room := by
  match items, within with
  | [], _ => exact Nat.zero_le _
  | item :: rest, ⟨first, others⟩ => exact Nat.max_le.mpr ⟨Within.depth_le first, ItemsWithin.depth_le others⟩

theorem EntriesWithin.depth_le {entries : List (Wire × Wire)} {room : Nat} (within : EntriesWithin l room entries) :
    entriesDepth entries ≤ room := by
  match entries, within with
  | [], _ => exact Nat.zero_le _
  | (key, value) :: rest, ⟨⟨_, ofKey, ofValue⟩, others⟩ =>
    exact Nat.max_le.mpr ⟨Nat.max_le.mpr ⟨Within.depth_le ofKey, Within.depth_le ofValue⟩,
      EntriesWithin.depth_le others⟩

end

/-- A scalar takes no room. -/
theorem within_of_scalar (kept : l.Kept) {w : Wire} (scalar : l.scalar w) (room : Nat) : w.Within l room := by
  cases w with
  | list items => exact absurd scalar (kept.noList items)
  | map entries => exact absurd scalar (kept.noMap entries)
  | _ => exact scalar

/-- A record is within the limits if its names and its fields are. -/
theorem record_within (kept : l.Kept) {fields : List (String × Wire)} {room : Nat} (count : fields.length ≤ 4)
    (each : ∀ field ∈ fields, (Text.utf8 field.1).length < 16 ∧ field.2.Within l room) :
    (record fields).Within l (room + 1) := by
  refine ⟨Nat.succ_pos room, kept.fewer _ 4 (by rwa [List.length_map]) kept.few, entriesWithin_iff.mpr ?_⟩
  intro entry member
  obtain ⟨field, known, rfl⟩ := List.mem_map.mp member
  have name := kept.short field.1 (each field known).1
  exact ⟨kept.named _ name, within_of_scalar kept name _, (each field known).2⟩

theorem short_within (kept : l.Kept) {s : String} (short : (Text.utf8 s).length < 16) (room : Nat) :
    (text s).Within l room :=
  within_of_scalar kept (kept.short s short) room

/-- A tag and its content, or any other record of two fields. -/
theorem pair_within (kept : l.Kept) {first second : String} {a b : Wire} {room : Nat}
    (short : (Text.utf8 first).length < 16 ∧ (Text.utf8 second).length < 16) (one : a.Within l room)
    (other : b.Within l room) : (record [(first, a), (second, b)]).Within l (room + 1) := by
  refine record_within kept (show 2 ≤ 4 by decide) ?_
  simp only [List.forall_mem_cons]
  exact ⟨⟨short.1, one⟩, ⟨short.2, other⟩, fun _ none => (List.not_mem_nil none).elim⟩

/-- The fields of a record that is within the limits have one container less to go. -/
theorem within_of_record {fields : List (String × Wire)} {room : Nat} (within : (record fields).Within l room) :
    ∃ less, room = less + 1 ∧ ∀ field ∈ fields, field.2.Within l less := by
  obtain ⟨roomy, _, inside⟩ := within
  refine ⟨room - 1, by omega, fun field member => ?_⟩
  exact (entriesWithin_iff.mp inside (.text field.1, field.2) (List.mem_map_of_mem member)).2.2

end Within

end Wire

namespace Scan

mutual

/-- A key is one that the format knows, whenever it can be read. -/
def Within (l : Limits) : Scan → Prop
  | .leaf w => l.scalar w
  | .list items => l.count items.length ∧ ItemsWithin l items
  | .map entries => l.count entries.length ∧ EntriesWithin l entries
  | .flawed => True
  | .broken => True

def ItemsWithin (l : Limits) : List Scan → Prop
  | [] => True
  | item :: rest => item.Within l ∧ ItemsWithin l rest

def EntriesWithin (l : Limits) : List (Scan × Scan) → Prop
  | [] => True
  | (key, value) :: rest =>
    ((∀ room w, key.read room = .ok w → l.key w) ∧ key.Within l ∧ value.Within l) ∧ EntriesWithin l rest

end

section Read

variable {l : Limits}

theorem itemsWithin_iff {items : List Scan} : ItemsWithin l items ↔ ∀ item ∈ items, item.Within l := by
  induction items with
  | nil => simp [ItemsWithin]
  | cons item rest ih => rw [ItemsWithin, ih, List.forall_mem_cons]

theorem entriesWithin_iff {entries : List (Scan × Scan)} :
    EntriesWithin l entries ↔
      ∀ entry ∈ entries, (∀ room w, entry.1.read room = .ok w → l.key w) ∧ entry.1.Within l ∧ entry.2.Within l := by
  induction entries with
  | nil => simp [EntriesWithin]
  | cons entry rest ih => rw [EntriesWithin, ih, List.forall_mem_cons]

mutual

theorem read_within (kept : l.Kept) {s : Scan} {room : Nat} {w : Wire} (within : s.Within l)
    (read : s.read room = .ok w) : w.Within l room := by
  match s, within with
  | .leaf value, scalar =>
    cases read
    exact Wire.within_of_scalar kept scalar room
  | .list items, ⟨count, inside⟩ =>
    rw [Scan.read] at read
    split at read
    · cases read
    · obtain ⟨found, each, rfl⟩ := map_eq_ok read
      obtain ⟨same, all⟩ := readItems_within kept inside each
      exact ⟨Nat.pos_of_ne_zero ‹_›, same ▸ count, all⟩
  | .map entries, ⟨count, inside⟩ =>
    rw [Scan.read] at read
    split at read
    · cases read
    · obtain ⟨found, each, rfl⟩ := map_eq_ok read
      obtain ⟨same, all⟩ := readEntries_within kept inside each
      exact ⟨Nat.pos_of_ne_zero ‹_›, same ▸ count, all⟩
  | .flawed, _ => cases read
  | .broken, _ => cases read

theorem readItems_within (kept : l.Kept) {items : List Scan} {room : Nat} {found : List Wire}
    (within : ItemsWithin l items) (read : readItems room items = .ok found) :
    items.length = found.length ∧ Wire.ItemsWithin l room found := by
  match items, within with
  | [], _ =>
    cases read
    exact ⟨rfl, trivial⟩
  | item :: rest, ⟨first, others⟩ =>
    obtain ⟨value, one, read⟩ := bind_eq_ok read
    obtain ⟨values, more, done⟩ := bind_eq_ok read
    cases done
    obtain ⟨same, all⟩ := readItems_within kept others more
    exact ⟨congrArg (· + 1) same, read_within kept first one, all⟩

theorem readEntries_within (kept : l.Kept) {entries : List (Scan × Scan)} {room : Nat} {found : List (Wire × Wire)}
    (within : EntriesWithin l entries) (read : readEntries room entries = .ok found) :
    entries.length = found.length ∧ Wire.EntriesWithin l room found := by
  match entries, within with
  | [], _ =>
    cases read
    exact ⟨rfl, trivial⟩
  | (key, value) :: rest, ⟨⟨named, ofKey, ofValue⟩, others⟩ =>
    obtain ⟨k, readKey, read⟩ := bind_eq_ok read
    obtain ⟨v, readValue, read⟩ := bind_eq_ok read
    obtain ⟨more, readRest, done⟩ := bind_eq_ok read
    cases done
    obtain ⟨same, all⟩ := readEntries_within kept others readRest
    exact ⟨congrArg (· + 1) same, ⟨named room k readKey, read_within kept ofKey readKey,
      read_within kept ofValue readValue⟩, all⟩

end

end Read

end Scan

end RunQuery
