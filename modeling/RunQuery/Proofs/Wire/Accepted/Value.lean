import RunQuery.Proofs.Wire.Limits
import RunQuery.Wire.Decode

/-!
What becomes of values and operands that are accepted, whatever their spelling: they are well formed, and their wire
form has room where the input had it and stays within the limits of the format.
-/
namespace RunQuery

namespace Entries

theorem length_insert_le {α : Type} (key : String) (value : α) (entries : List (String × α)) :
    (insert key value entries).length ≤ entries.length + 1 := by
  induction entries with
  | nil => exact Nat.le_refl _
  | cons first rest ih =>
    rw [insert]
    split
    · exact Nat.le_refl _
    · split
      · exact Nat.le_succ _
      · exact Nat.succ_le_succ ih

end Entries

namespace Decode

variable {l : Limits} {room : Nat}

theorem text_within (kept : l.Kept) {w : Wire} {s : String} (within : w.Within l room) (read : text w = .ok s) :
    l.scalar (.text s) := by
  cases w with
  | text t =>
    cases read
    exact within
  | bytes b =>
    rw [text] at read
    split at read
    next spelled =>
      cases read
      exact kept.spelled b _ spelled within
    next => cases read
  | _ => cases read

/-- The fields that are found are among the entries. -/
theorem mem_bufferedFields {names : List String} {entries : List (Wire × Wire)} {found : List (Nat × Wire)}
    (read : bufferedFields names entries = .ok found) {field : Nat × Wire} (member : field ∈ found) :
    ∃ key, (key, field.2) ∈ entries := by
  induction entries generalizing found with
  | nil =>
    cases read
    cases member
  | cons entry rest ih =>
    obtain ⟨key, value⟩ := entry
    obtain ⟨index, _, read⟩ := bind_eq_ok read
    obtain ⟨others, more, done⟩ := bind_eq_ok read
    cases done
    rcases List.mem_append.mp member with first | later
    · obtain ⟨i, _, same⟩ := Option.map_eq_some_iff.mp (Option.mem_toList.mp first)
      exact ⟨key, by simp [← same]⟩
    · obtain ⟨other, known⟩ := ih more later
      exact ⟨other, List.mem_cons_of_mem _ known⟩

theorem mem_bufferedField {names : List String} {index : Nat} {found : List (Nat × Wire)} {value : Wire}
    (read : bufferedField names index found = .ok value) : ∃ i, (i, value) ∈ found := by
  unfold bufferedField at read
  split at read
  · cases read
  next field one =>
    cases read
    exact ⟨field.1, (List.mem_filter.mp (one ▸ List.mem_singleton_self field)).1⟩
  · cases read

/-- The value of a field that was asked for is that of some entry. -/
theorem buffered_within {names : List String} {index : Nat} {entries : List (Wire × Wire)}
    {found : List (Nat × Wire)} {value : Wire} (within : Wire.EntriesWithin l room entries)
    (fields : bufferedFields names entries = .ok found) (read : bufferedField names index found = .ok value) :
    value.Within l room := by
  obtain ⟨i, member⟩ := mem_bufferedField read
  obtain ⟨key, known⟩ := mem_bufferedFields fields member
  exact (Wire.entriesWithin_iff.mp within _ known).2.2

end Decode

namespace Value

theorem itemsToWire_eq_map (items : List Value) : itemsToWire items = items.map toWire := by
  induction items with
  | nil => rfl
  | cons item rest ih => rw [itemsToWire, ih, List.map_cons]

theorem entriesToWire_eq_map (entries : List (String × Value)) :
    entriesToWire entries = entries.map fun entry => (.text entry.1, entry.2.toWire) := by
  induction entries with
  | nil => rfl
  | cons entry rest ih => rw [entriesToWire, ih, List.map_cons]

theorem allWellFormed_iff {items : List Value} : AllWellFormed items ↔ ∀ item ∈ items, item.WellFormed := by
  induction items with
  | nil => simp [AllWellFormed]
  | cons item rest ih => rw [AllWellFormed, ih, List.forall_mem_cons]

theorem entriesWellFormed_iff {entries : List (String × Value)} :
    EntriesWellFormed entries ↔ ∀ entry ∈ entries, entry.2.WellFormed := by
  induction entries with
  | nil => simp [EntriesWellFormed]
  | cons entry rest ih => rw [EntriesWellFormed, ih, List.forall_mem_cons]

/-- A value is well formed, and its wire form is within the limits. -/
structure Kept (l : Limits) (room : Nat) (v : Value) : Prop where
  formed : v.WellFormed
  within : v.toWire.Within l room

/-- The entries of a map are kept, with their keys. -/
def EntriesKept (l : Limits) (room : Nat) (entries : List (String × Value)) : Prop :=
  ∀ entry ∈ entries, l.scalar (.text entry.1) ∧ entry.2.Kept l room

variable {l : Limits} {room : Nat}

theorem EntriesKept.insert {entries : List (String × Value)} (all : EntriesKept l room entries) {key : String}
    {value : Value} (named : l.scalar (.text key)) (keeps : value.Kept l room) :
    EntriesKept l room (Entries.insert key value entries) := by
  intro entry member
  rcases Entries.mem_insert member with rfl | before
  · exact ⟨named, keeps⟩
  · exact all entry before

theorem EntriesKept.formed {entries : List (String × Value)} (all : EntriesKept l room entries) :
    EntriesWellFormed entries :=
  entriesWellFormed_iff.mpr fun entry member => (all entry member).2.formed

/-- A map of kept entries. -/
theorem EntriesKept.within (kept : l.Kept) {entries : List (String × Value)} (all : EntriesKept l room entries)
    (count : l.count entries.length) : (Wire.map (entriesToWire entries)).Within l (room + 1) := by
  rw [entriesToWire_eq_map]
  refine ⟨Nat.succ_pos room, by rwa [List.length_map], Wire.entriesWithin_iff.mpr fun entry member => ?_⟩
  obtain ⟨known, standing, rfl⟩ := List.mem_map.mp member
  have ⟨name, keeps⟩ := all known standing
  exact ⟨kept.named _ name, Wire.within_of_scalar kept name _, keeps.within⟩

mutual

theorem ofWire_kept (kept : l.Kept) {w : Wire} {room : Nat} {v : Value} (within : w.Within l room)
    (read : ofWire w = .ok v) : v.Kept l room := by
  match w, within with
  | .list items, ⟨roomy, count, inside⟩ =>
    obtain ⟨values, each, rfl⟩ := map_eq_ok read
    obtain ⟨same, all⟩ := ofItems_kept kept inside each
    refine ⟨allWellFormed_iff.mpr fun item member => (all item member).formed, roomy, ?_, ?_⟩
    · rwa [itemsToWire_eq_map, List.length_map, same]
    · rw [itemsToWire_eq_map, Wire.itemsWithin_iff]
      intro item member
      obtain ⟨value, known, rfl⟩ := List.mem_map.mp member
      exact (all value known).within
  | .map entries, ⟨roomy, count, inside⟩ =>
    obtain ⟨values, each, rfl⟩ := map_eq_ok read
    obtain ⟨sorted, bound, all⟩ :=
      ofEntries_kept kept inside .nil (fun _ none => (List.not_mem_nil none).elim) each
    obtain ⟨less, rfl⟩ := Nat.exists_eq_add_one.mpr roomy
    exact ⟨⟨sorted, all.formed⟩, all.within kept (kept.fewer _ _ (by simpa using bound) count)⟩
  | .null, scalar =>
    cases read
    exact ⟨trivial, scalar⟩
  | .bool _, scalar =>
    cases read
    exact ⟨trivial, scalar⟩
  | .int i, scalar =>
    cases read
    exact ⟨trivial, kept.widened i scalar⟩
  | .single word, scalar =>
    cases read
    exact ⟨trivial, kept.promoted word scalar⟩
  | .double _, scalar =>
    cases read
    exact ⟨trivial, scalar⟩
  | .text _, scalar =>
    cases read
    exact ⟨trivial, scalar⟩
  | .bytes _, scalar =>
    cases read
    exact ⟨trivial, scalar⟩

theorem ofItems_kept (kept : l.Kept) {items : List Wire} {room : Nat} {values : List Value}
    (within : Wire.ItemsWithin l room items) (read : ofItems items = .ok values) :
    values.length = items.length ∧ ∀ value ∈ values, value.Kept l room := by
  match items, within with
  | [], _ =>
    cases read
    exact ⟨rfl, fun _ none => (List.not_mem_nil none).elim⟩
  | item :: rest, ⟨first, others⟩ =>
    obtain ⟨value, one, read⟩ := bind_eq_ok read
    obtain ⟨more, each, done⟩ := bind_eq_ok read
    cases done
    obtain ⟨same, all⟩ := ofItems_kept kept others each
    exact ⟨congrArg (· + 1) same, List.forall_mem_cons.mpr ⟨ofWire_kept kept first one, all⟩⟩

theorem ofEntries_kept (kept : l.Kept) {entries : List (Wire × Wire)} {room : Nat}
    {found values : List (String × Value)} (within : Wire.EntriesWithin l room entries)
    (sorted : Entries.Sorted found) (before : EntriesKept l room found) (read : ofEntries found entries = .ok values) :
    Entries.Sorted values ∧ values.length ≤ found.length + entries.length ∧ EntriesKept l room values := by
  match entries, within with
  | [], _ =>
    cases read
    exact ⟨sorted, Nat.le_refl _, before⟩
  | (key, value) :: rest, ⟨⟨_, ofKey, ofValue⟩, others⟩ =>
    obtain ⟨name, spelled, read⟩ := bind_eq_ok read
    obtain ⟨v, one, read⟩ := bind_eq_ok read
    obtain ⟨inOrder, bound, all⟩ := ofEntries_kept kept others sorted.insert
      (before.insert (Decode.text_within kept ofKey spelled) (ofWire_kept kept ofValue one)) read
    have more := Entries.length_insert_le name v found
    exact ⟨inOrder, by rw [List.length_cons]; omega, all⟩

end

end Value

namespace Operand

variable {l : Limits} {room : Nat}

theorem ofContent_kept (kept : l.Kept) {kind : Nat} {content : Wire} {o : Operand} (within : content.Within l room)
    (read : ofContent kind content = .ok o) : o.WellFormed ∧ o.toWire.Within l (room + 1) := by
  have text {s : String} (spelled : Decode.text content = .ok s) : (Wire.text s).Within l room :=
    Wire.within_of_scalar kept (Decode.text_within kept within spelled) room
  unfold ofContent at read
  split at read
  · obtain ⟨name, spelled, rfl⟩ := map_eq_ok read
    exact ⟨trivial, Wire.pair_within kept (by decide) (Wire.short_within kept (by decide) _) (text spelled)⟩
  · obtain ⟨value, one, rfl⟩ := map_eq_ok read
    have keeps := Value.ofWire_kept kept within one
    exact ⟨keeps.formed, Wire.pair_within kept (by decide) (Wire.short_within kept (by decide) _) keeps.within⟩
  · obtain ⟨path, spelled, rfl⟩ := map_eq_ok read
    exact ⟨trivial, Wire.pair_within kept (by decide) (Wire.short_within kept (by decide) _) (text spelled)⟩

theorem ofWire_kept (kept : l.Kept) {indexed : Bool} {w : Wire} {o : Operand} (within : w.Within l room)
    (read : ofWire indexed w = .ok o) : o.WellFormed ∧ o.toWire.Within l room := by
  unfold ofWire at read
  split at read
  next entries =>
    obtain ⟨roomy, _, inside⟩ := within
    obtain ⟨less, rfl⟩ := Nat.exists_eq_add_one.mpr roomy
    have content {tag : Wire} (read : (do
        let kind ← Decode.choiceIndex indexed kinds tag
        let content ← Decode.bufferedFields [fieldName kind] (entries.filter fun entry => !Decode.isKindKey entry.1) >>=
          Decode.bufferedField [fieldName kind] 0
        ofContent kind content) = .ok o) : o.WellFormed ∧ o.toWire.Within l (less + 1) := by
      obtain ⟨kind, _, read⟩ := bind_eq_ok read
      obtain ⟨content, buffered, read⟩ := bind_eq_ok read
      obtain ⟨found, fields, one⟩ := bind_eq_ok buffered
      refine ofContent_kept kept (Decode.buffered_within ?_ fields one) read
      exact Wire.entriesWithin_iff.mpr fun entry member =>
        Wire.entriesWithin_iff.mp inside entry (List.mem_filter.mp member).1
    dsimp only at read
    split at read
    · cases read
    · exact content read
    · cases read
  next tag content =>
    obtain ⟨roomy, _, _, ofContent, _⟩ := within
    obtain ⟨less, rfl⟩ := Nat.exists_eq_add_one.mpr roomy
    obtain ⟨kind, _, read⟩ := bind_eq_ok read
    exact ofContent_kept kept ofContent read
  next => cases read

end Operand

namespace Comparison

variable {l : Limits} {room : Nat}

theorem ofEntries_kept (kept : l.Kept) {entries : List (Wire × Wire)} {c : Comparison}
    (within : Wire.EntriesWithin l room entries) (read : ofEntries entries = .ok c) :
    c.operand.WellFormed ∧ ∀ field ∈ c.fields, (Text.utf8 field.1).length < 16 ∧ field.2.Within l room := by
  obtain ⟨found, fields, read⟩ := bind_eq_ok read
  obtain ⟨location, ofLocation, read⟩ := bind_eq_ok read
  obtain ⟨operation, _, read⟩ := bind_eq_ok read
  obtain ⟨operand, ofOperand, done⟩ := bind_eq_ok read
  obtain ⟨spelled, one, spells⟩ := bind_eq_ok ofLocation
  obtain ⟨content, other, reads⟩ := bind_eq_ok ofOperand
  cases done
  have name := Decode.text_within kept (Decode.buffered_within within fields one) spells
  have ⟨formed, inside⟩ := Operand.ofWire_kept kept (Decode.buffered_within within fields other) reads
  have sign : (Text.utf8 (operationAt operation).name).length < 16 := by
    cases operationAt operation <;> decide
  refine ⟨formed, ?_⟩
  rw [Comparison.fields]
  simp only [List.forall_mem_cons]
  exact ⟨⟨by decide, Wire.within_of_scalar kept name room⟩,
    ⟨by decide, Wire.short_within kept sign room⟩, ⟨by decide, inside⟩,
    fun _ none => (List.not_mem_nil none).elim⟩

end Comparison

end RunQuery
