import RunQuery.Proofs.Dict
import RunQuery.Proofs.Except
import RunQuery.Wire.Decode
import RunQuery.Wire.Encode

/-!
Values and operands read back from their wire form. A reader that follows as many containers as the wire form
has inside each other gets the form as it was, and from it the value: the entries of a map come in the order of
their keys, so each is put at the end.
-/
namespace RunQuery

namespace Wire

mutual

/-- Number of containers inside each other. -/
def depth : Wire → Nat
  | .list items => itemsDepth items + 1
  | .map entries => entriesDepth entries + 1
  | _ => 0

def itemsDepth : List Wire → Nat
  | [] => 0
  | item :: rest => max item.depth (itemsDepth rest)

def entriesDepth : List (Wire × Wire) → Nat
  | [] => 0
  | (key, value) :: rest => max (max key.depth value.depth) (entriesDepth rest)

end

end Wire

namespace Scan

mutual

theorem read_ofWire {w : Wire} {room : Nat} (deep : w.depth ≤ room) : (ofWire w).read room = .ok w := by
  match w with
  | .list items =>
    rw [Wire.depth] at deep
    have inside : Wire.itemsDepth items ≤ room - 1 := by omega
    rw [ofWire, read, if_neg (by omega), readItems_ofItems inside]
    rfl
  | .map entries =>
    rw [Wire.depth] at deep
    have inside : Wire.entriesDepth entries ≤ room - 1 := by omega
    rw [ofWire, read, if_neg (by omega), readEntries_ofEntries inside]
    rfl
  | .null => rfl
  | .bool b => rfl
  | .int i => rfl
  | .single word => rfl
  | .double n => rfl
  | .text s => rfl
  | .bytes b => rfl

theorem readItems_ofItems {items : List Wire} {room : Nat} (deep : Wire.itemsDepth items ≤ room) :
    readItems room (ofItems items) = .ok items := by
  match items with
  | [] => rfl
  | item :: rest =>
    obtain ⟨first, others⟩ := Nat.max_le.mp deep
    rw [ofItems, readItems, read_ofWire first, readItems_ofItems others]
    rfl

theorem readEntries_ofEntries {entries : List (Wire × Wire)} {room : Nat}
    (deep : Wire.entriesDepth entries ≤ room) : readEntries room (ofEntries entries) = .ok entries := by
  match entries with
  | [] => rfl
  | (key, value) :: rest =>
    obtain ⟨first, others⟩ := Nat.max_le.mp deep
    obtain ⟨ofKey, ofValue⟩ := Nat.max_le.mp first
    rw [ofEntries, readEntries, read_ofWire ofKey, read_ofWire ofValue, readEntries_ofEntries others]
    rfl

end

end Scan

namespace Value

mutual

theorem ofWire_toWire {v : Value} (formed : v.WellFormed) : ofWire v.toWire = .ok v := by
  match v, formed with
  | .list items, formed =>
    rw [toWire, ofWire, ofItems_itemsToWire formed]
    rfl
  | .map entries, ⟨sorted, formed⟩ =>
    rw [toWire, ofWire, ofEntries_entriesToWire [] sorted formed]
    rfl
  | .none, _ => rfl
  | .text s, _ => rfl
  | .number n, _ => rfl
  | .bool b, _ => rfl
  | .binary b, _ => rfl

theorem ofItems_itemsToWire {items : List Value} (formed : AllWellFormed items) :
    ofItems (itemsToWire items) = .ok items := by
  match items, formed with
  | [], _ => rfl
  | item :: rest, ⟨first, others⟩ =>
    rw [itemsToWire, ofItems, ofWire_toWire first, ofItems_itemsToWire others]
    rfl

/-- Entries after those that were found are put behind them. -/
theorem ofEntries_entriesToWire (found : List (String × Value)) {entries : List (String × Value)}
    (sorted : Entries.Sorted (found ++ entries)) (formed : EntriesWellFormed entries) :
    ofEntries found (entriesToWire entries) = .ok (found ++ entries) := by
  match entries, formed with
  | [], _ => rw [List.append_nil]; rfl
  | (key, value) :: rest, ⟨first, others⟩ =>
    have next := ofEntries_entriesToWire (found ++ [(key, value)])
      (by rwa [List.append_assoc, List.singleton_append]) others
    rw [List.append_assoc, List.singleton_append, ← Entries.insert_of_all_lt sorted.all_lt] at next
    rw [entriesToWire, ofEntries, ofWire_toWire first]
    exact next

end

theorem decode_ofWire {v : Value} (formed : v.WellFormed) {room : Nat} (deep : v.toWire.depth ≤ room) :
    decode room (Scan.ofWire v.toWire) = .ok v := by
  rw [decode, Scan.read_ofWire deep]
  exact ofWire_toWire formed

end Value

namespace Operand

/-- The literals in the operand are well formed. -/
def WellFormed : Operand → Prop
  | .literal value => value.WellFormed
  | _ => True

theorem ofWire_toWire {o : Operand} (formed : o.WellFormed) : ofWire true o.toWire = .ok o := by
  cases o with
  | bind name => rfl
  | field path => rfl
  | literal value =>
    have content : Value.ofWire value.toWire = .ok value := Value.ofWire_toWire formed
    show (Value.ofWire value.toWire).map Operand.literal = _
    rw [content]
    rfl

end Operand

namespace Comparison

theorem bufferedChoice_name (operation : Operation) :
    Decode.bufferedChoice operationNames (.text operation.name) = .ok (Operation.all.idxOf operation) := by
  cases operation <;> rfl

theorem operationAt_idxOf (operation : Operation) : operationAt (Operation.all.idxOf operation) = operation := by
  cases operation <;> rfl

/-- A comparison from its fields, as they stand in a predicate node. -/
theorem ofEntries_fields {c : Comparison} (formed : c.operand.WellFormed) :
    ofEntries (c.fields.map fun field => (.text field.1, field.2)) = .ok c := by
  have found : Decode.bufferedFields fieldNames (c.fields.map fun field => (.text field.1, field.2)) =
      .ok [(0, .text c.location), (1, .text c.operation.name), (2, c.operand.toWire)] := rfl
  rw [ofEntries, found]
  show (do
    let operation ← Decode.bufferedChoice operationNames (.text c.operation.name)
    let operand ← Operand.ofWire true c.operand.toWire
    return (⟨c.location, operationAt operation, operand⟩ : Comparison)) = .ok c
  rw [bufferedChoice_name, Operand.ofWire_toWire formed]
  show Except.ok (⟨c.location, operationAt (Operation.all.idxOf c.operation), c.operand⟩ : Comparison) = .ok c
  rw [operationAt_idxOf]

end Comparison

end RunQuery
