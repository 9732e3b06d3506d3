import RunQuery.Proofs.MsgPack.Scanner
import RunQuery.Proofs.Wire.Message

/-!
Messages read back from MessagePack. A reader takes one message and leaves the bytes after it.
-/
namespace RunQuery.MsgPack

/-- A request comes back with the predicate of its filter in normal form, a page as it was. -/
theorem messages_read_back :
    (∀ (r : Request) (rest : List UInt8), r.Sendable → r.toWire.Fits → r.toWire.depth ≤ room →
      decode Request.decode (write r.toWire ++ rest) = .ok r.normalized) ∧
    (∀ (p : Page) (rest : List UInt8), (∀ r ∈ p.records, r.data.WellFormed) → p.toWire.Fits → p.toWire.depth ≤ room →
      decode Page.decode (write p.toWire ++ rest) = .ok p) := by
  constructor
  · intro r rest sendable fits deep
    rw [decode, scan_write fits]
    exact Request.decode_ofWire _ sendable deep
  · intro p rest formed fits deep
    rw [decode, scan_write fits]
    exact Page.decode_ofWire _ formed deep

/-- What is left of a request whose predicate has connectives without leaves; and a page of one record. -/
theorem messages_read_back_degenerate :
    let status : Predicate := .compare ⟨"status", .eq, .bind "s"⟩
    let near : Predicate := .unknown "near" (.map [(.text "kind", .text "near"), (.null, .int (-129))])
    let params := Dict.ofList [("s", .number ⟨0x7ff8000000000001⟩), ("t", .map [("a", .none), ("b", .binary [1])])]
    let request (p : Predicate) : Request :=
      ⟨some ⟨some p, params⟩, [⟨"started", .descending⟩], some 0xffffffff, some (.backward "0200000000000000")⟩
    let page : Page := ⟨[⟨"r0", "run", 0xffffffffffffffff, .map [("n", .number ⟨0x8000000000000000⟩)]⟩],
      some "0100000000000000", none⟩
    decode Request.decode (write (request (.and [.or [], .not (.and [.or []]), .or [status], near])).toWire ++
      [0xc1, 0x00]) = .ok (request (.and [status, near])) ∧
    decode Page.decode (write page.toWire ++ [0xc1]) = .ok page := by
  refine ⟨messages_read_back.1 _ _ ?_ (by decide) (by decide), messages_read_back.2 _ _ ?_ (by decide) (by decide)⟩
  · rintro f ⟨⟩
    refine ⟨?_, ⟨trivial, ⟨?_, trivial, trivial, trivial⟩, trivial⟩⟩
    · rintro p ⟨⟩
      exact ⟨trivial, ⟨trivial, trivial⟩, ⟨trivial, trivial⟩, ⟨_, rfl, rfl, by decide⟩, trivial⟩
    · rw [Entries.Sorted]
      decide
  · intro r member
    obtain rfl := List.mem_singleton.mp member
    exact ⟨List.pairwise_singleton _ _, trivial, trivial⟩

end RunQuery.MsgPack
