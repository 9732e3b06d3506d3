import RunQuery.Proofs.Json.Message
import RunQuery.Proofs.MsgPack.Accepted
import RunQuery.Proofs.Predicate.Comparison
import RunQuery.Proofs.Wire.Accepted.Unknown

/-!
Nodes of unknown kinds on their way through filters. A filter that is accepted holds those that were sent, in their
order and with all that is in them. Filters that are conjoined have them one after another, an edit touches none but
those of the node that it replaces, and what is written holds them all. JSON reads their numbers from numerals, and
may take a number for another one there; nothing else is changed.
-/
namespace RunQuery

namespace Predicate

/-- The nodes of unknown kinds before a path. -/
def unknownsBefore (path : Path) (p : Predicate) : List (String × Wire) := (leavesBefore path p).filterMap unknown?

/-- The nodes of unknown kinds after a path. -/
def unknownsAfter (path : Path) (p : Predicate) : List (String × Wire) := (leavesAfter path p).filterMap unknown?

theorem unknowns_at? {root node : Predicate} {path : Path} (found : root.at? path = some node) :
    root.unknowns = unknownsBefore path root ++ node.unknowns ++ unknownsAfter path root := by
  rw [unknowns, leaves_at? found, List.filterMap_append, List.filterMap_append]
  rfl

theorem unknowns_replaceAt {root : Predicate} {path : Path} {replacement after : Option Predicate}
    (done : root.replaceAt path replacement = .ok after) :
    ∃ node, root.at? path = some node ∧
      root.unknowns = unknownsBefore path root ++ node.unknowns ++ unknownsAfter path root ∧
      unknownsOf after.toList =
        unknownsBefore path root ++ unknownsOf replacement.toList ++ unknownsAfter path root := by
  obtain ⟨node, found, leaves⟩ := leaves_replaceAt done
  refine ⟨node, found, unknowns_at? found, ?_⟩
  rw [unknownsOf, leaves, List.filterMap_append, List.filterMap_append]
  rfl

/-- A comparison that is changed is no unknown node, and stays a comparison. -/
theorem unknowns_editComparison {root after : Predicate} {path : Path} {edit : Comparison → Comparison}
    (done : root.editComparison path edit = .ok after) : after.unknowns = root.unknowns := by
  obtain ⟨c, -, exchanged⟩ := editComparison_eq_ok done
  obtain ⟨before, behind, -, -, old, new⟩ := exchanged.leaves
  rw [unknowns, unknowns, old, new, List.filterMap_append, List.filterMap_append]
  rfl

end Predicate

open RunQuery.Filter (unknowns)

/-- The nodes of unknown kinds of a filter that is accepted are those of what was read. What is written is read as it
was, in JSON with its numbers read again; and what is written of a filter holds its nodes. Filters that are conjoined
have them one after another, and an edit exchanges those of the node at its path. -/
theorem unknown_nodes_kept (bytes : List UInt8) (text : List Char) (w : Wire) :
    (∀ f, MsgPack.decode Filter.decode bytes = .ok f →
      unknowns (some f) = (MsgPack.scan bytes).toWire.filterUnknowns ∧ Wire.Received (unknowns (some f))) ∧
    (∀ f, Json.decode Filter.decode text = .ok f →
      unknowns (some f) = (Json.scan text).value.toWire.filterUnknowns ∧ Wire.Received (unknowns (some f))) ∧
    (w.Fits → ∀ rest, (MsgPack.scan (MsgPack.write w ++ rest)).toWire.filterUnknowns = w.filterUnknowns) ∧
    (w.Textual → ∃ written, Json.compact? w = some written ∧
      (Json.scan written.toList).value.toWire.filterUnknowns = w.filterUnknowns.map (Wire.renumbered Json.reread) ∧
      ((∀ node ∈ w.filterUnknowns, ∀ n ∈ node.2.numbers, Json.reread n = n) →
        (Json.scan written.toList).value.toWire.filterUnknowns = w.filterUnknowns)) ∧
    (∀ f : Filter, Wire.Received (unknowns (some f)) → f.toWire.filterUnknowns = unknowns (some f)) ∧
    (∀ a b, unknowns (Filter.conjoin a b) = unknowns a ++ unknowns b) ∧
    (∀ (root : Predicate) path replacement after, root.replaceAt path replacement = .ok after →
      ∃ node, root.at? path = some node ∧
        root.unknowns = root.unknownsBefore path ++ node.unknowns ++ root.unknownsAfter path ∧
        Predicate.unknownsOf after.toList =
          root.unknownsBefore path ++ Predicate.unknownsOf replacement.toList ++ root.unknownsAfter path) ∧
    (∀ (root : Predicate) path operation after, root.setOperation path operation = .ok after →
      after.unknowns = root.unknowns) ∧
    (∀ (root : Predicate) path operand after, root.setOperand path operand = .ok after →
      after.unknowns = root.unknowns) := by
  refine ⟨?_, ?_, ?_, ?_, ?_, ?_, ?_, ?_, ?_⟩
  · intro f read
    have same := Filter.unknowns_decode read
    exact ⟨same, same ▸ Wire.received_filterUnknowns _⟩
  · intro f read
    have same := Filter.unknowns_decode (Json.decoded_of_ok read)
    exact ⟨same, same ▸ Wire.received_filterUnknowns _⟩
  · intro fits rest
    rw [MsgPack.scan_write fits, Scan.toWire_ofWire]
  · intro textual
    obtain ⟨written, encoded, scanned⟩ := Json.scan_compact (textual.within (Nat.le_refl _))
    have again : (Json.scan written.toList).value.toWire.filterUnknowns =
        w.filterUnknowns.map (Wire.renumbered Json.reread) := by
      rw [scanned, Scan.toWire_ofWire, Wire.filterUnknowns_mapNumbers]
    refine ⟨written, encoded, again, ?_⟩
    intro fixed
    rw [again, Wire.renumbered_of_fixed _ fixed]
  · intro f received
    exact Filter.unknowns_toWire received
  · intro a b
    rw [unknowns, Filter.leaves_conjoin, List.filterMap_append]
    rfl
  · intro root path replacement after done
    exact Predicate.unknowns_replaceAt done
  · intro root path operation after done
    exact Predicate.unknowns_editComparison done
  · intro root path operand after done
    exact Predicate.unknowns_editComparison done

/-- A node with a key twice and with the tag of a known kind behind its own, found below a conjunction of one; a node
below a negation; and a node in JSON. -/
theorem unknown_nodes_kept_nested :
    let geo := Wire.map [(.text "at", .single 0x3fc00000), (.text "kind", .text "geo"), (.text "kind", .text "and"),
      (.text "at", .int (-1))]
    let near := Wire.record [("kind", .text "near"), ("radius", .double ⟨0x3ff8000000000000⟩)]
    let status := Comparison.mk "status" .eq (.bind "s")
    let sent := Wire.record [("predicate", .record [("kind", .text "or"), ("children", .list
      [.record [("kind", .text "and"), ("children", .list [geo])], .record [("kind", .text "not"), ("child", near)],
        (Predicate.compare status).toWire])])]
    let root := Predicate.or [.unknown "geo" geo, .not (.unknown "near" near), .compare status]
    let f : Filter := ⟨some root, .empty⟩
    let g : Filter := ⟨some (.not (.unknown "near" near)), .empty⟩
    let nodes := [("geo", geo), ("near", near)]
    MsgPack.decode Filter.decode (MsgPack.write sent) = .ok f ∧ unknowns (some f) = nodes ∧
    unknowns (Filter.conjoin (some f) (some g)) = nodes ++ [("near", near)] ∧
    (∃ after, root.replaceAt [0] none = .ok after ∧ Predicate.unknownsOf after.toList = [("near", near)]) ∧
    (∃ after, root.setOperation [2] .gt = .ok after ∧ after.unknowns = nodes) ∧
    (MsgPack.scan (MsgPack.write f.toWire ++ [0xc1])).toWire.filterUnknowns = nodes ∧
    ∃ text, Json.compact? g.toWire = some text ∧
      (Json.scan text.toList).value.toWire.filterUnknowns = [("near", near)] := by
  intro geo near status sent root f g nodes
  have read : MsgPack.decode Filter.decode (MsgPack.write sent) = .ok f := by
    rw [MsgPack.decode, ← List.append_nil (MsgPack.write sent), MsgPack.scan_write (by decide)]
    rfl
  have textual : g.toWire.Textual :=
    ⟨⟨⟨_, rfl⟩, ⟨⟨_, rfl⟩, trivial⟩, ⟨⟨_, rfl⟩, ⟨⟨_, rfl⟩, trivial⟩, ⟨⟨_, rfl⟩, rfl⟩, trivial⟩, trivial⟩, trivial⟩
  obtain ⟨accepted, -, packed, -, written, joined, replaced, operated, -⟩ :=
    unknown_nodes_kept (MsgPack.write sent) [] f.toWire
  obtain ⟨-, -, -, spelled, -⟩ := unknown_nodes_kept [] [] g.toWire
  obtain ⟨text, encoded, -, same⟩ := spelled textual
  obtain ⟨-, -, -, left⟩ := replaced root [0] none _ rfl
  refine ⟨read, rfl, joined (some f) (some g), ⟨_, rfl, left⟩, ⟨_, rfl, operated root [2] .gt _ rfl⟩, ?_, text, encoded,
    ?_⟩
  · rw [packed (by decide) [0xc1], written f (accepted f read).2]
    rfl
  · apply same
    intro node member
    obtain rfl := List.mem_singleton.mp member
    decide +kernel

/-- JSON takes a number of a node for another one: the node is not held as it was sent. -/
theorem node_drifts : ¬ ∀ (w : Wire) (text : String) (f : Filter),
    Json.compact? w = some text → Json.decode Filter.decode text.toList = .ok f →
      unknowns (some f) = w.filterUnknowns := by
  intro kept
  let sent := Wire.record [("predicate", .record [("kind", .text "geo"), ("radius", .double ⟨0x408d2ce295f74739⟩)])]
  let text := "\x7b\"predicate\":\x7b\"kind\":\"geo\",\"radius\":933.6106375998125\x7d\x7d"
  have written : Json.compact? sent = some text := by decide +kernel
  have read : (Json.decode Filter.decode text.toList).toOption.map
      (fun f => (unknowns (some f)).flatMap fun node => node.2.numbers) = some [⟨0x408d2ce295f74738⟩] := by
    decide +kernel
  obtain ⟨f, accepted, other⟩ := exists_of_toOption read
  rw [kept sent text f written accepted] at other
  revert other
  decide

end RunQuery
