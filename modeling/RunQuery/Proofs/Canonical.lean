import RunQuery.Proofs.Json.Scanner
import RunQuery.Proofs.MsgPack.Accepted

/-!
Decoding makes canonical. Whatever spelling of a message is accepted, the predicate it carries is absent or
collapsed. Encoded in the same format, the message is accepted again: MessagePack gives it back as it was, JSON but
for its numbers, which are read from their numerals once more. As the reader rounds in steps, a number may come back
as another one.
-/
namespace RunQuery

/-- Every filter and every request that is accepted is canonical, and its encoding in the same format is accepted: in
MessagePack as the same message, in JSON as the message with its numbers read again, which is the same message where
each number is read again as itself. -/
theorem decoding_canonicalizes (bytes : List UInt8) (text : List Char) :
    (∀ f : Filter, MsgPack.decode Filter.decode bytes = .ok f →
      f.Canonical ∧ MsgPack.decode Filter.decode (MsgPack.write f.toWire) = .ok f) ∧
    (∀ r : Request, MsgPack.decode Request.decode bytes = .ok r →
      r.Canonical ∧ MsgPack.decode Request.decode (MsgPack.write r.toWire) = .ok r) ∧
    (∀ f : Filter, Json.decode Filter.decode text = .ok f →
      f.Canonical ∧ ∃ written, Json.compact? f.toWire = some written ∧
        Json.decode Filter.decode written.toList = .ok (f.mapNumbers Json.reread) ∧
        ((∀ n ∈ f.toWire.numbers, Json.reread n = n) → Json.decode Filter.decode written.toList = .ok f)) ∧
    (∀ r : Request, Json.decode Request.decode text = .ok r →
      r.Canonical ∧ ∃ written, Json.compact? r.toWire = some written ∧
        Json.decode Request.decode written.toList = .ok (r.mapNumbers Json.reread) ∧
        ((∀ n ∈ r.toWire.numbers, Json.reread n = n) → Json.decode Request.decode written.toList = .ok r)) := by
  refine ⟨fun f read => ?_, fun r read => ?_, fun f read => ?_, fun r read => ?_⟩
  · have keeps := MsgPack.filter_kept read
    exact ⟨keeps.canonical, (MsgPack.decode_write keeps.within _).trans (keeps.decode_ofWire _)⟩
  · have keeps := MsgPack.request_kept read
    exact ⟨keeps.canonical, (MsgPack.decode_write keeps.within _).trans (keeps.decode_ofWire _)⟩
  · have keeps := Json.filter_kept read
    have again := (keeps.mapNumbers Json.reread fun _ => Json.isFinite_reread).decode_ofWire ⟨false, false⟩
    rw [f.toWire_mapNumbers] at again
    exact ⟨keeps.canonical, Json.decode_compact keeps.within again (keeps.decode_ofWire _)⟩
  · have keeps := Json.request_kept read
    have again := (keeps.mapNumbers Json.reread fun _ => Json.isFinite_reread).decode_ofWire ⟨false, false⟩
    rw [r.toWire_mapNumbers] at again
    exact ⟨keeps.canonical, Json.decode_compact keeps.within again (keeps.decode_ofWire _)⟩

/-- A filter and a request that come as lists, with needless connectives, repeated keys and integers; and a filter
whose number comes back as another. -/
theorem decoding_canonicalizes_spellings :
    let near := Wire.record [("kind", .text "near")]
    let single := Wire.record [("kind", .text "and"), ("children", .list [near])]
    let sent := MsgPack.write (.list [.record [("kind", .text "or"), ("children", .list
      [.record [("kind", .text "and"), ("children", .list [])], .record [("kind", .text "not"), ("child", single)]])],
      .record [("x", .int 1), ("x", .int (-2))]])
    let kept := MsgPack.write (.record [("predicate", .record [("kind", .text "not"), ("child", near)]),
      ("params", .record [("x", .double ⟨0xc000000000000000⟩)])])
    let text := "[\x7b\"predicate\":\x7b\"kind\":\"or\",\"children\":[\x7b\"kind\":\"near\"\x7d]\x7d," ++
      "\"params\":\x7b\"n\":1,\"n\":5\x7d\x7d,[],null]"
    let again := "\x7b\"where\":\x7b\"predicate\":\x7b\"kind\":\"near\"\x7d,\"params\":\x7b\"n\":5.0\x7d\x7d\x7d"
    (∃ f, MsgPack.decode Filter.decode sent = .ok f ∧ f.Canonical ∧ MsgPack.write f.toWire = kept ∧
      MsgPack.decode Filter.decode kept = .ok f) ∧
    (∃ r, Json.decode Request.decode text.toList = .ok r ∧ r.Canonical ∧ Json.compact? r.toWire = some again ∧
      Json.decode Request.decode again.toList = .ok r) ∧
    (∃ f, Json.decode Filter.decode "\x7b\"params\":\x7b\"x\":933.6106375998126\x7d\x7d".toList = .ok f ∧
      f.toWire.numbers = [⟨0x408d2ce295f74739⟩] ∧ Json.reread ⟨0x408d2ce295f74739⟩ = ⟨0x408d2ce295f74738⟩ ∧
      Json.decode Filter.decode "\x7b\"params\":\x7b\"x\":933.6106375998125\x7d\x7d".toList =
        .ok (f.mapNumbers Json.reread)) := by
  intro near single sent kept text again
  refine ⟨?_, ?_, ?_⟩
  · have bytes : (MsgPack.decode Filter.decode sent).toOption.map (fun f => MsgPack.write f.toWire) = some kept := by
      decide +kernel
    obtain ⟨f, read, same⟩ := exists_of_toOption bytes
    obtain ⟨canonical, back⟩ := (decoding_canonicalizes sent []).1 f read
    exact ⟨f, read, canonical, same, same ▸ back⟩
  · have known : (Json.decode Request.decode text.toList).toOption.map
        (fun r => (Json.compact? r.toWire, r.toWire.numbers)) = some (some again, [⟨0x4014000000000000⟩]) := by
      decide +kernel
    obtain ⟨r, read, same⟩ := exists_of_toOption known
    obtain ⟨encoded, numbers⟩ := Prod.mk.inj same
    obtain ⟨canonical, written, encodes, _, same⟩ := (decoding_canonicalizes [] text.toList).2.2.2 r read
    rw [encoded] at encodes
    cases encodes
    refine ⟨r, read, canonical, encoded, same fun n member => ?_⟩
    rw [numbers] at member
    obtain rfl := List.mem_singleton.mp member
    decide +kernel
  · have known : (Json.decode Filter.decode "\x7b\"params\":\x7b\"x\":933.6106375998126\x7d\x7d".toList).toOption.map
        (fun f => (Json.compact? f.toWire, f.toWire.numbers)) =
        some (some "\x7b\"params\":\x7b\"x\":933.6106375998125\x7d\x7d", [⟨0x408d2ce295f74739⟩]) := by
      decide +kernel
    obtain ⟨f, read, same⟩ := exists_of_toOption known
    obtain ⟨encoded, numbers⟩ := Prod.mk.inj same
    obtain ⟨_, written, encodes, drifts, _⟩ := (decoding_canonicalizes [] _).2.2.1 f read
    rw [encoded] at encodes
    cases encodes
    exact ⟨f, read, numbers, by decide +kernel, drifts⟩

/-- What JSON writes of a number it has read is read as another number. -/
theorem numeral_drifts : ¬ ∀ (text : List Char) (f : Filter) (written : String),
    Json.decode Filter.decode text = .ok f → Json.compact? f.toWire = some written →
      Json.decode Filter.decode written.toList = .ok f := by
  intro stable
  have sent : (Json.decode Filter.decode "\x7b\"params\":\x7b\"x\":933.6106375998126\x7d\x7d".toList).toOption.map
      (fun f => (f.toWire.numbers, Json.compact? f.toWire)) =
      some ([⟨0x408d2ce295f74739⟩], some "\x7b\"params\":\x7b\"x\":933.6106375998125\x7d\x7d") := by
    decide +kernel
  have again : (Json.decode Filter.decode "\x7b\"params\":\x7b\"x\":933.6106375998125\x7d\x7d".toList).toOption.map
      (fun f => f.toWire.numbers) = some [⟨0x408d2ce295f74738⟩] := by
    decide +kernel
  obtain ⟨f, read, same⟩ := exists_of_toOption sent
  obtain ⟨g, readAgain, other⟩ := exists_of_toOption again
  obtain ⟨numbers, written⟩ := Prod.mk.inj same
  rw [stable _ f _ read written] at readAgain
  cases readAgain
  rw [numbers] at other
  revert other
  decide

end RunQuery
