import RunQuery.Proofs.Json.Message
import RunQuery.Proofs.MsgPack.Message
import RunQuery.Proofs.Predicate.Conjoin
import RunQuery.Proofs.Predicate.Meaning
import Mathlib.Logic.Relation

/-!
Filters that are recast. A filter loses its needless connectives when it is normalized, when a node of it is put in
its own place, and when it is sent and read back. It selects the same records afterwards, as long as none of its
connectives is empty and the format carries what it holds. JSON has no bytes, and neither format carries a tree that
is too deep, even where this is a pile of conjunctions of one.
-/
namespace RunQuery

/-- What comes through MessagePack: raw nodes as a reader gives them, lengths that a header can announce, and no more
levels than a reader takes. -/
structure MsgPack.Carries (f : Filter) : Prop where
  sendable : f.Sendable
  fits : f.toWire.Fits
  deep : f.toWire.depth ≤ MsgPack.room

/-- What comes through JSON: raw nodes as a reader gives them, no bytes, finite numbers that are read from their
numerals as themselves, and no more levels than a reader takes. -/
structure Json.Carries (f : Filter) : Prop where
  sendable : f.Sendable
  textual : f.Textual
  deep : f.toWire.depth ≤ Json.room
  exact : ∀ n ∈ f.toWire.numbers, Json.reread n = n

namespace Filter

theorem normalized_of_msgPack {f : Filter} (carried : MsgPack.Carries f) (rest : List UInt8) :
    MsgPack.decode Filter.decode (MsgPack.write f.toWire ++ rest) = .ok f.normalized := by
  rw [MsgPack.decode, MsgPack.scan_write carried.fits]
  exact Filter.decode_ofWire _ carried.sendable carried.deep

theorem normalized_of_json {f : Filter} (carried : Json.Carries f) :
    ∃ text, Json.compact? f.toWire = some text ∧ Json.decode Filter.decode text.toList = .ok f.normalized := by
  have read := Filter.decode_ofWire ⟨false, false⟩ carried.sendable carried.deep
  have unchanged := Wire.mapNumbers_of_fixed _ carried.exact
  obtain ⟨text, written, same, -⟩ :=
    Json.decode_compact (carried.textual.toWire.within carried.deep) (unchanged.symm ▸ read) read
  exact ⟨text, written, same⟩

/-- Every conjunction and disjunction of the predicate has a child. -/
def Populated (f : Filter) : Prop := ∀ p ∈ f.predicate, p.Populated

/-- A filter written anew: in normal form, with one of its nodes put in its own place, or as it is read from what was
written of it. -/
inductive Recast (f : Filter) : Filter → Prop where
  | normalized : Recast f f.normalized
  | edited {root node : Predicate} {path : Path} {after : Option Predicate} (standing : f.predicate = some root)
      (found : root.at? path = some node) (done : root.replaceAt path (some node) = .ok after) :
      Recast f { f with predicate := after }
  | msgPack {rest : List UInt8} {g : Filter} (carried : MsgPack.Carries f)
      (read : MsgPack.decode Filter.decode (MsgPack.write f.toWire ++ rest) = .ok g) : Recast f g
  | json {text : String} {g : Filter} (carried : Json.Carries f) (written : Json.compact? f.toWire = some text)
      (read : Json.decode Filter.decode text.toList = .ok g) : Recast f g

/-- Two filters with the same parameters and the same leaves, which say the same of every record. -/
structure Alike (f g : Filter) : Prop where
  params : f.params = g.params
  leaves : leaves (some f) = leaves (some g)
  evaluate : ∀ r, f.evaluate r = g.evaluate r

namespace Alike

variable {f g h : Filter}

theorem refl (f : Filter) : Alike f f := ⟨rfl, rfl, fun _ => rfl⟩

theorem trans (first : Alike f g) (second : Alike g h) : Alike f h :=
  ⟨first.params.trans second.params, first.leaves.trans second.leaves,
    fun r => (first.evaluate r).trans (second.evaluate r)⟩

theorem of_predicates {p q : Predicate} {params : Dict Value} (leaves : p.leaves = q.leaves)
    (same : Predicate.Equivalent p q) : Alike ⟨some p, params⟩ ⟨some q, params⟩ :=
  ⟨rfl, leaves, same params⟩

theorem missingBinds (alike : Alike f g) : f.missingBinds = g.missingBinds := by
  have named (f : Filter) : f.missingBinds =
      (sortedTexts ((Filter.leaves (some f)).filterMap Predicate.bindName?)).filter fun name =>
        !f.params.contains name := by
    rcases f with ⟨none | p, params⟩ <;> rfl
  rw [named, named, alike.params, alike.leaves]

theorem selectRecords (alike : Alike f g) (records : List Record) :
    selectRecords f.predicate f.params records = selectRecords g.predicate g.params records := by
  have faults : f.fault? = g.fault? := funext fun r => by rw [fault?, fault?, alike.evaluate]
  have verdicts : f.selects = g.selects := funext fun r => by rw [selects, selects, alike.evaluate]
  rw [selectRecords_eq, selectRecords_eq, faults, verdicts]

/-- A store gives them the same answer. -/
theorem query (alike : Alike f g) (m : Memory) (sort : List SortKey) (limit : Option UInt32)
    (cursor : Option Cursor) : m.query ⟨some f, sort, limit, cursor⟩ = m.query ⟨some g, sort, limit, cursor⟩ := by
  have valid : f.validate = g.validate := by rw [validate, validate, alike.missingBinds]
  have found (records : List Record) : Memory.result records ⟨some f, sort, limit, cursor⟩ =
      Memory.result records ⟨some g, sort, limit, cursor⟩ := by
    rw [Memory.result, Memory.result, Option.getD_some, Option.getD_some, valid, alike.selectRecords]
  rw [Memory.query, Memory.query, Memory.answer, Memory.answer, found]

end Alike

variable {f g : Filter}

theorem normalized_populated (populated : f.Populated) : f.normalized.Populated ∧ Alike f.normalized f := by
  rcases f with ⟨none | p, params⟩
  · exact ⟨populated, .refl _⟩
  · obtain ⟨q, normal, filled, same⟩ := (populated p rfl).normalized?
    have leaves := Predicate.leavesOf_normalized? p
    rw [normal, Option.toList_some, Predicate.leavesOf_singleton] at leaves
    have recast : normalized ⟨some p, params⟩ = ⟨some q, params⟩ := by rw [normalized, Option.bind_some, normal]
    rw [recast]
    exact ⟨fun _ member => Option.some.inj member ▸ filled, .of_predicates leaves same⟩

/-- What is recast is populated again, and like what it was before. -/
theorem Recast.alike (recast : Recast f g) (populated : f.Populated) : g.Populated ∧ Alike g f := by
  cases recast with
  | normalized => exact normalized_populated populated
  | @edited root node path after standing found done =>
    obtain ⟨predicate, params⟩ := f
    obtain rfl : predicate = some root := standing
    have whole : root.Populated := populated root rfl
    have filled : node.Populated := whole.at? found
    obtain ⟨q, replaced, kept, same⟩ := Predicate.replaceAt_equivalent filled whole found
    obtain rfl : after = some q := Except.ok.inj (done.symm.trans replaced)
    obtain ⟨_, again, leaves⟩ := Predicate.leaves_replaceAt done
    obtain rfl := Option.some.inj (found.symm.trans again)
    rw [Option.toList_some, Option.toList_some, Predicate.leavesOf_singleton, Predicate.leavesOf_singleton,
      ← Predicate.leaves_at? found] at leaves
    rw [Predicate.substitute_self found] at same
    exact ⟨fun _ member => Option.some.inj member ▸ kept, .of_predicates leaves same⟩
  | msgPack carried read =>
    obtain rfl := Except.ok.inj (read.symm.trans (normalized_of_msgPack carried _))
    exact normalized_populated populated
  | json carried written read =>
    obtain ⟨_, again, same⟩ := normalized_of_json carried
    obtain rfl := Option.some.inj (written.symm.trans again)
    obtain rfl := Except.ok.inj (read.symm.trans same)
    exact normalized_populated populated

theorem alike_of_recasts (recasts : Relation.ReflTransGen Recast f g) (populated : f.Populated) :
    g.Populated ∧ Alike g f := by
  induction recasts with
  | refl => exact ⟨populated, .refl f⟩
  | tail _ recast ih =>
    obtain ⟨filled, same⟩ := ih
    obtain ⟨kept, again⟩ := recast.alike filled
    exact ⟨kept, again.trans same⟩

/-- The normal form of a predicate without an empty connective is there, and says of every record what the predicate
says, under any parameters and with the same error. An edit of such a predicate means the substitution that it makes.
What a format carries comes back from it in normal form. So a filter that is recast, any number of times and in any
of these ways, says of every record what it said before, and a store gives it the same answer. -/
theorem collapsing_keeps_meaning :
    (∀ p : Predicate, p.Populated →
      ∃ q, p.normalized? = some q ∧ ∀ params r, q.evaluate params r = p.evaluate params r) ∧
    (∀ (root new node : Predicate) (path : Path), root.Populated → new.Populated → root.at? path = some node →
      ∃ q, root.replaceAt path (some new) = .ok (some q) ∧
        ∀ params r, q.evaluate params r = (Predicate.substitute new path root).evaluate params r) ∧
    (∀ f, MsgPack.Carries f → ∀ rest,
      MsgPack.decode Filter.decode (MsgPack.write f.toWire ++ rest) = .ok f.normalized) ∧
    (∀ f, Json.Carries f → ∃ text, Json.compact? f.toWire = some text ∧
      Json.decode Filter.decode text.toList = .ok f.normalized) ∧
    (∀ f g : Filter, f.Populated → Relation.ReflTransGen Recast f g →
      (∀ r, g.evaluate r = f.evaluate r) ∧
      ∀ (m : Memory) sort limit cursor,
        m.query ⟨some g, sort, limit, cursor⟩ = m.query ⟨some f, sort, limit, cursor⟩) := by
  refine ⟨fun p populated => ?_, fun root new node path whole filled found => ?_, fun f => normalized_of_msgPack,
    fun f => normalized_of_json, fun f g populated recasts => ?_⟩
  · obtain ⟨q, normal, -, same⟩ := populated.normalized?
    exact ⟨q, normal, same⟩
  · obtain ⟨q, done, -, same⟩ := Predicate.replaceAt_equivalent filled whole found
    exact ⟨q, done, same⟩
  · obtain ⟨-, alike⟩ := alike_of_recasts recasts populated
    exact ⟨alike.evaluate, alike.query⟩

/-- A needless connective goes with an edit, another one on the way through MessagePack, and JSON has nothing left to
collapse. A record that fails is still passed over, and the node of an unknown kind still met at the other one. -/
theorem collapsing_keeps_meaning_of_singletons :
    let status : Predicate := .compare ⟨"status", .eq, .bind "s"⟩
    let near : Predicate := .unknown "near" (.map [(.text "kind", .text "near")])
    let params := Dict.ofList [("s", .text "ok")]
    let sent : Filter := ⟨some (.or [.and [.or [status], .and [.not (.and [near])]]]), params⟩
    let kept : Filter := ⟨some (.and [status, .not near]), params⟩
    let run (status : String) : Record := ⟨status, "run", 1, .map [("status", .text status)]⟩
    sent.Populated ∧ Relation.ReflTransGen Recast sent kept ∧
      kept.evaluate (run "failed") = sent.evaluate (run "failed") ∧ sent.evaluate (run "failed") = .ok false ∧
      kept.evaluate (run "ok") = sent.evaluate (run "ok") ∧
      sent.evaluate (run "ok") = .error (.unsupported "near") := by
  intro status near params sent kept run
  let edited : Filter := ⟨some (.and [status, .and [.not (.and [near])]]), params⟩
  have populated : sent.Populated := by
    rintro p ⟨⟩
    have inner : (Predicate.and [.not (.and [near])]).Populated := ⟨nofun, ⟨nofun, trivial, trivial⟩, trivial⟩
    exact ⟨nofun, ⟨nofun, ⟨nofun, trivial, trivial⟩, inner, trivial⟩, trivial⟩
  have raw : near.Sendable := ⟨_, rfl, rfl, by decide⟩
  have values : Value.EntriesWellFormed params.entries := ⟨trivial, trivial⟩
  have byMsgPack : MsgPack.Carries edited := by
    refine ⟨⟨?_, values⟩, by decide, by decide⟩
    rintro p ⟨⟩
    exact ⟨trivial, ⟨⟨raw, trivial⟩, trivial⟩, trivial⟩
  have byJson : Json.Carries kept := by
    refine ⟨⟨?_, values⟩, ⟨?_, trivial, trivial⟩, by decide, by decide⟩
    · rintro p ⟨⟩
      exact ⟨trivial, raw, trivial⟩
    · rintro p ⟨⟩
      exact ⟨nofun, ⟨⟨⟨_, rfl⟩, trivial⟩, trivial⟩, trivial⟩
  obtain ⟨text, written, read⟩ := normalized_of_json byJson
  have byEdit : Recast sent edited := .edited rfl (rfl : Predicate.at? [0, 0] _ = some (.or [status])) rfl
  have recasts : Relation.ReflTransGen Recast sent kept :=
    ((Relation.ReflTransGen.single byEdit).tail (.msgPack byMsgPack (normalized_of_msgPack byMsgPack []))).tail
      (.json byJson written read)
  obtain ⟨-, -, -, -, same⟩ := collapsing_keeps_meaning
  obtain ⟨judged, -⟩ := same sent kept populated recasts
  exact ⟨populated, recasts, judged _, rfl, judged _, rfl⟩

/-- Conjunctions of one around a predicate. -/
def wrapped (p : Predicate) : Nat → Predicate
  | 0 => p
  | levels + 1 => .and [wrapped p levels]

theorem wrapped_populated {p : Predicate} (populated : p.Populated) (levels : Nat) : (wrapped p levels).Populated := by
  induction levels with
  | zero => exact populated
  | succ levels ih => exact ⟨nofun, ih, trivial⟩

theorem wrapped_textual {p : Predicate} (textual : p.Textual) (levels : Nat) : (wrapped p levels).Textual := by
  induction levels with
  | zero => exact textual
  | succ levels ih => exact ⟨ih, trivial⟩

/-- Not every filter comes back from its JSON text. Of a comparison within 64 conjunctions of one, which means no more
than the comparison, the text is refused; and from the text of one with bytes comes a filter that selects others. -/
theorem json_trip_loses_filters :
    (¬ ∀ f : Filter, f.Populated → ∃ text g, Json.compact? f.toWire = some text ∧
      Json.decode Filter.decode text.toList = .ok g) ∧
    (¬ ∀ (f g : Filter) text r, f.Populated → Json.compact? f.toWire = some text →
      Json.decode Filter.decode text.toList = .ok g → g.evaluate r = f.evaluate r) := by
  constructor
  · intro returns
    let status : Predicate := .compare ⟨"status", .eq, .literal (.text "ok")⟩
    let piled : Filter := .ofPredicate (wrapped status 64)
    have literal : status.Textual := by
      rintro value ⟨⟩
      trivial
    have comparison : status.Populated := trivial
    have populated : piled.Populated := fun p member => Option.some.inj member ▸ wrapped_populated comparison 64
    have textual : piled.Textual := ⟨fun p member => Option.some.inj member ▸ wrapped_textual literal 64, trivial⟩
    have refused : (Filter.decode ⟨false, false⟩ Json.room
        (Scan.ofWire (piled.toWire.mapNumbers Json.reread))).toOption.isNone = true := by
      decide +kernel
    obtain ⟨text, g, written, read⟩ := returns piled populated
    obtain ⟨_, again, scanned⟩ := Json.scan_compact (textual.toWire.within (Nat.le_refl _))
    obtain rfl := Option.some.inj (written.symm.trans again)
    rw [Json.decode, scanned] at read
    obtain ⟨found, whole, -⟩ := bind_eq_ok read
    rw [whole] at refused
    cases refused
  · intro same
    let bytes : Filter := .ofPredicate (.or [.compare ⟨"x", .eq, .literal (.binary [1, 2])⟩])
    let r : Record := ⟨"r", "run", 1, .map [("x", .binary [1, 2])]⟩
    have populated : bytes.Populated := by
      rintro p ⟨⟩
      exact ⟨List.cons_ne_nil _ _, trivial, trivial⟩
    have known : ((Json.compact? bytes.toWire).bind fun text =>
        (Json.decode Filter.decode text.toList).toOption.map fun g => (g.evaluate r).toOption) = some (some false) := by
      decide +kernel
    obtain ⟨text, written, read⟩ := Option.bind_eq_some_iff.mp known
    obtain ⟨g, decoded, verdict⟩ := exists_of_toOption read
    rw [same bytes g text r populated written decoded] at verdict
    cases verdict

end Filter

end RunQuery
