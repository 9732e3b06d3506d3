import RunQuery.Proofs.Json.Scanner
import RunQuery.Proofs.Wire.Message

/-!
Messages read back from JSON. A message whose values and raw nodes are JSON's own, with finite numbers and no bytes,
has a text; from the text comes the message, the predicate of its filter in normal form. Its numbers are read from
their numerals, so it is the same message where each numeral is read as the number that it was written for.
-/
namespace RunQuery

namespace Wire

mutual

/-- JSON's own data: null, truth values, integers of 64 bits, finite numbers, texts, lists, and maps with texts as
keys. -/
def Textual : Wire → Prop
  | .list items => ItemsTextual items
  | .map entries => EntriesTextual entries
  | scalar => Json.limits.scalar scalar

def ItemsTextual : List Wire → Prop
  | [] => True
  | item :: rest => item.Textual ∧ ItemsTextual rest

def EntriesTextual : List (Wire × Wire) → Prop
  | [] => True
  | (key, value) :: rest => (Json.limits.key key ∧ value.Textual) ∧ EntriesTextual rest

end

mutual

/-- What is textual and not too deep is within the limits of JSON. -/
theorem Textual.within {w : Wire} {room : Nat} (textual : w.Textual) (deep : w.depth ≤ room) :
    w.Within Json.limits room := by
  match w, textual with
  | .list items, inside =>
    rw [depth] at deep
    exact ⟨by omega, trivial, ItemsTextual.within inside (by omega)⟩
  | .map entries, inside =>
    rw [depth] at deep
    exact ⟨by omega, trivial, EntriesTextual.within inside (by omega)⟩
  | .null, scalar => exact scalar
  | .bool _, scalar => exact scalar
  | .int _, scalar => exact scalar
  | .double _, scalar => exact scalar
  | .text _, scalar => exact scalar

theorem ItemsTextual.within {items : List Wire} {room : Nat} (textual : ItemsTextual items)
    (deep : itemsDepth items ≤ room) : ItemsWithin Json.limits room items := by
  match items, textual with
  | [], _ => trivial
  | item :: rest, ⟨first, others⟩ =>
    obtain ⟨ofFirst, ofRest⟩ := Nat.max_le.mp deep
    exact ⟨Textual.within first ofFirst, ItemsTextual.within others ofRest⟩

theorem EntriesTextual.within {entries : List (Wire × Wire)} {room : Nat} (textual : EntriesTextual entries)
    (deep : entriesDepth entries ≤ room) : EntriesWithin Json.limits room entries := by
  match entries, textual with
  | [], _ => trivial
  | (key, value) :: rest, ⟨⟨⟨name, named⟩, ofValue⟩, others⟩ =>
    obtain ⟨ofFirst, ofRest⟩ := Nat.max_le.mp deep
    subst named
    have first := Textual.within ofValue (Nat.max_le.mp ofFirst).2
    exact ⟨⟨⟨name, rfl⟩, trivial, first⟩, EntriesTextual.within others ofRest⟩

end

@[simp] theorem textual_text (s : String) : (text s).Textual := trivial

@[simp] theorem textual_list {items : List Wire} : (list items).Textual ↔ ItemsTextual items := Iff.rfl

theorem itemsTextual_iff {items : List Wire} : ItemsTextual items ↔ ∀ item ∈ items, item.Textual := by
  induction items with
  | nil => simp [ItemsTextual]
  | cons item rest ih => simp [ItemsTextual, ih]

theorem textual_record {fields : List (String × Wire)} (all : ∀ field ∈ fields, field.2.Textual) :
    (record fields).Textual := by
  rw [record, Textual]
  induction fields with
  | nil => trivial
  | cons field rest ih =>
    rw [List.forall_mem_cons] at all
    exact ⟨⟨⟨field.1, rfl⟩, all.1⟩, ih all.2⟩

theorem textual_optionalField {name : String} {value : Option Wire} (textual : ∀ w ∈ value, w.Textual) :
    ∀ field ∈ optionalField name value, field.2.Textual := by
  cases value with
  | none => exact nofun
  | some w =>
    intro field member
    obtain rfl := List.mem_singleton.mp member
    exact textual w rfl

end Wire

namespace Value

mutual

/-- No bytes, and only finite numbers. -/
def Textual : Value → Prop
  | .number n => n.isFinite = true
  | .binary _ => False
  | .list items => AllTextual items
  | .map entries => EntriesTextual entries
  | _ => True

def AllTextual : List Value → Prop
  | [] => True
  | item :: rest => item.Textual ∧ AllTextual rest

def EntriesTextual : List (String × Value) → Prop
  | [] => True
  | (_, value) :: rest => value.Textual ∧ EntriesTextual rest

end

mutual

theorem Textual.toWire {v : Value} (textual : v.Textual) : v.toWire.Textual := by
  match v, textual with
  | .none, _ => trivial
  | .text _, _ => trivial
  | .number _, finite => exact finite
  | .bool _, _ => trivial
  | .list items, inside => exact AllTextual.itemsToWire (show AllTextual items from inside)
  | .map entries, inside => exact EntriesTextual.entriesToWire (show EntriesTextual entries from inside)

theorem AllTextual.itemsToWire {items : List Value} (textual : AllTextual items) :
    Wire.ItemsTextual (itemsToWire items) := by
  match items, textual with
  | [], _ => trivial
  | item :: rest, ⟨first, others⟩ => exact ⟨Textual.toWire first, AllTextual.itemsToWire others⟩

theorem EntriesTextual.entriesToWire {entries : List (String × Value)} (textual : EntriesTextual entries) :
    Wire.EntriesTextual (entriesToWire entries) := by
  match entries, textual with
  | [], _ => trivial
  | (key, value) :: rest, ⟨first, others⟩ =>
    exact ⟨⟨⟨key, rfl⟩, Textual.toWire first⟩, EntriesTextual.entriesToWire others⟩

end

end Value

namespace Predicate

mutual

/-- Literals and nodes of unknown kinds are textual. -/
def Textual : Predicate → Prop
  | .and children => AllTextual children
  | .or children => AllTextual children
  | .not child => child.Textual
  | .compare c => ∀ value, c.operand = .literal value → value.Textual
  | .unknown _ raw => raw.Textual

def AllTextual : List Predicate → Prop
  | [] => True
  | child :: rest => child.Textual ∧ AllTextual rest

end

theorem textual_operand {o : Operand} (textual : ∀ value, o = .literal value → value.Textual) : o.toWire.Textual := by
  cases o with
  | bind name => exact Wire.textual_record (by simp)
  | field path => exact Wire.textual_record (by simp)
  | literal value => exact Wire.textual_record (by simp [(textual value rfl).toWire])

mutual

theorem Textual.toWire {p : Predicate} (textual : p.Textual) : p.toWire.Textual := by
  match p, textual with
  | .and children, inside =>
    have items : Wire.ItemsTextual (childrenToWire children) :=
      AllTextual.childrenToWire (show AllTextual children from inside)
    exact Wire.textual_record (by simp [items])
  | .or children, inside =>
    have items : Wire.ItemsTextual (childrenToWire children) :=
      AllTextual.childrenToWire (show AllTextual children from inside)
    exact Wire.textual_record (by simp [items])
  | .not child, inside =>
    have only := Textual.toWire (p := child) inside
    exact Wire.textual_record (by simp [only])
  | .compare c, literals => exact Wire.textual_record (by simp [Comparison.fields, textual_operand literals])
  | .unknown _ raw, inside => exact inside

theorem AllTextual.childrenToWire {children : List Predicate} (textual : AllTextual children) :
    Wire.ItemsTextual (childrenToWire children) := by
  match children, textual with
  | [], _ => trivial
  | child :: rest, ⟨first, others⟩ => exact ⟨Textual.toWire first, AllTextual.childrenToWire others⟩

end

end Predicate

/-- Its predicate and its parameters are textual. -/
structure Filter.Textual (f : Filter) : Prop where
  predicate : ∀ p ∈ f.predicate, p.Textual
  params : Value.EntriesTextual f.params.entries

theorem Filter.Textual.toWire {f : Filter} (textual : f.Textual) : f.toWire.Textual := by
  apply Wire.textual_record
  rw [List.forall_mem_append]
  constructor
  · apply Wire.textual_optionalField
    intro w written
    obtain ⟨p, standing, rfl⟩ := Option.map_eq_some_iff.mp written
    exact (textual.predicate p standing).toWire
  · apply Wire.textual_optionalField
    intro w written
    split at written
    · cases written
    · cases written
      exact textual.params.entriesToWire

theorem SortKey.textual_toWire (key : SortKey) : key.toWire.Textual := by
  apply Wire.textual_record
  simp [Direction.toWire]

theorem Cursor.textual_toWire (c : Cursor) : c.toWire.Textual := by
  cases c with
  | forward token => exact Wire.textual_record (by simp)
  | backward token => exact Wire.textual_record (by simp)

theorem Request.textual_toWire {r : Request} (textual : ∀ f ∈ r.filter, f.Textual) : r.toWire.Textual := by
  apply Wire.textual_record
  rw [List.forall_mem_append, List.forall_mem_append, List.forall_mem_append]
  refine ⟨⟨⟨?_, ?_⟩, ?_⟩, ?_⟩
  · apply Wire.textual_optionalField
    intro w written
    obtain ⟨f, standing, rfl⟩ := Option.map_eq_some_iff.mp written
    exact (textual f standing).toWire
  · apply Wire.textual_optionalField
    intro w written
    split at written
    · cases written
    · cases written
      simp [Wire.itemsTextual_iff, SortKey.textual_toWire]
  · apply Wire.textual_optionalField
    intro w written
    obtain ⟨n, -, rfl⟩ := Option.map_eq_some_iff.mp written
    have small := n.toNat_lt
    show (_ : Int) ≤ n.toNat ∧ (n.toNat : Int) < _
    omega
  · apply Wire.textual_optionalField
    intro w written
    obtain ⟨c, -, rfl⟩ := Option.map_eq_some_iff.mp written
    exact c.textual_toWire

theorem Record.textual_toWire {r : Record} (textual : r.data.Textual) : r.toWire.Textual := by
  have version : (Wire.int r.version.toNat).Textual := by
    have small := r.version.toNat_lt
    show (_ : Int) ≤ r.version.toNat ∧ (r.version.toNat : Int) < _
    omega
  apply Wire.textual_record
  simp [version, textual.toWire]

theorem Page.textual_toWire {p : Page} (textual : ∀ r ∈ p.records, r.data.Textual) : p.toWire.Textual := by
  have tokens (name : String) (token : Option String) :
      ∀ field ∈ optionalField name (token.map Wire.text), field.2.Textual := by
    apply Wire.textual_optionalField
    intro w written
    obtain ⟨s, -, rfl⟩ := Option.map_eq_some_iff.mp written
    exact Wire.textual_text s
  apply Wire.textual_record
  rw [List.forall_mem_append, List.forall_mem_append]
  refine ⟨⟨?_, tokens "next" p.next⟩, tokens "previous" p.previous⟩
  simp only [List.forall_mem_singleton, Wire.textual_list, Wire.itemsTextual_iff, List.forall_mem_map]
  intro r member
  exact Record.textual_toWire (textual r member)

namespace Json

/-- A request comes back from its text with the predicate of its filter in normal form, a page as it was; all numbers
are read again, and nothing else is lost where each of them is read again as itself. -/
theorem messages_reread :
    (∀ r : Request, r.Sendable → (∀ f ∈ r.filter, f.Textual) → r.toWire.depth ≤ room →
      ∃ text, compact? r.toWire = some text ∧
        decode Request.decode text.toList = .ok (r.normalized.mapNumbers reread) ∧
        ((∀ n ∈ r.toWire.numbers, reread n = n) → decode Request.decode text.toList = .ok r.normalized)) ∧
    (∀ p : Page, (∀ r ∈ p.records, r.data.WellFormed ∧ r.data.Textual) → p.toWire.depth ≤ room →
      ∃ text, compact? p.toWire = some text ∧
        decode Page.decode text.toList = .ok (p.mapNumbers reread) ∧
        ((∀ n ∈ p.toWire.numbers, reread n = n) → decode Page.decode text.toList = .ok p)) := by
  constructor
  · intro r sendable textual deep
    have within := (Request.textual_toWire textual).within deep
    have mapped := within.mapNumbers reread fun _ => isFinite_reread
    rw [← r.toWire_mapNumbers] at mapped
    have again := Request.decode_ofWire ⟨false, false⟩ (Request.Sendable.mapNumbers reread sendable) mapped.depth_le
    rw [r.toWire_mapNumbers, r.normalized_mapNumbers] at again
    exact decode_compact within again (Request.decode_ofWire _ sendable deep)
  · intro p whole deep
    have within := (Page.textual_toWire fun r member => (whole r member).2).within deep
    have mapped := within.mapNumbers reread fun _ => isFinite_reread
    rw [← p.toWire_mapNumbers] at mapped
    have formed : ∀ r ∈ (p.mapNumbers reread).records, r.data.WellFormed := by
      intro r member
      obtain ⟨record, old, rfl⟩ := List.mem_map.mp member
      exact (whole record old).1.mapNumbers reread
    have again := Page.decode_ofWire ⟨false, false⟩ formed mapped.depth_le
    rw [p.toWire_mapNumbers] at again
    exact decode_compact within again (Page.decode_ofWire _ (fun r member => (whole r member).1) deep)

/-- Connectives without leaves, a raw node with a key twice, texts that must be escaped; and a version at the top of
its range. -/
theorem messages_reread_escaped :
    let status : Predicate := .compare ⟨"status", .eq, .literal (.text "\"\\\x01\n\u00e9")⟩
    let near : Predicate := .unknown "near" (.map [(.text "at", .list [.int (-3), .double ⟨0x3ff8000000000000⟩]),
      (.text "kind", .text "near"), (.text "at", .null)])
    let params := Dict.ofList [("s", .number ⟨0x8000000000000000⟩), ("t", .map [("", .list [.none, .bool true])])]
    let request (p : Predicate) : Request :=
      ⟨some ⟨some p, params⟩, [⟨"started", .descending⟩], some 0xffffffff, some (.backward "0200000000000000")⟩
    let page : Page := ⟨[⟨"r0", "run", 0xffffffffffffffff, .map [("n", .number ⟨0x7fe1ccf385ebc8a0⟩)]⟩],
      some "0100000000000000", none⟩
    (∃ text, compact? (request (.and [.or [], .not (.and [.or []]), .or [status], near])).toWire = some text ∧
      decode Request.decode text.toList = .ok (request (.and [status, near]))) ∧
    ∃ text, compact? page.toWire = some text ∧ decode Page.decode text.toList = .ok page := by
  intro status near params request page
  constructor
  · let sent := request (.and [.or [], .not (.and [.or []]), .or [status], near])
    have sendable : sent.Sendable := by
      rintro f ⟨⟩
      refine ⟨?_, ⟨trivial, ⟨List.pairwise_singleton _ _, ⟨trivial, trivial, trivial⟩, trivial⟩, trivial⟩⟩
      rintro p ⟨⟩
      exact ⟨trivial, ⟨trivial, trivial⟩, ⟨trivial, trivial⟩, ⟨_, rfl, rfl, by decide⟩, trivial⟩
    have textual : ∀ f ∈ sent.filter, f.Textual := by
      rintro f ⟨⟩
      refine ⟨?_, rfl, ⟨⟨trivial, trivial, trivial⟩, trivial⟩, trivial⟩
      rintro p ⟨⟩
      have literal : status.Textual := by
        rintro value ⟨⟩
        trivial
      have raw : near.Textual :=
        ⟨⟨⟨_, rfl⟩, ⟨by decide, by decide⟩, rfl, trivial⟩, ⟨⟨_, rfl⟩, trivial⟩, ⟨⟨_, rfl⟩, trivial⟩, trivial⟩
      exact ⟨trivial, ⟨trivial, trivial⟩, ⟨literal, trivial⟩, raw, trivial⟩
    obtain ⟨text, written, -, same⟩ := messages_reread.1 sent sendable textual (by decide)
    exact ⟨text, written, same (by decide +kernel)⟩
  · have whole : ∀ r ∈ page.records, r.data.WellFormed ∧ r.data.Textual := by
      intro r member
      obtain rfl := List.mem_singleton.mp member
      exact ⟨⟨List.pairwise_singleton _ _, trivial, trivial⟩, rfl, trivial⟩
    obtain ⟨text, written, -, same⟩ := messages_reread.2 page whole (by decide)
    exact ⟨text, written, same (by decide +kernel)⟩

end Json

end RunQuery
