import RunQuery.Proofs.Json.Accepted
import RunQuery.Proofs.Wire.Numbers

/-!
Scanning what was written. The compact text of a tree within the limits is scanned as that tree, its numbers read
again; what follows the text is left.
-/
namespace RunQuery.Json

/-- A text that starts a value and is scanned as `s` before anything that ends it. -/
structure Reads (text : List Char) (s : Scan) : Prop where
  starts : ∃ c others, text = c :: others ∧ isBlank c = false ∧ c ≠ ']'
  scanned : ∀ fuel rest, 2 * text.length ≤ fuel → Ends rest → scanValue fuel (text ++ rest) = (s, rest)

theorem reads_null : Reads nullText (.leaf .null) := by
  refine ⟨⟨'n', _, rfl, by decide, by decide⟩, fun fuel rest enough _ => ?_⟩
  match fuel, enough with
  | fuel + 1, _ => rfl

theorem reads_bool (b : Bool) : Reads (boolText b) (.leaf (.bool b)) := by
  cases b with
  | false =>
    refine ⟨⟨'f', _, rfl, by decide, by decide⟩, fun fuel rest enough _ => ?_⟩
    match fuel, enough with
    | fuel + 1, _ => rfl
  | true =>
    refine ⟨⟨'t', _, rfl, by decide, by decide⟩, fun fuel rest enough _ => ?_⟩
    match fuel, enough with
    | fuel + 1, _ => rfl

theorem reads_quoted (s : String) : Reads (quoted s) (.leaf (.text s)) := by
  refine ⟨⟨'"', _, rfl, by decide, by decide⟩, fun fuel rest enough _ => ?_⟩
  match fuel, enough with
  | fuel + 1, _ =>
    rw [quoted, List.append_assoc, List.singleton_append]
    exact scanText_quoted s rest

theorem reads_of_numeral {text : List Char} {w : Wire} (found : scanNumeral text = (.leaf w, [])) :
    Reads text (.leaf w) := by
  have some : ∃ c others, text = c :: others ∧ (c = '-' ∨ c.isDigit = true) := by
    unfold scanNumeral at found
    split at found
    next => cases found
    next read => exact numeral?_start read
  obtain ⟨c, others, rfl, start⟩ := some
  refine ⟨⟨c, others, rfl, isBlank_of_start start, ne_of_start start (by decide)⟩, fun fuel rest enough ends => ?_⟩
  match fuel, enough with
  | fuel + 1, _ => exact scanValue_of_numeral ends found fuel

theorem Reads.length_pos {text : List Char} {s : Scan} (reads : Reads text s) : 0 < text.length := by
  obtain ⟨c, others, rfl, _, _⟩ := reads.starts
  exact Nat.succ_pos _

/-- What stands after an opening mark. -/
def joined (closing : Char) (first : List Char) (others : List (List Char)) : List Char :=
  first ++ others.flatMap (',' :: ·) ++ [closing]

theorem bracketed_cons (depth : Nat) (opening closing : Char) (first : List Char) (others : List (List Char)) :
    bracketed .compact depth opening closing (first :: others) = opening :: joined closing first others := by
  simp [bracketed, Layout.lineBreak, joined]

theorem joined_cons (closing : Char) (first next : List Char) (others : List (List Char)) :
    joined closing first (next :: others) = first ++ ',' :: joined closing next others := by
  simp [joined]

/-- Items after the opening bracket, with fuel for each character twice. -/
theorem scanItems_joined {first : List Char} {item : Scan} (one : Reads first item)
    {others : List (List Char × Scan)} (all : ∀ other ∈ others, Reads other.1 other.2) {fuel : Nat}
    (enough : 2 * (joined ']' first (others.map Prod.fst)).length ≤ fuel) (rest : List Char) :
    scanItems fuel (joined ']' first (others.map Prod.fst) ++ rest) = (item :: others.map Prod.snd, rest) := by
  induction others generalizing first item fuel with
  | nil =>
    have whole : joined ']' first [] ++ rest = first ++ ']' :: rest := by simp [joined]
    have length : (joined ']' first []).length = first.length + 1 := by simp [joined]
    rw [List.map_nil, length] at enough
    obtain ⟨fuel, rfl⟩ : ∃ less, fuel = less + 1 := ⟨fuel - 1, by omega⟩
    rw [List.map_nil, whole, scanItems, one.scanned fuel _ (by omega) (ends_cons (by decide) rest)]
    rfl
  | cons other others ih =>
    rw [List.forall_mem_cons] at all
    have some := one.length_pos
    rw [List.map_cons, joined_cons, List.length_append, List.length_cons] at enough
    obtain ⟨fuel, rfl⟩ : ∃ less, fuel = less + 1 := ⟨fuel - 1, by omega⟩
    have next := ih all.1 all.2 (show 2 * (joined ']' other.1 (others.map Prod.fst)).length ≤ fuel by omega)
    rw [List.map_cons, joined_cons, List.append_assoc, List.cons_append, scanItems,
      one.scanned fuel _ (by omega) (ends_cons (by decide) _)]
    show (item :: (scanItems fuel _).1, (scanItems fuel _).2) = _
    rw [next]
    rfl

theorem scanValue_bracket {c : Char} (solid : isBlank c = false) (other : c ≠ ']') (fuel : Nat) (text : List Char) :
    scanValue (fuel + 1) ('[' :: c :: text) =
      (.list (scanItems fuel (c :: text)).1, (scanItems fuel (c :: text)).2) := by
  rw [scanValue, skipBlank_cons (by decide)]
  split
  next same => cases same
  next same => cases same
  next same => cases same
  next same => cases same
  next same =>
    cases same
    rw [skipBlank_cons solid]
    split
    next same =>
      cases same
      exact absurd rfl other
    next => rfl
  next same => cases same
  next bracket _ => exact absurd rfl (bracket _)

theorem scanValue_brace (fuel : Nat) (text : List Char) :
    scanValue (fuel + 1) ('{' :: '"' :: text) =
      (.map (scanEntries fuel ('"' :: text)).1, (scanEntries fuel ('"' :: text)).2) := rfl

/-- The text of a list is scanned as the list of what its items are scanned as. -/
theorem reads_list {elements : List (List Char × Scan)} (all : ∀ element ∈ elements, Reads element.1 element.2)
    (depth : Nat) :
    Reads (bracketed .compact depth '[' ']' (elements.map Prod.fst)) (.list (elements.map Prod.snd)) := by
  cases elements with
  | nil =>
    refine ⟨⟨'[', [']'], rfl, by decide, by decide⟩, fun fuel rest enough _ => ?_⟩
    match fuel, enough with
    | fuel + 1, _ => rfl
  | cons element others =>
    rw [List.forall_mem_cons] at all
    rw [List.map_cons, bracketed_cons]
    refine ⟨⟨'[', _, rfl, by decide, by decide⟩, fun fuel rest enough _ => ?_⟩
    rw [List.length_cons] at enough
    obtain ⟨fuel, rfl⟩ : ∃ less, fuel = less + 1 := ⟨fuel - 1, by omega⟩
    have items := scanItems_joined all.1 all.2
      (show 2 * (joined ']' element.1 (others.map Prod.fst)).length ≤ fuel by omega) rest
    obtain ⟨c, more, start, solid, other⟩ := all.1.starts
    have whole : joined ']' element.1 (others.map Prod.fst) ++ rest =
        c :: (joined ']' more (others.map Prod.fst) ++ rest) := by rw [start]; rfl
    rw [whole] at items
    rw [List.cons_append, whole, scanValue_bracket solid other, items]
    rfl

/-- A text that is scanned as an entry of a map: a quoted key, a colon and a value. -/
def ReadsEntry (text : List Char) (entry : Scan × Scan) : Prop :=
  ∃ key value, text = quoted key ++ ':' :: value ∧ entry.1 = .leaf (.text key) ∧ Reads value entry.2

/-- The entries from one that has been scanned, by what follows it. -/
def afterEntry (fuel : Nat) (entry : Scan × Scan) : List Char → List (Scan × Scan) × List Char
  | ',' :: rest => (entry :: (scanEntries fuel rest).1, (scanEntries fuel rest).2)
  | '}' :: rest => ([entry], rest)
  | _ => ([entry, (.broken, .broken)], [])

theorem scanEntries_entry {text : List Char} {entry : Scan × Scan} (reads : ReadsEntry text entry) {fuel : Nat}
    (enough : 2 * text.length ≤ fuel) {rest : List Char} (ends : Ends rest) :
    scanEntries (fuel + 1) (text ++ rest) = afterEntry fuel entry (skipBlank rest) := by
  obtain ⟨name, value⟩ := entry
  obtain ⟨key, text, rfl, rfl, reads⟩ := reads
  have whole : quoted key ++ ':' :: text ++ rest =
      '"' :: (key.toList.flatMap escaped ++ '"' :: ':' :: (text ++ rest)) := by simp [quoted]
  rw [List.length_append, List.length_cons] at enough
  rw [whole, scanEntries, skipBlank_cons (by decide)]
  split
  next same =>
    cases same
    dsimp only
    rw [scanText_quoted, skipBlank_cons (by decide)]
    split
    next same =>
      cases same
      rw [reads.scanned fuel rest (by omega) ends]
      rfl
    next other => exact absurd rfl (other _)
  next other => exact absurd rfl (other _)

theorem scanEntries_joined {first : List Char} {entry : Scan × Scan} (one : ReadsEntry first entry)
    {others : List (List Char × Scan × Scan)} (all : ∀ other ∈ others, ReadsEntry other.1 other.2) {fuel : Nat}
    (enough : 2 * (joined '}' first (others.map Prod.fst)).length ≤ fuel) (rest : List Char) :
    scanEntries fuel (joined '}' first (others.map Prod.fst) ++ rest) = (entry :: others.map Prod.snd, rest) := by
  induction others generalizing first entry fuel with
  | nil =>
    have whole : joined '}' first [] ++ rest = first ++ '}' :: rest := by simp [joined]
    have length : (joined '}' first []).length = first.length + 1 := by simp [joined]
    rw [List.map_nil, length] at enough
    obtain ⟨fuel, rfl⟩ : ∃ less, fuel = less + 1 := ⟨fuel - 1, by omega⟩
    rw [List.map_nil, whole, scanEntries_entry one (by omega) (ends_cons (by decide) rest)]
    rfl
  | cons other others ih =>
    rw [List.forall_mem_cons] at all
    rw [List.map_cons, joined_cons, List.length_append, List.length_cons] at enough
    obtain ⟨fuel, rfl⟩ : ∃ less, fuel = less + 1 := ⟨fuel - 1, by omega⟩
    have next := ih all.1 all.2 (show 2 * (joined '}' other.1 (others.map Prod.fst)).length ≤ fuel by omega)
    rw [List.map_cons, joined_cons, List.append_assoc, List.cons_append,
      scanEntries_entry one (by omega) (ends_cons (by decide) _)]
    show (entry :: (scanEntries fuel _).1, (scanEntries fuel _).2) = _
    rw [next]
    rfl

/-- The text of a map is scanned as the map of what its entries are scanned as. -/
theorem reads_map {elements : List (List Char × Scan × Scan)}
    (all : ∀ element ∈ elements, ReadsEntry element.1 element.2) (depth : Nat) :
    Reads (bracketed .compact depth '{' '}' (elements.map Prod.fst)) (.map (elements.map Prod.snd)) := by
  cases elements with
  | nil =>
    refine ⟨⟨'{', ['}'], rfl, by decide, by decide⟩, fun fuel rest enough _ => ?_⟩
    match fuel, enough with
    | fuel + 1, _ => rfl
  | cons element others =>
    rw [List.forall_mem_cons] at all
    rw [List.map_cons, bracketed_cons]
    refine ⟨⟨'{', _, rfl, by decide, by decide⟩, fun fuel rest enough _ => ?_⟩
    rw [List.length_cons] at enough
    obtain ⟨fuel, rfl⟩ : ∃ less, fuel = less + 1 := ⟨fuel - 1, by omega⟩
    have entries := scanEntries_joined all.1 all.2
      (show 2 * (joined '}' element.1 (others.map Prod.fst)).length ≤ fuel by omega) rest
    obtain ⟨key, value, start, _, _⟩ := all.1
    have whole : ∃ text, joined '}' element.1 (others.map Prod.fst) ++ rest = '"' :: text := by
      rw [start]
      exact ⟨_, rfl⟩
    obtain ⟨text, whole⟩ := whole
    rw [whole] at entries
    rw [List.cons_append, whole, scanValue_brace, entries]
    rfl

section Write

mutual

/-- What is written of a tree within the limits is scanned as the tree, its numbers read again. -/
theorem write_reads {w : Wire} {room : Nat} (within : w.Within limits room) (depth : Nat) :
    ∃ text, write? .compact depth w = some text ∧ Reads text (Scan.ofWire (w.mapNumbers reread)) := by
  match w, within with
  | .null, _ => exact ⟨_, rfl, reads_null⟩
  | .bool b, _ => exact ⟨_, rfl, reads_bool b⟩
  | .int i, ⟨least, most⟩ => exact ⟨_, rfl, reads_of_numeral (scanNumeral_intText least most)⟩
  | .double n, finite =>
    obtain ⟨text, written, scanned⟩ := scanNumeral_reread finite
    refine ⟨text, ?_, reads_of_numeral scanned⟩
    show some (n.numeral?.getD nullText) = some text
    rw [written, Option.getD_some]
  | .text s, _ => exact ⟨_, rfl, reads_quoted s⟩
  | .list items, ⟨_, _, inside⟩ =>
    obtain ⟨elements, written, scanned, all⟩ := writeItems_reads inside (depth + 1)
    refine ⟨bracketed .compact depth '[' ']' (elements.map Prod.fst), ?_, ?_⟩
    · rw [write?, written, Option.map_some]
    · rw [Wire.mapNumbers, Scan.ofWire, ← scanned]
      exact reads_list all depth
  | .map entries, ⟨_, _, inside⟩ =>
    obtain ⟨elements, written, scanned, all⟩ := writeEntries_reads inside (depth + 1)
    refine ⟨bracketed .compact depth '{' '}' (elements.map Prod.fst), ?_, ?_⟩
    · rw [write?, written, Option.map_some]
    · rw [Wire.mapNumbers, Scan.ofWire, ← scanned]
      exact reads_map all depth

theorem writeItems_reads {items : List Wire} {room : Nat} (within : Wire.ItemsWithin limits room items) (depth : Nat) :
    ∃ elements : List (List Char × Scan), writeItems? .compact depth items = some (elements.map Prod.fst) ∧
      elements.map Prod.snd = Scan.ofItems (Wire.mapItems reread items) ∧
      ∀ element ∈ elements, Reads element.1 element.2 := by
  match items, within with
  | [], _ => exact ⟨[], rfl, rfl, fun _ none => (List.not_mem_nil none).elim⟩
  | item :: rest, ⟨first, others⟩ =>
    obtain ⟨text, written, reads⟩ := write_reads first depth
    obtain ⟨elements, more, scanned, all⟩ := writeItems_reads others depth
    refine ⟨(text, Scan.ofWire (item.mapNumbers reread)) :: elements, ?_, ?_, List.forall_mem_cons.mpr ⟨reads, all⟩⟩
    · rw [writeItems?, written, more]
      rfl
    · rw [List.map_cons, scanned]
      rfl

theorem writeEntries_reads {entries : List (Wire × Wire)} {room : Nat}
    (within : Wire.EntriesWithin limits room entries) (depth : Nat) :
    ∃ elements : List (List Char × Scan × Scan),
      writeEntries? .compact depth entries = some (elements.map Prod.fst) ∧
      elements.map Prod.snd = Scan.ofEntries (Wire.mapEntries reread entries) ∧
      ∀ element ∈ elements, ReadsEntry element.1 element.2 := by
  match entries, within with
  | [], _ => exact ⟨[], rfl, rfl, fun _ none => (List.not_mem_nil none).elim⟩
  | (key, value) :: rest, ⟨⟨⟨name, named⟩, _, ofValue⟩, others⟩ =>
    subst named
    obtain ⟨text, written, reads⟩ := write_reads ofValue depth
    obtain ⟨elements, more, scanned, all⟩ := writeEntries_reads others depth
    refine ⟨(quoted name ++ ':' :: text, .leaf (.text name), Scan.ofWire (value.mapNumbers reread)) :: elements, ?_, ?_,
      List.forall_mem_cons.mpr ⟨⟨name, text, rfl, rfl, reads⟩, all⟩⟩
    · rw [writeEntries?, written, more]
      show some ((quoted name ++ [':'] ++ text) :: elements.map Prod.fst) = _
      rw [List.append_assoc]
      rfl
    · rw [List.map_cons, scanned]
      rfl

end

end Write

/-- A tree within the limits has a compact text, and this is scanned as the tree, its numbers read again, with nothing
after it. -/
theorem scan_compact {w : Wire} {room : Nat} (within : w.Within limits room) :
    ∃ written, compact? w = some written ∧ scan written.toList = ⟨Scan.ofWire (w.mapNumbers reread), true⟩ := by
  obtain ⟨text, written, reads⟩ := write_reads within 0
  have whole := reads.scanned (2 * text.length + 1) [] (Nat.le_succ _) ends_nil
  rw [List.append_nil] at whole
  refine ⟨String.ofList text, by rw [compact?, written, Option.map_some], ?_⟩
  rw [String.toList_ofList, scan, whole]
  rfl

/-- What is scanned to the end is decoded from its scan. -/
theorem decode_of_scan {α : Type} {decoder : Dialect → Nat → Scan → Except DecodeError α} {text : List Char}
    {s : Scan} {a : α} (scanned : scan text = ⟨s, true⟩) (decoded : decoder ⟨false, false⟩ room s = .ok a) :
    decode decoder text = .ok a := by
  rw [decode, scanned]
  exact bind_of_ok decoded rfl

/-- What is decoded from the text of a tree is decoded from the tree with its numbers read again, and from the tree
as it was if each is read again as itself. -/
theorem decode_compact {α : Type} {decoder : Dialect → Nat → Scan → Except DecodeError α} {w : Wire}
    (within : w.Within limits room) {again same : α}
    (changed : decoder ⟨false, false⟩ room (Scan.ofWire (w.mapNumbers reread)) = .ok again)
    (unchanged : decoder ⟨false, false⟩ room (Scan.ofWire w) = .ok same) :
    ∃ text, compact? w = some text ∧ decode decoder text.toList = .ok again ∧
      ((∀ n ∈ w.numbers, reread n = n) → decode decoder text.toList = .ok same) := by
  obtain ⟨text, written, scanned⟩ := scan_compact within
  refine ⟨text, written, decode_of_scan scanned changed, ?_⟩
  intro fixed
  rw [Wire.mapNumbers_of_fixed _ fixed] at scanned
  exact decode_of_scan scanned unchanged

end RunQuery.Json
