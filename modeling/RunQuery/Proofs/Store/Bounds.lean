import RunQuery.Proofs.Store.Memory

/-!
Where a page stands in its result. Whatever offset a cursor brings, the page is cut out inside the result, and has as
many records as its limit and its side of the result allow; its tokens are there exactly where something is left, and
lead to its ends. Computed in 64-bit words that do not go beyond their range, the ends are the same numbers.
-/
namespace RunQuery

namespace Offset

theorem ofLittleEndian_lt (bytes : List UInt8) : ofLittleEndian bytes < Nat.pow 256 bytes.length := by
  induction bytes with
  | nil => decide
  | cons b rest ih =>
    have low := b.toNat_lt
    show b.toNat + 256 * ofLittleEndian rest < Nat.pow 256 rest.length * 256
    omega

/-- Eight bytes spell no offset beyond a word. -/
theorem ofToken_lt {token : String} {offset : Nat} (read : ofToken token = .ok offset) :
    offset < 0x10000000000000000 := by
  unfold ofToken at read
  split at read
  next => cases read
  next bytes _ =>
    split at read
    next eight =>
      obtain rfl := Except.ok.inj read
      have bound := ofLittleEndian_lt bytes
      rwa [eight] at bound
    next => cases read

end Offset

/-- A cursor whose token is an offset. -/
def Cursor.Readable (cursor : Cursor) : Prop := ∃ offset, Offset.ofToken cursor.token = .ok offset

namespace Window

variable {total limit : Nat} {cursor : Option Cursor} {window : Window}

/-- Where a cursor and a limit place a window. A forward page begins at the offset and a backward page ends there, or
at the end of the result if that comes first; a page has as many records as the limit and its side of the result
allow. -/
def Placed (window : Window) (total limit : Nat) : Option Cursor → Prop
  | none => window.start = 0 ∧ window.stop = min limit total
  | some (.forward token) => ∃ offset, Offset.ofToken token = .ok offset ∧ window.start = min offset total ∧
      window.stop - window.start = min limit (total - window.start)
  | some (.backward token) => ∃ offset, Offset.ofToken token = .ok offset ∧ window.stop = min offset total ∧
      window.stop - window.start = min limit window.stop

theorem Placed.le_limit (placed : window.Placed total limit cursor) : window.stop - window.start ≤ limit := by
  rcases cursor with _ | ⟨token | token⟩
  · obtain ⟨start, stop⟩ := placed
    omega
  · obtain ⟨offset, -, -, long⟩ := placed
    omega
  · obtain ⟨offset, -, -, long⟩ := placed
    omega

theorem exists_of_iff : (∃ window, of total limit cursor = .ok window) ↔ ∀ c ∈ cursor, c.Readable := by
  rcases cursor with _ | ⟨token | token⟩
  · simp [of]
  · cases read : Offset.ofToken token <;> simp [of, Cursor.Readable, Cursor.token, read, Except.map]
  · cases read : Offset.ofToken token <;> simp [of, Cursor.Readable, Cursor.token, read, Except.map]

theorem inside_of (cut : of total limit cursor = .ok window) : window.start ≤ window.stop ∧ window.stop ≤ total := by
  rcases cursor with _ | ⟨token | token⟩
  · obtain rfl := Except.ok.inj cut
    exact ⟨Nat.zero_le _, Nat.min_le_right ..⟩
  · obtain ⟨offset, -, rfl⟩ := map_eq_ok cut
    simp only
    omega
  · obtain ⟨offset, -, rfl⟩ := map_eq_ok cut
    simp only
    omega

theorem placed_of (cut : of total limit cursor = .ok window) : window.Placed total limit cursor := by
  rcases cursor with _ | ⟨token | token⟩
  · obtain rfl := Except.ok.inj cut
    exact ⟨rfl, rfl⟩
  · obtain ⟨offset, read, rfl⟩ := map_eq_ok cut
    refine ⟨offset, read, rfl, ?_⟩
    simp only
    omega
  · obtain ⟨offset, read, rfl⟩ := map_eq_ok cut
    refine ⟨offset, read, rfl, ?_⟩
    simp only
    omega

section Words

/-- A sum of words, or the greatest word if there is none. -/
def cappedSum (a b : UInt64) : UInt64 := if a ≤ a + b then a + b else 0xffffffffffffffff

/-- A difference of words, or zero if there is none. -/
def flooredDifference (a b : UInt64) : UInt64 := if b ≤ a then a - b else 0

theorem toNat_cappedSum (a b : UInt64) : (cappedSum a b).toNat = min (a.toNat + b.toNat) 0xffffffffffffffff := by
  have first := a.toNat_lt
  have second := b.toNat_lt
  have wrapped := UInt64.toNat_add a b
  rw [cappedSum]
  split
  next exact =>
    rw [UInt64.le_iff_toNat_le] at exact
    omega
  next beyond =>
    rw [UInt64.le_iff_toNat_le] at beyond
    show 0xffffffffffffffff = _
    omega

theorem toNat_flooredDifference (a b : UInt64) : (flooredDifference a b).toNat = a.toNat - b.toNat := by
  rw [flooredDifference]
  split
  next exact => exact UInt64.toNat_sub_of_le a b exact
  next below =>
    rw [UInt64.le_iff_toNat_le] at below
    show 0 = _
    omega

/-- The ends of a window, computed in words. -/
def wordsOf (total limit : UInt64) : Option Cursor → Except TokenError (UInt64 × UInt64)
  | none => .ok (0, min limit total)
  | some (.forward token) =>
    (Offset.ofToken token).map fun offset =>
      let start := min (UInt64.ofNat offset) total
      (start, min (cappedSum start limit) total)
  | some (.backward token) =>
    (Offset.ofToken token).map fun offset =>
      let stop := min (UInt64.ofNat offset) total
      (flooredDifference stop limit, stop)

/-- In words nothing is lost: a sum that is cut off lies behind the result anyway. -/
theorem map_wordsOf (total limit : UInt64) (cursor : Option Cursor) :
    (wordsOf total limit cursor).map (fun ends => Window.mk ends.1.toNat ends.2.toNat) =
      of total.toNat limit.toNat cursor := by
  have bound := total.toNat_lt
  rcases cursor with _ | ⟨token | token⟩
  · simp [wordsOf, of, Except.map, UInt64.toNat_min]
  · cases read : Offset.ofToken token with
    | error e => simp [wordsOf, of, read, Except.map]
    | ok offset =>
      have word := UInt64.toNat_ofNat_of_lt' (Offset.ofToken_lt read)
      have uncut : min (min (min offset total.toNat + limit.toNat) 0xffffffffffffffff) total.toNat =
          min (min offset total.toNat + limit.toNat) total.toNat := by omega
      simp only [wordsOf, of, read, Except.map, UInt64.toNat_min, toNat_cappedSum, word, uncut]
  · cases read : Offset.ofToken token with
    | error e => simp [wordsOf, of, read, Except.map]
    | ok offset =>
      have word := UInt64.toNat_ofNat_of_lt' (Offset.ofToken_lt read)
      simp only [wordsOf, of, read, Except.map, UInt64.toNat_min, toNat_flooredDifference, word]

end Words

section Shows

/-- A page shows a window of a result: the window lies in the result, the page holds the records in it, and it has a
token exactly on those sides on which the result goes on, each of them leading to the end of the page there. -/
structure Shows (window : Window) (sorted : List Record) (page : Page) : Prop where
  ordered : window.start ≤ window.stop
  inside : window.stop ≤ sorted.length
  records : page.records = sorted.extract window.start window.stop
  next : page.next.isSome ↔ window.stop < sorted.length
  previous : page.previous.isSome ↔ 0 < window.start
  following : ∀ token ∈ page.next, Offset.ofToken token = .ok window.stop
  preceding : ∀ token ∈ page.previous, Offset.ofToken token = .ok window.start

theorem Shows.length_records {sorted : List Record} {page : Page} (shows : window.Shows sorted page) :
    page.records.length = window.stop - window.start := by
  have inside := shows.inside
  rw [shows.records, List.length_take, List.length_drop]
  omega

theorem ofToken_of_mem {goes : Prop} [Decidable goes] {offset : Nat} {token : String}
    (standing : token ∈ if goes then some (Offset.token offset) else none) (fits : offset < 0x10000000000000000) :
    Offset.ofToken token = .ok offset := by
  obtain ⟨-, same⟩ := Option.ite_none_right_eq_some.mp standing
  rw [← Option.some.inj same, Offset.ofToken_token fits]

theorem shows_page {sorted : List Record} (ordered : window.start ≤ window.stop)
    (inside : window.stop ≤ sorted.length) (small : sorted.length < 0x10000000000000000) :
    window.Shows sorted (window.page sorted) where
  ordered := ordered
  inside := inside
  records := List.drop_take ..
  next := by simp [page]
  previous := by simp [page]
  following _ standing := ofToken_of_mem standing (Nat.lt_of_le_of_lt inside small)
  preceding _ standing := ofToken_of_mem standing (Nat.lt_of_le_of_lt (Nat.le_trans ordered inside) small)

end Shows

end Window

namespace Memory

variable {records sorted : List Record} {request : Request}

/-- A result consists of the records that the filter selects. -/
theorem eq_of_result (found : result records request = .ok sorted) :
    sorted = sortRecords request.sort (records.filter (request.filter.getD ⟨none, .empty⟩).selects) := by
  obtain ⟨-, -, found⟩ := bind_eq_ok found
  obtain ⟨selected, select, sort⟩ := bind_eq_ok found
  have select := mapError_eq_ok select
  rw [selectRecords_eq] at select
  split at select
  · cases select
  · rw [← Except.ok.inj sort, Except.ok.inj select]

/-- A query is answered if nothing is to fail, the filter can be judged, and the cursor can be read. -/
theorem exists_query_eq_ok_iff {m : Memory} :
    (∃ page, (m.query request).1 = .ok page) ↔
      m.failures = [] ∧ (∃ sorted, result m.records request = .ok sorted) ∧ ∀ c ∈ request.cursor, c.Readable := by
  simp only [query_eq_ok_iff, answer_eq_ok_iff]
  constructor
  · rintro ⟨page, reliable, sorted, window, found, cut, -⟩
    exact ⟨reliable, ⟨sorted, found⟩, Window.exists_of_iff.mp ⟨window, cut⟩⟩
  · rintro ⟨reliable, ⟨sorted, found⟩, readable⟩
    obtain ⟨window, cut⟩ := Window.exists_of_iff.mpr readable
    exact ⟨_, reliable, sorted, window, found, cut, rfl⟩

/-- How a page is cut out of the sorted matches of a query, whatever its limit and its cursor are. A query without a
failure ahead, with a filter that can be judged, is answered with any cursor that can be read. A page that is given is
a stretch of the sorted matches that lies within them, of at most as many records as the limit says. It begins or ends
at the offset of the cursor, or at the end of the matches if that comes first; its tokens stand for its own ends, and
are there exactly where matches are left. The ends are computed in words without loss, so that no sum and no difference
leaves the range of a word. A store does not hold more records than words can count. -/
theorem page_is_window_of_matches {m : Memory} (countable : m.records.length < 0x10000000000000000)
    (request : Request) :
    let sorted := sortRecords request.sort (m.records.filter (request.filter.getD ⟨none, .empty⟩).selects)
    ((∃ page, (m.query request).1 = .ok page) ↔
      m.failures = [] ∧ (∃ found, result m.records request = .ok found) ∧ ∀ c ∈ request.cursor, c.Readable) ∧
    ∀ page, (m.query request).1 = .ok page → ∃ window : Window,
      window.Shows sorted page ∧
      window.Placed sorted.length (request.limit.elim sorted.length UInt32.toNat) request.cursor ∧
      (∀ limit ∈ request.limit, page.records.length ≤ limit.toNat) ∧
      ∃ ends, Window.wordsOf (.ofNat sorted.length) (request.limit.elim (.ofNat sorted.length) UInt32.toUInt64)
        request.cursor = .ok ends ∧ ends.1.toNat = window.start ∧ ends.2.toNat = window.stop := by
  intro sorted
  refine ⟨exists_query_eq_ok_iff, fun page answered => ?_⟩
  obtain ⟨found, window, selected, cut, rfl⟩ := answer_eq_ok_iff.mp (query_eq_ok_iff.mp answered).2
  obtain rfl : found = sorted := eq_of_result selected
  have small : sorted.length < 0x10000000000000000 := by
    refine Nat.lt_of_le_of_lt ?_ countable
    rw [eq_of_result selected, sortRecords, List.length_mergeSort]
    exact List.length_filter_le ..
  obtain ⟨ordered, inside⟩ := Window.inside_of cut
  have shows := Window.shows_page ordered inside small
  have placed := Window.placed_of cut
  refine ⟨window, shows, placed, fun limit limited => ?_, ?_⟩
  · rw [shows.length_records]
    rw [Option.mem_def.mp limited] at placed
    exact placed.le_limit
  · have total : (UInt64.ofNat sorted.length).toNat = sorted.length := UInt64.toNat_ofNat_of_lt' small
    have limit : (request.limit.elim (.ofNat sorted.length) UInt32.toUInt64).toNat =
        request.limit.elim sorted.length UInt32.toNat := by
      cases request.limit with
      | none => exact total
      | some limit => exact UInt32.toNat_toUInt64 limit
    have inWords := Window.map_wordsOf (.ofNat sorted.length)
      (request.limit.elim (.ofNat sorted.length) UInt32.toUInt64) request.cursor
    rw [total, limit, cut] at inWords
    obtain ⟨ends, computed, rfl⟩ := map_eq_ok inWords
    exact ⟨ends, computed, rfl, rfl⟩

/-- A backward cursor far behind the end of three records brings the last two, and a token to the one before. -/
theorem page_is_window_of_matches_past_end :
    let run (id : String) : Record := ⟨id, "run", 1, .map []⟩
    let m := Memory.ofRecords [run "a", run "b", run "c"]
    let far : Cursor := .backward "ffffffffffffffff"
    let page : Page := ⟨[run "b", run "c"], none, some "0100000000000000"⟩
    m.records.length < 0x10000000000000000 ∧ (m.query ⟨none, [], some 2, some far⟩).1 = .ok page ∧
      ∃ window : Window, window.Shows [run "a", run "b", run "c"] page ∧ window.Placed 3 2 (some far) ∧
        ∃ ends, Window.wordsOf 3 2 (some far) = .ok ends ∧ ends.1.toNat = window.start ∧ ends.2.toNat = window.stop := by
  intro run m far page
  have kept : sortRecords [] (m.records.filter (Filter.selects ⟨none, .empty⟩)) = [run "a", run "b", run "c"] := by
    rw [sortRecords_nil]
    rfl
  have found : result m.records ⟨none, [], some 2, some far⟩ = .ok [run "a", run "b", run "c"] :=
    (result_unfiltered ..).trans (congrArg Except.ok (sortRecords_nil _))
  have answered : (m.query ⟨none, [], some 2, some far⟩).1 = .ok page := by
    have cut : Window.of 3 2 (some far) = .ok ⟨1, 3⟩ := by decide +kernel
    have shown : Window.page ⟨1, 3⟩ [run "a", run "b", run "c"] = page := by
      have token : Offset.token 1 = "0100000000000000" := by decide +kernel
      exact congrArg (fun previous => Page.mk [run "b", run "c"] none (some previous)) token
    exact query_eq_ok_iff.mpr ⟨rfl, answer_eq_ok_iff.mpr ⟨_, _, found, cut, shown⟩⟩
  have countable : m.records.length < 0x10000000000000000 := by decide +kernel
  have window := (page_is_window_of_matches countable ⟨none, [], some 2, some far⟩).2 page answered
  simp only [Option.getD_none, kept] at window
  obtain ⟨window, shows, placed, -, inWords⟩ := window
  exact ⟨countable, answered, window, shows, placed, inWords⟩

end Memory
end RunQuery
