import RunQuery.Proofs.Except
import RunQuery.Proofs.Store.Evaluate
import RunQuery.Proofs.Store.Offset
import RunQuery.Store.Memory
import Mathlib.Data.List.Nodup

/-!
Queries of a memory store whose filter never fails: their results are the records that the filter selects, in
the order of the store, and a page is cut out of the result where its cursor points.
-/
namespace RunQuery

theorem selectRecords_eq_filter {predicate : Option Predicate} {params : Dict Value} {keep : Record → Bool}
    (total : ∀ r, predicate.elim (.ok true) (Predicate.evaluate params r) = .ok (keep r)) (records : List Record) :
    selectRecords predicate params records = .ok (records.filter keep) := by
  induction records with
  | nil => rfl
  | cons r rest ih =>
    rw [selectRecords, total, ih, List.filter_cons]
    rfl

theorem sortRecords_nil (records : List Record) : sortRecords [] records = records :=
  List.mergeSort_of_pairwise (List.pairwise_of_forall fun _ _ => rfl)

namespace Memory

section Answer

variable {records sorted : List Record} {request : Request} {limit : UInt32} {page : Page}

theorem answer_eq_ok_iff :
    answer records request = .ok page ↔ ∃ sorted window, result records request = .ok sorted ∧
      Window.of sorted.length (request.limit.elim sorted.length UInt32.toNat) request.cursor = .ok window ∧
      window.page sorted = page := by
  constructor
  · intro answered
    obtain ⟨sorted, found, answered⟩ := bind_eq_ok answered
    obtain ⟨window, cut, shown⟩ := bind_eq_ok answered
    exact ⟨sorted, window, found, mapError_eq_ok cut, Except.ok.inj shown⟩
  · rintro ⟨sorted, window, found, cut, rfl⟩
    rw [answer, found, ok_bind]
    simp only [cut]
    rfl

/-- A query that succeeds meets no failure. -/
theorem query_eq_ok_iff {m : Memory} :
    (m.query request).1 = .ok page ↔ m.failures = [] ∧ answer m.records request = .ok page := by
  rw [query]
  split <;> simp [*]

theorem result_of_total {filter : Filter} {keep : Record → Bool} (valid : filter.validate = .ok ())
    (total : ∀ r, filter.predicate.elim (.ok true) (Predicate.evaluate filter.params r) = .ok (keep r))
    (limit : Option UInt32) (cursor : Option Cursor) :
    result records ⟨some filter, [], limit, cursor⟩ = .ok (records.filter keep) := by
  rw [result, Option.getD_some, valid, selectRecords_eq_filter total]
  exact congrArg Except.ok (sortRecords_nil _)

theorem result_unfiltered (records : List Record) (sort : List SortKey) (limit : Option UInt32)
    (cursor : Option Cursor) : result records ⟨none, sort, limit, cursor⟩ = .ok (sortRecords sort records) := by
  have every : selectRecords none .empty records = .ok (records.filter fun _ => true) :=
    selectRecords_eq_filter (fun _ => rfl) records
  rw [List.filter_eq_self.mpr fun _ _ => rfl] at every
  rw [result, Option.getD_none, every]
  rfl

/-- Without a limit and a cursor the whole result is one page. -/
theorem answer_whole (records : List Record) (filter : Option Filter) (sort : List SortKey) :
    answer records ⟨filter, sort, none, none⟩ =
      (result records ⟨filter, sort, none, none⟩).map fun sorted => ⟨sorted, none, none⟩ := by
  rw [answer]
  cases result records ⟨filter, sort, none, none⟩ with
  | error e => rfl
  | ok sorted =>
    have page : Window.page ⟨0, min sorted.length sorted.length⟩ sorted = ⟨sorted, none, none⟩ := by
      simp [Window.page]
    exact congrArg Except.ok page

/-- Queries with this filter bring pages of these records. -/
structure Yields (m : Memory) (filter : Filter) (matched : List Record) : Prop where
  failures : m.failures = []
  result : ∀ limit cursor, result m.records ⟨some filter, [], limit, cursor⟩ = .ok matched

theorem answer_of_window (whole : result records request = .ok sorted) (limited : request.limit = some limit)
    {window : Window} (cut : Window.of sorted.length limit.toNat request.cursor = .ok window) :
    answer records request = .ok (window.page sorted) :=
  answer_eq_ok_iff.mpr ⟨sorted, window, whole, by rwa [limited], rfl⟩

theorem answer_first (whole : result records request = .ok sorted) (limited : request.limit = some limit)
    (first : request.cursor = none) :
    answer records request = .ok (Window.page ⟨0, min limit.toNat sorted.length⟩ sorted) :=
  answer_of_window whole limited (by rw [first]; rfl)

theorem answer_forward {offset : Nat} (whole : result records request = .ok sorted)
    (limited : request.limit = some limit) (later : request.cursor = some (.forward (Offset.token offset)))
    (fits : offset < 0x10000000000000000) :
    answer records request = .ok (Window.page ⟨min offset sorted.length,
      min (min offset sorted.length + limit.toNat) sorted.length⟩ sorted) :=
  answer_of_window whole limited (by rw [later, Window.of, Offset.ofToken_token fits]; rfl)

theorem answer_backward {offset : Nat} (whole : result records request = .ok sorted)
    (limited : request.limit = some limit) (earlier : request.cursor = some (.backward (Offset.token offset)))
    (fits : offset < 0x10000000000000000) :
    answer records request = .ok (Window.page ⟨min offset sorted.length - limit.toNat, min offset sorted.length⟩ sorted) :=
  answer_of_window whole limited (by rw [earlier, Window.of, Offset.ofToken_token fits]; rfl)

end Answer

theorem map_id_upsertInto (record : Record) (records : List Record) :
    (upsertInto record records).map Record.id =
      if record.id ∈ records.map Record.id then records.map Record.id else records.map Record.id ++ [record.id] := by
  induction records with
  | nil => rfl
  | cons first rest ih =>
    rw [upsertInto]
    by_cases same : first.id = record.id
    · simp [same]
    · rw [if_neg same, List.map_cons, ih]
      by_cases later : record.id ∈ rest.map Record.id
      · simp [later]
      · simp [later, Ne.symm same]

/-- A record takes the place of the one with its id. -/
theorem ids_upsertInto {record : Record} {records : List Record} (distinct : (records.map Record.id).Nodup) :
    ((upsertInto record records).map Record.id).Nodup := by
  rw [map_id_upsertInto]
  split
  · exact distinct
  next absent => exact List.concat_eq_append ▸ distinct.concat absent

/-- A store holds each id once, and nothing fails unless it was asked to. -/
theorem ofRecords_sound (content : List Record) :
    ((ofRecords content).records.map Record.id).Nodup ∧ (ofRecords content).failures = [] := by
  suffices ∀ m : Memory, (m.records.map Record.id).Nodup → m.failures = [] →
      ((content.foldl upsert m).records.map Record.id).Nodup ∧ (content.foldl upsert m).failures = [] from
    this empty List.nodup_nil rfl
  induction content with
  | nil => exact fun m distinct none => ⟨distinct, none⟩
  | cons record rest ih => exact fun m distinct none => ih (m.upsert record) (ids_upsertInto distinct) none

end Memory

end RunQuery
