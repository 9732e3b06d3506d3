import RunQuery.Calendar.Timed
import Mathlib.Data.List.Nodup

/-!
What makes up timed records. Of records with distinct ids none is a repetition, and since no two have the same id,
their order is strict. Of any records the first of each id count, so that where the records of one id are alike,
neither the order of the records nor their repetitions do.
-/
namespace RunQuery.Calendar

theorem firstOfEach_of_distinct {seen : List String} {records : List Record}
    (distinct : (records.map Record.id).Nodup) (fresh : ∀ r ∈ records, r.id ∉ seen) :
    firstOfEach seen records = records := by
  induction records generalizing seen with
  | nil => rfl
  | cons r rest ih =>
    obtain ⟨first, others⟩ := List.forall_mem_cons.mp fresh
    obtain ⟨new, distinct⟩ := List.nodup_cons.mp distinct
    rw [firstOfEach, if_neg first, ih distinct]
    intro other member
    rw [List.mem_cons, not_or]
    exact ⟨fun same => new (same ▸ List.mem_map_of_mem member), others other member⟩

theorem inOrder_iff {a b : TimedRecord} :
    inOrder a b = true ↔ a.time < b.time ∨ (a.time = b.time ∧ a.record.id ≤ b.record.id) := by
  simp [inOrder]

theorem inOrder_trans (a b c : TimedRecord) (first : inOrder a b = true) (second : inOrder b c = true) :
    inOrder a c = true := by
  rw [inOrder_iff] at first second ⊢
  rcases first with before | ⟨same, le⟩ <;> rcases second with after | ⟨equal, next⟩
  · exact .inl (Int.lt_trans before after)
  · exact .inl (equal ▸ before)
  · exact .inl (same ▸ after)
  · exact .inr ⟨same.trans equal, String.le_trans le next⟩

theorem inOrder_total (a b : TimedRecord) : (inOrder a b || inOrder b a) = true := by
  rw [Bool.or_eq_true, inOrder_iff, inOrder_iff]
  rcases Int.lt_trichotomy a.time b.time with before | same | after
  · exact .inl (.inl before)
  · rcases String.le_total a.record.id b.record.id with le | ge
    · exact .inl (.inr ⟨same, le⟩)
    · exact .inr (.inr ⟨same.symm, ge⟩)
  · exact .inr (.inl after)

/-- Every record that is put in has a time in the span. -/
theorem mem_timed {fields : List String} {span : Span} {records : List Record} {t : TimedRecord}
    (member : t ∈ timed fields span records) :
    timestamp? fields t.record = some t.time ∧ span.contains t.time = true := by
  rw [timed, List.mem_mergeSort, List.mem_filterMap] at member
  obtain ⟨r, _, inside⟩ := member
  obtain ⟨time, kept, rfl⟩ := Option.map_eq_some_iff.mp inside
  exact Option.filter_eq_some_iff.mp kept

section Distinct

variable {fields : List String} {span : Span} {records : List Record}

theorem timed_of_distinct (distinct : (records.map Record.id).Nodup) :
    timed fields span records = (records.filterMap (timedIn? fields span)).mergeSort inOrder := by
  rw [timed, firstOfEach_of_distinct distinct fun _ _ => List.not_mem_nil]

theorem timedIn?_record {r : Record} {t : TimedRecord} (timed : timedIn? fields span r = some t) : t.record = r := by
  obtain ⟨time, _, rfl⟩ := Option.map_eq_some_iff.mp timed
  rfl

/-- Earlier records stand before later ones, and of one time those with the smaller id. -/
theorem pairwise_timed (distinct : (records.map Record.id).Nodup) :
    (timed fields span records).Pairwise fun a b =>
      a.time < b.time ∨ (a.time = b.time ∧ a.record.id < b.record.id) := by
  have unlike : (records.filterMap (timedIn? fields span)).Pairwise fun a b => a.record.id ≠ b.record.id := by
    rw [List.pairwise_filterMap]
    refine (List.pairwise_map.mp distinct).imp fun other a ofFirst b ofSecond => ?_
    rw [timedIn?_record ofFirst, timedIn?_record ofSecond]
    exact other
  rw [timed_of_distinct distinct]
  have sorted := List.pairwise_mergeSort inOrder_trans inOrder_total (records.filterMap (timedIn? fields span))
  have apart := unlike.perm (List.mergeSort_perm _ inOrder).symm Ne.symm
  refine (sorted.and apart).imp fun ⟨ordered, other⟩ => ?_
  rcases inOrder_iff.mp ordered with before | ⟨same, le⟩
  · exact .inl before
  · exact .inr ⟨same, Entries.lt_of_not_lt_of_ne (String.not_lt.mpr le) other.symm⟩

end Distinct

section First

variable {fields : List String} {span : Span} {records others : List Record}

/-- A record is kept if it is the first of its id, and that id has not been seen. -/
theorem mem_firstOfEach {seen : List String} {r : Record} :
    r ∈ firstOfEach seen records ↔ r.id ∉ seen ∧ records.find? (fun s => s.id = r.id) = some r := by
  induction records generalizing seen with
  | nil => simp [firstOfEach]
  | cons first rest ih =>
    rw [firstOfEach, List.find?_cons]
    by_cases own : first.id = r.id
    · -- the first record decides: it is kept, or its id has been seen
      by_cases known : first.id ∈ seen
      · simp [known, own ▸ known, ih]
      · simp [own ▸ known, own, ih, eq_comm]
    · have other : r ≠ first := fun same => own (same ▸ rfl)
      by_cases known : first.id ∈ seen
      · simp [known, own, ih]
      · simp [known, own, other, ih, Ne.symm own]

theorem nodup_firstOfEach (seen : List String) (records : List Record) :
    ((firstOfEach seen records).map Record.id).Nodup := by
  induction records generalizing seen with
  | nil => exact List.nodup_nil
  | cons r rest ih =>
    rw [firstOfEach]
    split
    · exact ih seen
    · refine List.nodup_cons.mpr ⟨fun member => ?_, ih _⟩
      obtain ⟨s, kept, same⟩ := List.mem_map.mp member
      exact (mem_firstOfEach.mp kept).1 (same ▸ List.mem_cons_self)

/-- Only the first records of their ids count. -/
theorem timed_firstOfEach : timed fields span (firstOfEach [] records) = timed fields span records :=
  timed_of_distinct (nodup_firstOfEach [] records)

/-- The order of timed records is strict, whatever the records are. -/
theorem timed_strict (fields : List String) (span : Span) (records : List Record) :
    (timed fields span records).Pairwise fun a b =>
      a.time < b.time ∨ (a.time = b.time ∧ a.record.id < b.record.id) := by
  rw [← timed_firstOfEach]
  exact pairwise_timed (nodup_firstOfEach [] records)

theorem timed_nodup (fields : List String) (span : Span) (records : List Record) :
    (timed fields span records).Nodup := by
  refine (timed_strict fields span records).imp fun before same => ?_
  subst same
  rcases before with early | ⟨_, smaller⟩
  · exact Int.lt_irrefl _ early
  · exact String.lt_irrefl _ smaller

/-- A record is put in if it is the first of its id and its time lies in the span. -/
theorem mem_timed_iff {t : TimedRecord} :
    t ∈ timed fields span records ↔ records.find? (fun s => s.id = t.record.id) = some t.record ∧
      timestamp? fields t.record = some t.time ∧ span.contains t.time = true := by
  constructor
  · intro member
    refine ⟨?_, mem_timed member⟩
    rw [timed, List.mem_mergeSort, List.mem_filterMap] at member
    obtain ⟨r, kept, inside⟩ := member
    rw [timedIn?_record inside]
    exact (mem_firstOfEach.mp kept).2
  · rintro ⟨first, stamped, inside⟩
    rw [timed, List.mem_mergeSort, List.mem_filterMap]
    refine ⟨t.record, mem_firstOfEach.mpr ⟨List.not_mem_nil, first⟩, ?_⟩
    simp [timedIn?, stamped, inside]

/-- Timed records are told by what is among them. -/
theorem timed_eq_of_mem_iff (same : ∀ t, t ∈ timed fields span others ↔ t ∈ timed fields span records) :
    timed fields span others = timed fields span records := by
  have alike := (List.perm_ext_iff_of_nodup (timed_nodup fields span others) (timed_nodup fields span records)).mpr same
  refine alike.eq_of_pairwise (fun a b _ _ before after => ?_) (timed_strict ..) (timed_strict ..)
  rcases before with early | ⟨equal, smaller⟩ <;> rcases after with late | ⟨_, larger⟩
  · exact absurd late (Int.lt_asymm early)
  · omega
  · omega
  · exact absurd (String.lt_trans smaller larger) (String.lt_irrefl _)

/-- Where records of one id are alike, each of them is the first. -/
theorem find?_of_alike (alike : ∀ r ∈ records, ∀ s ∈ records, r.id = s.id → r = s) {r : Record} :
    records.find? (fun s => s.id = r.id) = some r ↔ r ∈ records := by
  refine ⟨List.mem_of_find?_eq_some, fun member => ?_⟩
  cases found : records.find? fun s => s.id = r.id with
  | none => exact absurd (List.find?_eq_none.mp found r member) (by simp)
  | some s =>
    have own : s.id = r.id := by simpa using List.find?_some found
    rw [alike s (List.mem_of_find?_eq_some found) r member own]

end First

/-- What timing does to any records. A record is put in with a time exactly if it is the first one with its id, the
time is the one that it stands for, and the time lies in the half-open span. Each is put in once, and they stand in
the strict order of time and then of ids. Where records with one id are alike, it makes no difference in which order
they come and how often. -/
theorem timed_keeps_first_in_span (fields : List String) (span : Span) (records : List Record) :
    let output := timed fields span records
    (∀ r time, ⟨r, time⟩ ∈ output ↔
      (∃ early late, records = early ++ r :: late ∧ ∀ s ∈ early, s.id ≠ r.id) ∧
        timestamp? fields r = some time ∧ span.start ≤ time ∧ time < span.stop) ∧
    output.Nodup ∧
    output.Pairwise (fun a b => a.time < b.time ∨ (a.time = b.time ∧ a.record.id < b.record.id)) ∧
    ((∀ r ∈ records, ∀ s ∈ records, r.id = s.id → r = s) →
      ∀ others, (∀ r, r ∈ others ↔ r ∈ records) → timed fields span others = output) := by
  intro output
  refine ⟨fun r time => ?_, timed_nodup .., timed_strict .., fun alike others same => ?_⟩
  · rw [mem_timed_iff, List.find?_eq_some_iff_append]
    simp [Span.contains]
  · have alikeOthers : ∀ r ∈ others, ∀ s ∈ others, r.id = s.id → r = s := by
      simpa only [same] using alike
    refine timed_eq_of_mem_iff fun t => ?_
    rw [mem_timed_iff, mem_timed_iff, find?_of_alike alike, find?_of_alike alikeOthers, same]

/-- Of three records the one at the end of the span is left out, and the others stand in the order of their ids. They
may come in another order and twice. -/
theorem timed_of_repeated_records :
    let run (id : String) (time : Number) : Record := ⟨id, "run", 1, .map [("startedAt", .number time)]⟩
    let a := run "a" ⟨0x4014000000000000⟩
    let b := run "b" ⟨0x4014000000000000⟩
    let c := run "c" ⟨0x4024000000000000⟩
    let output := timed ["startedAt"] ⟨0, 10, by decide⟩ [b, a, c]
    ⟨a, 5⟩ ∈ output ∧ (∀ time, ⟨c, time⟩ ∉ output) ∧
      timed ["startedAt"] ⟨0, 10, by decide⟩ [c, a, b, a, c] = output := by
  intro run a b c output
  obtain ⟨members, -, -, alike⟩ := timed_keeps_first_in_span ["startedAt"] ⟨0, 10, by decide⟩ [b, a, c]
  have times : timestamp? ["startedAt"] a = some 5 ∧ timestamp? ["startedAt"] c = some 10 := by decide +kernel
  refine ⟨(members a 5).mpr ⟨⟨[b], [c], rfl, by decide⟩, times.1, by decide, by decide⟩, fun time member => ?_,
    alike (by simp [run, a, b, c]) _ (by simp [or_comm, or_left_comm])⟩
  obtain ⟨-, stamped, -, before⟩ := (members c time).mp member
  obtain rfl : 10 = time := Option.some.inj (times.2.symm.trans stamped)
  exact absurd before (by decide)

end RunQuery.Calendar
