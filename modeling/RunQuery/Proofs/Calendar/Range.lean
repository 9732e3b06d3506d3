import RunQuery.Proofs.Calendar.Timed
import RunQuery.Proofs.Calendar.Verdict

/-!
What a settled calendar shows lies in its range. The range is that of the latest fetch from its start, the records
only come with its end; so between the two, and after an end that brings no records, the records are those of an
earlier fetch. A failure says so. Cancellation is silent: a fetch that was cut short leaves its range over the
records of another.
-/
namespace RunQuery.Calendar

namespace Ledger

/-- The latest fetch was on its way when the calendar was cancelled, or when the time of the fetch was up. -/
def CutShort (config : CalendarConfig) (events : List Event) : Prop :=
  ∃ early event late, events = early ++ event :: late ∧
    ∃ f earlier, follow config [] early = f :: earlier ∧ f.fate = .pending ∧
      (follow config [] events).length = earlier.length + 1 ∧
      (event = .cancel ∨ event = .expire (earlier.length + 1))

theorem mem_verdictsOf {config : CalendarConfig} {ledger : Ledger} {events : List Event} {v : Verdict}
    (member : v ∈ ledger.verdictsOf config events) :
    ∃ early event late, events = early ++ event :: late ∧
      v ∈ (ledger.follow config early).verdicts config event := by
  induction events generalizing ledger with
  | nil => cases member
  | cons first rest ih =>
    rcases List.mem_append.mp member with now | later
    · exact ⟨[], first, rest, rfl, now⟩
    · obtain ⟨early, event, late, rfl, found⟩ := ih later
      exact ⟨first :: early, event, late, rfl, found⟩

theorem follow_length (config : CalendarConfig) (ledger : Ledger) (events : List Event) :
    ledger.length ≤ (ledger.follow config events).length := by
  induction events generalizing ledger with
  | nil => exact Nat.le_refl _
  | cons event rest ih => exact Nat.le_trans (after_entry config ledger event).length_le (ih _)

/-- A fetch is cancelled before its time only by a newer one, or it is cut short. -/
theorem verdicts_cancelled {config : CalendarConfig} {ledger : Ledger} {event : Event} {g : Nat}
    (cancelled : (g, .error .cancelled) ∈ ledger.verdicts config event) :
    ∃ f earlier, ledger = f :: earlier ∧ f.fate = .pending ∧ g = earlier.length + 1 ∧
      (g < (ledger.after config event).length ∨ event = .cancel ∨ event = .expire g) := by
  have newer {sources : List String} (span : Span)
      (superseded : (g, .error .cancelled) ∈ ledger.superseding config sources) :
      ∃ f earlier, ledger = f :: earlier ∧ f.fate = .pending ∧ g = earlier.length + 1 ∧
        g < (ledger.enter config sources span).length := by
    rcases List.mem_append.mp superseded with cut | done
    · obtain ⟨f, earlier, rfl, same, number, pending, _⟩ := mem_closing cut
      rw [length_enter]
      exact ⟨f, earlier, rfl, pending, same.trans number, by simp [show g = earlier.length + 1 from same.trans number]⟩
    · split at done <;> simp at done
  match event, cancelled with
  | .fetch sources span, superseded =>
    obtain ⟨f, earlier, same, pending, number, before⟩ := newer span superseded
    exact ⟨f, earlier, same, pending, number, .inl before⟩
  | .reload, superseded =>
    cases ledger with
    | nil => cases superseded
    | cons last rest =>
      obtain ⟨f, earlier, same, pending, number, before⟩ := newer last.span superseded
      exact ⟨f, earlier, same, pending, number, .inl before⟩
  | .reply (.runs k) (.ok page), closed =>
    obtain ⟨f, _, _, _, _, _, judged⟩ := mem_closing closed
    split at judged <;> cases judged
  | .reply (.runs k) (.error causes), closed =>
    obtain ⟨f, _, _, _, _, _, judged⟩ := mem_closing closed
    cases judged
  | .expire k, cut =>
    obtain ⟨f, earlier, same, rfl, number, pending, _⟩ := mem_closing cut
    exact ⟨f, earlier, same, pending, number, .inr (.inr rfl)⟩
  | .cancel, cut =>
    obtain ⟨f, earlier, same, number, latest, pending, _⟩ := mem_closing cut
    exact ⟨f, earlier, same, pending, number.trans latest, .inr (.inl rfl)⟩

/-- The latest fetch is cancelled only when it is cut short. -/
theorem cutShort_of_cancelled {config : CalendarConfig} {events : List Event}
    (cancelled : ((follow config [] events).length, .error .cancelled) ∈ verdictsOf config [] events) :
    CutShort config events := by
  obtain ⟨early, event, late, rfl, found⟩ := mem_verdictsOf cancelled
  obtain ⟨f, earlier, same, pending, number, before | cut⟩ := verdicts_cancelled found
  · have bound := follow_length config ((follow config [] early).after config event) late
    rw [follow_append] at before
    exact absurd (Nat.lt_of_lt_of_le before bound) (Nat.lt_irrefl _)
  · exact ⟨early, event, late, rfl, f, earlier, same, pending, number, number ▸ cut⟩

end Ledger

section Settled

variable {config : CalendarConfig} {deadline : Option Nat} {events : List Event}

/-- While a fetch is on its way the calendar is loading. -/
theorem loading_of_pending {f : Fetch} {earlier : Ledger} (latest : Ledger.follow config [] events = f :: earlier)
    (pending : f.fate = .pending) : (controller.run (new config deadline) events).1.state.loading = true := by
  have keeps := (run_keeps config deadline events).1
  have accounts := (run_books config deadline events).runs
  rw [latest] at keeps
  cases live : (controller.run (new config deadline) events).1.runs.desk.live? with
  | none =>
    have awaits := keeps.awaits
    rw [live] at awaits
    exact absurd pending awaits
  | some w => exact accounts.sign.1.trans (decide_eq_true (Desk.mem_of_live? live))

/-- A fetch that failed is shown as failed, if it was not cut short. -/
theorem failure_of_dropped {f : Fetch} {earlier : Ledger} (latest : Ledger.follow config [] events = f :: earlier)
    (dropped : f.fate = .dropped) (whole : ¬ Ledger.CutShort config events) :
    (controller.run (new config deadline) events).1.state.failure ≠ none := by
  have decided := Ledger.follow_decided config events
  obtain ⟨e, known⟩ := decided.dropped f (by rw [latest]; rfl) dropped
  obtain ⟨before, all⟩ := decided.latest known
  have shown := (run_tells config deadline events).failure
  rw [all, List.foldl_append] at shown
  cases e with
  | cancelled => exact absurd (Ledger.cutShort_of_cancelled known) whole
  | store causes =>
    show Runs.State.failure _ ≠ none
    rw [state, shown]
    exact Option.some_ne_none _

end Settled

/-- If a calendar has a range, is not loading and shows no failure, all its records have their times in that range,
unless its latest fetch was cut short. -/
theorem settled_records_in_range (config : CalendarConfig) (deadline : Option Nat) (events : List Event)
    (span : Span) (whole : ¬ Ledger.CutShort config events)
    (range : (controller.run (new config deadline) events).1.state.span = some span)
    (settled : (controller.run (new config deadline) events).1.state.loading = false)
    (clean : (controller.run (new config deadline) events).1.state.failure = none) :
    ∀ t ∈ (controller.run (new config deadline) events).1.state.records,
      timestamp? config.timestampFields t.record = some t.time ∧ span.contains t.time = true := by
  have keeps := (run_keeps config deadline events).1
  intro t member
  cases latest : Ledger.follow config [] events with
  | nil =>
    rw [state, keeps.shows.span, latest] at range
    cases range
  | cons f earlier =>
    have own : f.span = span := by
      rw [state, keeps.shows.span, latest] at range
      exact Option.some.inj range
    have applied : f.fate = .applied := by
      cases fate : f.fate with
      | pending => simp [loading_of_pending latest fate] at settled
      | applied => rfl
      | dropped => exact absurd clean (failure_of_dropped latest fate whole)
    rw [state, keeps.shows.records, latest, Ledger.records_of_applied applied, Fetch.records, own] at member
    exact mem_timed member

/-- A fetch of one page with one record, and nothing cut short. -/
theorem settled_records_in_range_of_one_page :
    let span : Span := ⟨0, 10, by decide⟩
    let record : Record := ⟨"a", "run", 1, .map [("startedAt", .number ⟨0x4014000000000000⟩)]⟩
    let events : List Event := [.fetch ["w"] span, .reply (.runs 1) (.ok ⟨[record], none, none⟩)]
    let s := (controller.run (new default none) events).1.state
    ¬ Ledger.CutShort default events ∧ s.span = some span ∧ s.loading = false ∧ s.failure = none ∧
      s.records.map TimedRecord.time = [5] ∧
      ∀ t ∈ s.records, timestamp? (default : CalendarConfig).timestampFields t.record = some t.time ∧
        span.contains t.time = true := by
  intro span record events s
  have whole : ¬ Ledger.CutShort default events := by
    rintro ⟨early, event, late, same, f, earlier, _, _, _, cut⟩
    have member : event ∈ events := by simp [same]
    rcases cut with rfl | rfl <;> simp [events] at member
  exact ⟨whole, rfl, rfl, rfl, by decide +kernel, settled_records_in_range default none events span whole rfl rfl rfl⟩

/-- A fetch that is cancelled before its page comes leaves the record of the fetch before it, outside the range. -/
theorem cancelled_fetch_leaves_earlier_records :
    let earlier : Span := ⟨0, 10, by decide⟩
    let later : Span := ⟨100, 200, by decide⟩
    let record : Record := ⟨"a", "run", 1, .map [("startedAt", .number ⟨0x4014000000000000⟩)]⟩
    let s := (controller.run (new default none) [.fetch ["w"] earlier,
      .reply (.runs 1) (.ok ⟨[record], none, none⟩), .fetch ["w"] later, .cancel, .wake (.runs 2)]).1.state
    s.span = some later ∧ s.loading = false ∧ s.failure = none ∧
      s.records.map (fun t => later.contains t.time) = [false] := by
  decide +kernel

end RunQuery.Calendar
