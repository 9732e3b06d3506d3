import RunQuery.Proofs.Calendar.Verdict

/-!
The names of a calendar have no part in its runs. The listing that a call loads beside its fetch may bring
anything, fail, be superseded or come at any time: what the runs show, what the calls come to and all of the
entries but their labels are the same. Both the ledger and its verdicts are blind to what comes for the names, and
what a call comes to is the verdict on its fetch, however long the listing keeps the call waiting.
-/
namespace RunQuery.Calendar

/-- The event is a call, a cancellation, a deadline or a reply to a page of runs. -/
def Event.isPrimary : Event → Bool
  | .reply (.names _) _ => false
  | .wake _ => false
  | _ => true

/-- The event is not one for the names alone. -/
def Event.isOfRuns : Event → Bool
  | .reply (.names _) _ => false
  | .wake (.names _) => false
  | _ => true

def Entry.unlabelled (e : Entry) : Entry := { e with label := none }

namespace Ledger

theorem after_of_not_primary (config : CalendarConfig) (ledger : Ledger) {event : Event}
    (other : event.isPrimary = false) :
    ledger.after config event = ledger ∧ ledger.verdicts config event = [] := by
  match event, other with
  | .reply (.names _) _, _ => exact ⟨rfl, rfl⟩
  | .wake _, _ => exact ⟨rfl, rfl⟩

/-- The ledger and its verdicts come from the primary events alone. -/
theorem follow_primary (config : CalendarConfig) (ledger : Ledger) (events : List Event) :
    ledger.follow config (events.filter Event.isPrimary) = ledger.follow config events ∧
    ledger.verdictsOf config (events.filter Event.isPrimary) = ledger.verdictsOf config events := by
  induction events generalizing ledger with
  | nil => exact ⟨rfl, rfl⟩
  | cons event rest ih =>
    cases primary : event.isPrimary with
    | true =>
      rw [List.filter_cons_of_pos primary]
      exact ⟨(ih _).1, congrArg (_ ++ ·) (ih _).2⟩
    | false =>
      obtain ⟨still, none⟩ := after_of_not_primary config ledger primary
      have here : ledger.follow config (event :: rest) = (ledger.after config event).follow config rest := rfl
      rw [List.filter_cons_of_neg (by simp [primary]), here, verdictsOf, still, none]
      exact ih ledger

end Ledger

section Results

theorem Joined.foldl_noteFetch_mem {outcomes : List Verdict} {j : Joined} {result : Runs.Result}
    (noted : (outcomes.foldl noteFetch j).result = some result) :
    j.result = some result ∨ (j.call, result) ∈ outcomes := by
  induction outcomes generalizing j with
  | nil => exact .inl noted
  | cons done rest ih =>
    by_cases own : j.call = done.1
    · have changed : j.noteFetch done = { j with result := some done.2 } := if_pos own
      rw [List.foldl_cons, changed] at noted
      rcases ih noted with now | later
      · exact .inr (List.mem_cons.mpr (.inl (Prod.ext own (Option.some.inj now).symm)))
      · exact .inr (List.mem_cons_of_mem _ later)
    · have same : j.noteFetch done = j := if_neg own
      rw [List.foldl_cons, same] at noted
      exact (ih noted).imp_right (List.mem_cons_of_mem _)

/-- A calendar has noted and said of its calls only what became of their fetches. -/
structure Passes (c : Calendar) (said : Notices) (known : List Verdict) : Prop where
  noted : ∀ j ∈ c.joined, ∀ result, j.result = some result → (j.call, result) ∈ known
  said : Notice.outcomes said ⊆ known

variable {c : Calendar} {said : Notices} {known fresh : List Verdict}

theorem Passes.joining (passes : Passes c said known) {event : Event}
    (heard : Notice.outcomes (c.fetched event).2 ⊆ known ++ fresh) :
    ∀ j ∈ (c.joining event).joined, ∀ result, j.result = some result → (j.call, result) ∈ known ++ fresh := by
  intro j member result found
  obtain ⟨k, before, rfl⟩ := List.mem_map.mp member
  rw [Joined.heard, (Joined.foldl_noteLoad ..).2.1] at found
  rw [Joined.heard_call]
  rcases Joined.foldl_noteFetch_mem found with old | new
  · rcases List.mem_append.mp before with joined | opened
    · exact List.mem_append_left _ (passes.noted k joined result old)
    · obtain ⟨call, _, rfl⟩ := List.mem_map.mp opened
      cases old
  · exact heard new

theorem Passes.handle (passes : Passes c said known) (sound : c.runs.desk.Sound) {event : Event}
    (heard : Notice.outcomes (c.fetched event).2 ⊆ known ++ fresh) :
    Passes (c.handle event).1 (said ++ (c.handle event).2) (known ++ fresh) := by
  have before : Notice.outcomes said ⊆ known ++ fresh := fun v member => List.mem_append_left _ (passes.said member)
  rcases handle_handled sound event with handled | ⟨handle, _, _⟩
  · have noted := passes.joining heard
    refine ⟨fun j member => ?_, fun v member => ?_⟩
    · rw [handled.state] at member
      exact noted j (List.mem_of_mem_filter member)
    · rw [Notice.outcomes_append, handled.outcomes, List.mem_append] at member
      rcases member with old | new
      · exact before old
      · obtain ⟨notice, released, finished⟩ := List.mem_filterMap.mp new
        obtain ⟨j, member, done⟩ := List.mem_filterMap.mp released
        obtain ⟨result, ended, rfl⟩ := Option.map_eq_some_iff.mp done
        obtain rfl : (j.call, result) = v := Option.some.inj finished
        refine noted j member result ?_
        rw [Joined.done?] at ended
        split at ended
        · exact ended
        · cases ended
  · have none : Notice.outcomes (said ++ [.answered (.ok ())]) = Notice.outcomes said :=
      (Notice.outcomes_append ..).trans (List.append_nil _)
    rw [handle]
    exact ⟨fun j member result found => List.mem_append_left _ (passes.noted j member result found), none ▸ before⟩

theorem run_passes (config : CalendarConfig) (deadline : Option Nat) (events : List Event) :
    let told := controller.run (new config deadline) events
    Passes told.1 told.2 (Ledger.verdictsOf config [] events) := by
  intro told
  induction events using List.reverseRecOn with
  | nil => exact ⟨fun _ none => (List.not_mem_nil none).elim, List.Subset.refl _⟩
  | append_singleton events event ih =>
    have sound := run_sound config deadline events
    have tells := fetched_tells sound (run_keeps config deadline events).1 (run_tells config deadline events) event
    have heard := List.append_subset.mp tells.said
    simp only [told, run_concat, Ledger.verdictsOf_concat]
    exact ih.handle sound heard.2

theorem release_answers (c : Calendar) : Notice.answers c.release.2 = [] := by
  rw [Notice.answers, release, List.filterMap_filterMap, List.filterMap_eq_nil_iff]
  intro j _
  cases j.done? <;> rfl

theorem afterRuns_answers (c : Calendar) (told : Runs × List (Notice Nat Runs.Result)) :
    Notice.answers (c.afterRuns told).2 = [] := by
  rw [afterRuns, Notice.answers_append, Notice.answers_passing (hearRuns_passing _ _), release_answers]
  rfl

theorem afterNames_answers (c : Calendar) (told : Names × List (Notice Nat Names.Result)) :
    Notice.answers (c.afterNames told).2 = [] := by
  rw [afterNames, Notice.answers_append, Notice.answers_passing (hearNames_passing _ _), release_answers]
  rfl

theorem begin_answers (c : Calendar) (sources : List String) (span : Span)
    (load : Names → Names × List (Notice Nat Names.Result)) : Notice.answers (c.begin sources span load).2 = [] := by
  simp only [begin, Notice.answers_append, Notice.answers_started, Notice.answers_passing (hearRuns_passing _ _),
    Notice.answers_passing (hearNames_passing _ _), release_answers, List.append_nil]

/-- A call that is done at once has come to nothing bad. -/
theorem handle_answers (c : Calendar) (event : Event) : ∀ result ∈ Notice.answers (c.handle event).2, result = .ok () := by
  have nothing {notices : Notices} (none : Notice.answers notices = []) :
      ∀ result ∈ Notice.answers notices, result = .ok () := by simp [none]
  match event with
  | .fetch sources span => exact nothing (c.begin_answers ..)
  | .reload =>
    simp only [Calendar.handle, reload]
    cases c.state.span with
    | none => exact fun result member => List.mem_singleton.mp member
    | some span => exact nothing (c.begin_answers ..)
  | .reply (.runs g) reply => exact nothing (c.afterRuns_answers _)
  | .reply (.names g) reply => exact nothing (c.afterNames_answers _)
  | .wake (.runs g) => exact nothing (c.afterRuns_answers _)
  | .wake (.names g) => exact nothing (c.afterNames_answers _)
  | .expire g => exact nothing (c.afterRuns_answers _)
  | .cancel => exact nothing (c.afterRuns_answers _)

theorem run_answers (c : Calendar) (events : List Event) :
    ∀ result ∈ Notice.answers (controller.run c events).2, result = .ok () := by
  induction events generalizing c with
  | nil => exact fun _ none => (List.not_mem_nil none).elim
  | cons event rest ih =>
    intro result member
    simp only [Controller.run, Notice.answers_append, List.mem_append] at member
    exact member.elim (handle_answers c event result) (ih _ result)

end Results

section Runs

theorem handle_runs_congr {c d : Calendar} (same : c.runs = d.runs) (event : Event) :
    (c.handle event).1.runs = (d.handle event).1.runs := by
  have state : c.state = d.state := congrArg Runs.state same
  have heard : c.heard? event = d.heard? event := by
    cases event <;> simp only [heard?, state]
  rw [handle_runs, handle_runs, heard, same]

/-- The runs come from the events that are not for the names alone. -/
theorem run_ofRuns {c d : Calendar} (same : c.runs = d.runs) (events : List Event) :
    (controller.run c events).1.runs = (controller.run d (events.filter Event.isOfRuns)).1.runs := by
  induction events generalizing c d with
  | nil => exact same
  | cons event rest ih =>
    cases ofRuns : event.isOfRuns with
    | true =>
      rw [List.filter_cons_of_pos ofRuns]
      exact ih (handle_runs_congr same event)
    | false =>
      have still : (c.handle event).1.runs = c.runs := by
        rw [handle_runs]
        match event, ofRuns with
        | .reply (.names _) _, _ => rfl
        | .wake (.names _), _ => rfl
      rw [List.filter_cons_of_neg (by simp [ofRuns])]
      exact ih (still.trans same)

/-- The sources that are shown are those of the latest fetch. -/
theorem run_sources (config : CalendarConfig) (deadline : Option Nat) (events : List Event) :
    (controller.run (new config deadline) events).1.state.sources =
      ((Ledger.follow config [] events).head?.map Fetch.sources).getD [] := by
  induction events using List.reverseRecOn with
  | nil => rfl
  | append_singleton events event ih =>
    have sound := run_sound config deadline events
    have keeps := (run_keeps config deadline events).1
    have later := (run_keeps config deadline (events ++ [event])).1
    cases newest : (Ledger.follow config [] (events ++ [event])).head? with
    | some last => exact later.shows.sources last newest
    | none =>
      -- nothing was fetched yet, and nothing is now
      have empty : Ledger.follow config [] (events ++ [event]) = [] := List.head?_eq_none_iff.mp newest
      rw [Ledger.follow_concat] at empty
      have before : Ledger.follow config [] events = [] := by
        have bound := (Ledger.after_entry config (Ledger.follow config [] events) event).length_le
        rw [empty] at bound
        exact List.length_eq_zero_iff.mp (Nat.le_zero.mp bound)
      rw [before] at ih
      rw [run_concat]
      show (Calendar.handle _ event).1.runs.state.sources = []
      rw [handle_runs]
      rw [keeps.after_heard] at empty
      cases heard : (controller.run (new config deadline) events).1.heard? event with
      | none => exact ih
      | some heardEvent =>
        rw [heard, before] at empty
        refine ((Runs.handle_turn _ sound heardEvent).sources ?_).trans ih
        rintro sources span rfl
        cases empty

theorem eq_of_settled {s t : Runs.State} (same : s.settled = t.settled) (loading : s.loading = t.loading) : s = t := by
  obtain ⟨sources, span, records, _, failure⟩ := s
  obtain ⟨_, _, _, _, _⟩ := t
  simp only [Runs.State.settled, Runs.State.mk.injEq] at same loading ⊢
  exact ⟨same.1, same.2.1, same.2.2.1, loading, same.2.2.2.2⟩

/-- No fetch that was cancelled waits to be woken. -/
def Quiet (c : Calendar) : Prop := ∀ w ∈ c.runs.desk.waiting, c.runs.desk.slot.IsLive w.ticket

/-- A quiet calendar is loading exactly while its latest fetch is pending. -/
theorem loading_iff_of_quiet {config : CalendarConfig} {deadline : Option Nat} {events : List Event}
    (quiet : (controller.run (new config deadline) events).1.Quiet) :
    (controller.run (new config deadline) events).1.state.loading = true ↔
      ∃ f, (Ledger.follow config [] events).head? = some f ∧ f.fate = .pending := by
  have keeps := (run_keeps config deadline events).1
  have sound := run_sound config deadline events
  have sign : (controller.run (new config deadline) events).1.state.loading = _ :=
    (run_books config deadline events).runs.sign.1
  rw [sign, decide_eq_true_iff]
  constructor
  · intro waits
    obtain ⟨w, member, number⟩ := List.mem_map.mp waits
    obtain ⟨f, earlier, same, pending, _⟩ := keeps.latest (sound.live?_of_mem member (quiet w member))
    exact ⟨f, by rw [same]; rfl, pending⟩
  · rintro ⟨f, newest, pending⟩
    obtain ⟨earlier, same⟩ := List.head?_eq_some_iff.mp newest
    have awaits := keeps.awaits
    rw [same] at awaits
    cases live : (controller.run (new config deadline) events).1.runs.desk.live? with
    | none =>
      rw [live] at awaits
      exact absurd pending awaits
    | some w => exact Desk.mem_of_live? live

end Runs

/-- Two courses of events with the same calls, cancellations, deadlines and replies to pages of runs, and with any
listings of names that come at any times: sources, range, records and failure are the same, and so are the calls and
what they come to. Both show alike whether they are loading when no cancelled fetch is still to be woken, and if
what was cancelled was woken at the same moments, the whole state of the runs is the same. Entries differ at most in
their labels. -/
theorem names_have_no_part (config : CalendarConfig) (deadline : Option Nat) (first second : List Event)
    (same : first.filter Event.isPrimary = second.filter Event.isPrimary) :
    let one := controller.run (new config deadline) first
    let other := controller.run (new config deadline) second
    one.1.state.settled = other.1.state.settled ∧
    (one.1.Quiet → other.1.Quiet → one.1.state = other.1.state) ∧
    (first.filter Event.isOfRuns = second.filter Event.isOfRuns → one.1.state = other.1.state) ∧
    one.1.entries.map Entry.unlabelled = other.1.entries.map Entry.unlabelled ∧
    Notice.calls one.2 = Notice.calls other.2 ∧
    (∀ call r s, (call, r) ∈ Notice.outcomes one.2 → (call, s) ∈ Notice.outcomes other.2 → r = s) ∧
    (∀ r s, r ∈ Notice.answers one.2 → s ∈ Notice.answers other.2 → r = s) := by
  intro one other
  have ledgers : Ledger.follow config [] first = Ledger.follow config [] second := by
    rw [← (Ledger.follow_primary config [] first).1, same, (Ledger.follow_primary config [] second).1]
  have verdicts : Ledger.verdictsOf config [] first = Ledger.verdictsOf config [] second := by
    rw [← (Ledger.follow_primary config [] first).2, same, (Ledger.follow_primary config [] second).2]
  obtain ⟨keeps, numbers⟩ := run_keeps config deadline first
  obtain ⟨keepsOther, numbersOther⟩ := run_keeps config deadline second
  rw [← ledgers] at keepsOther numbersOther
  have sources : one.1.state.sources = other.1.state.sources := by
    rw [run_sources, run_sources, ledgers]
  have span : one.1.state.span = other.1.state.span := keeps.shows.span.trans keepsOther.shows.span.symm
  have records : one.1.state.records = other.1.state.records :=
    keeps.shows.records.trans keepsOther.shows.records.symm
  have failure : one.1.state.failure = other.1.state.failure := by
    have shown := (run_tells config deadline second).failure
    rw [← verdicts] at shown
    exact (run_tells config deadline first).failure.trans shown.symm
  have settled : one.1.state.settled = other.1.state.settled := by
    simp only [Runs.State.settled, sources, span, records, failure]
  refine ⟨settled, fun quiet quietOther => eq_of_settled settled ?_, fun woken => ?_, ?_,
    numbers.trans numbersOther.symm, fun call r s ofOne ofOther => ?_, fun r s ofOne ofOther => ?_⟩
  · rw [Bool.eq_iff_iff, loading_iff_of_quiet quiet, loading_iff_of_quiet quietOther, ledgers]
  · exact congrArg Runs.state ((run_ofRuns rfl first).trans (woken ▸ (run_ofRuns rfl second).symm))
  · have settings : one.1.config = other.1.config :=
      (run_settings config deadline first).trans (run_settings config deadline second).symm
    rw [entries, entries, records, List.map_map, List.map_map]
    refine List.map_congr_left fun t _ => ?_
    simp only [Function.comp_apply, entry, Entry.unlabelled, settings]
  · have known := (run_passes config deadline second).said ofOther
    rw [← verdicts] at known
    exact (Ledger.follow_decided config first).unique ((run_passes config deadline first).said ofOne) known
  · exact (run_answers _ first r ofOne).trans (run_answers _ second s ofOther).symm

/-- A listing that comes first and one that fails last: only the label of the entry tells them apart. -/
theorem names_have_no_part_but_label :
    let span : Span := ⟨0, 10, by decide⟩
    let record : Record := ⟨"a", "run", 1,
      .map [("startedAt", .number ⟨0x4014000000000000⟩), ("workflowId", .text "w")]⟩
    let page : Event := .reply (.runs 1) (.ok ⟨[record], none, none⟩)
    let listing : Page := ⟨[⟨"w", "workflow", 1, .map [("name", .text "Alpha")]⟩], none, none⟩
    let first : List Event := [.fetch ["w"] span, .reply (.names 1) (.ok listing), page]
    let second : List Event := [.fetch ["w"] span, page, .reply (.names 1) (.error ["down"])]
    let one := controller.run (new default none) first
    let other := controller.run (new default none) second
    first.filter Event.isPrimary = second.filter Event.isPrimary ∧
      Notice.outcomes one.2 = [(1, .ok ())] ∧ Notice.outcomes other.2 = [(1, .ok ())] ∧
      one.1.entries.map Entry.label = [some "Alpha"] ∧ other.1.entries.map Entry.label = [some "#w"] ∧
      one.1.state.settled = other.1.state.settled ∧
      one.1.entries.map Entry.unlabelled = other.1.entries.map Entry.unlabelled := by
  intro span record page listing first second one other
  obtain ⟨settled, _, _, entries, _⟩ := names_have_no_part default none first second rfl
  refine ⟨rfl, by decide +kernel, by decide +kernel, by decide +kernel, by decide +kernel, settled, entries⟩

end RunQuery.Calendar
