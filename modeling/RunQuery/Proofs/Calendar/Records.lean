import RunQuery.Proofs.Calendar.Ledger
import RunQuery.Proofs.Calendar.Turn

/-!
A calendar keeps to its ledger: each of its steps is one of the ledger, and its records are those of the
latest fetch that was applied. The walk of the live request holds the pages that the ledger has of the
pending fetch, and there is no live request when no fetch is pending.
-/
namespace RunQuery.Calendar

/-- The walk of a pending fetch, and what is left of it. -/
structure Walking (config : CalendarConfig) (work : Runs.Work) (f : Fetch) : Prop where
  span : work.span = f.span
  records : work.walk.records = f.pages.flatMap Page.records
  pages : work.walk.pagesLeft + f.pages.length = config.maxPages.toNat
  more : work.walk.pagesLeft ≠ 0

theorem Walking.opened {config : CalendarConfig} (paged : config.maxPages ≠ 0) (filter : Filter)
    (sources : List String) (span : Span) :
    Walking config ⟨Walk.start config filter, span⟩ (Fetch.opened config sources span) where
  span := rfl
  records := rfl
  pages := rfl
  more := by simpa [Walk.start, ← UInt32.toNat_inj] using paged

section Advance

variable {config : CalendarConfig} {work : Runs.Work} {f : Fetch} {page : Page}

theorem Walking.records_received (walking : Walking config work f) :
    work.walk.records ++ page.records = (f.received config page).pages.flatMap Page.records := by
  rw [walking.records, Fetch.received, List.flatMap_append, List.flatMap_singleton]

/-- A walk goes on while its fetch is pending. -/
theorem Walking.next {walk : Walk} (walking : Walking config work f)
    (advance : work.walk.advance page = .inl walk) :
    (f.received config page).fate = .pending ∧
    Walking config { work with walk } (f.received config page) := by
  have bound := walking.pages
  have records : work.walk.records ++ page.records = _ := walking.records_received
  unfold Walk.advance at advance
  split at advance
  next token left some more =>
    rw [Sum.inl.injEq] at advance
    subst advance
    have pending : (f.received config page).fate = .pending := by
      simp only [Fetch.received, some, List.length_append, List.length_singleton, Option.isSome_some,
        Bool.true_and, decide_eq_true_eq, ite_eq_left_iff]
      omega
    refine ⟨pending, walking.span, records, ?_, by simp⟩
    simp only [Fetch.received, List.length_append, List.length_singleton]
    omega
  next => cases advance

/-- The end of a walk is the end of its fetch. -/
theorem Walking.last {records : List Record} (walking : Walking config work f)
    (advance : work.walk.advance page = .inr records) :
    (f.received config page).fate = .applied ∧
    records = (f.received config page).pages.flatMap Page.records := by
  have bound := walking.pages
  have left := walking.more
  unfold Walk.advance at advance
  split at advance
  next => cases advance
  next ended =>
    rw [Sum.inr.injEq] at advance
    refine ⟨?_, advance ▸ walking.records_received⟩
    cases next : page.next with
    | none => simp [Fetch.received, next]
    | some token =>
      have out : work.walk.pagesLeft - 1 = 0 := by
        cases more : work.walk.pagesLeft - 1 with
        | zero => rfl
        | succ k => exact absurd more (ended token k next)
      have full : ¬ f.pages.length + 1 < config.maxPages.toNat := by omega
      simp [Fetch.received, next, full]

end Advance

/-- The live request, if there is one, is that of the latest fetch, which is pending; if there is none, it
is not. -/
def Awaits (config : CalendarConfig) : Option (Waiting Runs.Work) → Ledger → Prop
  | some w, f :: _ => f.fate = .pending ∧ Walking config w.work f
  | some _, [] => False
  | none, f :: _ => f.fate ≠ .pending
  | none, [] => True

structure Shows (config : CalendarConfig) (s : Runs.State) (ledger : Ledger) : Prop where
  records : s.records = ledger.records config
  sources : ∀ last, ledger.head? = some last → s.sources = last.sources
  span : s.span = ledger.head?.map Fetch.span

structure Keeps (config : CalendarConfig) (r : Runs) (ledger : Ledger) : Prop where
  settings : r.config = config
  count : r.desk.slot.generation = ledger.length
  shows : Shows config r.state ledger
  awaits : Awaits config r.desk.live? ledger

theorem new_keeps (config : CalendarConfig) (deadline : Option Nat) : Keeps config (Runs.new config deadline) [] :=
  ⟨rfl, rfl, ⟨rfl, fun last none => (by cases none), rfl⟩, trivial⟩

section Keeping

variable {config : CalendarConfig} {r : Runs} {ledger : Ledger}

theorem Keeps.latest (keeps : Keeps config r ledger) {w : Waiting Runs.Work} (live : r.desk.live? = some w) :
    ∃ f earlier, ledger = f :: earlier ∧ f.fate = .pending ∧ Walking config w.work f ∧
      w.ticket.generation = earlier.length + 1 := by
  have awaits := keeps.awaits
  have number := Desk.live?_generation live
  rw [live] at awaits
  match ledger, awaits with
  | f :: earlier, ⟨pending, walking⟩ =>
    exact ⟨f, earlier, rfl, pending, walking, number.symm.trans keeps.count⟩

/-- Only the live request is pending. -/
theorem Keeps.missed (keeps : Keeps config r ledger) {g : Nat}
    (dead : ∀ w, r.desk.live? = some w → w.ticket.generation ≠ g) {f : Fetch} {earlier : Ledger}
    (same : ledger = f :: earlier) : ¬ (g = earlier.length + 1 ∧ f.fate = .pending) := by
  subst same
  rintro ⟨rfl, pending⟩
  have awaits := keeps.awaits
  cases live : r.desk.live? with
  | none =>
    rw [live] at awaits
    exact awaits pending
  | some w =>
    obtain ⟨_, _, same, _, _, number⟩ := keeps.latest live
    obtain ⟨_, rfl⟩ := List.cons.inj same
    exact dead w live number

theorem Keeps.settled (keeps : Keeps config r ledger) {g : Nat}
    (dead : ∀ w, r.desk.live? = some w → w.ticket.generation ≠ g) (how : Fetch → Fetch) :
    ledger.change g how = ledger := by
  cases ledger with
  | nil => rfl
  | cons f earlier => exact if_neg (keeps.missed dead rfl)

theorem Keeps.dropped (keeps : Keeps config r ledger) (g : Nat) :
    Awaits config (r.desk.live?.filter fun w => w.ticket.generation ≠ g) (ledger.change g Fetch.dropped) := by
  have awaits := keeps.awaits
  cases live : r.desk.live? with
  | none =>
    rw [live] at awaits
    rw [keeps.settled fun w some => by simp [live] at some]
    exact awaits
  | some w =>
    by_cases own : w.ticket.generation = g
    · obtain ⟨f, earlier, rfl, pending, _, number⟩ := keeps.latest live
      rw [Option.filter_some, if_neg (by simpa using own), ← own, number,
        Ledger.change_latest earlier pending]
      simp [Awaits, Fetch.dropped]
    · have dead (v : Waiting Runs.Work) (other : r.desk.live? = some v) : v.ticket.generation ≠ g := by
        rw [live, Option.some.injEq] at other
        exact other ▸ own
      rw [live] at awaits
      rw [keeps.settled dead, Option.filter_some, if_pos (by simpa using own)]
      exact awaits

/-- What is shown does not depend on a fetch that is pending or dropped. -/
theorem Shows.replace {s : Runs.State} {f g : Fetch} {earlier : Ledger} (shows : Shows config s (f :: earlier))
    (before : f.fate ≠ .applied) (later : g.fate ≠ .applied) (sources : g.sources = f.sources)
    (span : g.span = f.span) : Shows config s (g :: earlier) where
  records := by
    rw [shows.records, Ledger.records_of_not_applied before, Ledger.records_of_not_applied later]
  sources last newest := by
    cases newest
    exact sources ▸ shows.sources f rfl
  span := shows.span.trans (congrArg some span.symm)

theorem Shows.dropped {s : Runs.State} (shows : Shows config s ledger) (g : Nat) :
    Shows config s (ledger.change g Fetch.dropped) := by
  cases ledger with
  | nil => exact shows
  | cons f earlier =>
    rw [Ledger.change]
    split
    next hit => exact shows.replace (by simp [hit.2]) (by simp [Fetch.dropped]) rfl rfl
    next => exact shows

theorem Shows.applied {s : Runs.State} {f g : Fetch} {earlier : Ledger} (shows : Shows config s (f :: earlier))
    (later : g.fate = .applied) (sources : g.sources = f.sources) (span : g.span = f.span) :
    Shows config (s.loaded (g.records config)) (g :: earlier) where
  records := (Ledger.records_of_applied later).symm
  sources last newest := by
    cases newest
    exact sources ▸ shows.sources f rfl
  span := shows.span.trans (congrArg some span.symm)

/-- A fetch that asks for nothing is applied at once. -/
theorem Keeps.emptied (keeps : Keeps config r ledger) (sound : r.desk.Sound) {sources : List String}
    {span : Span} (nothing : sources = [] ∨ r.config.maxPages = 0) :
    Keeps config (r.emptied sources span) (ledger.enter config sources span) := by
  have applied : (Fetch.opened config sources span).fate = .applied := if_pos (keeps.settings ▸ nothing)
  refine ⟨keeps.settings, ?_, ⟨?_, ?_, rfl⟩, ?_⟩
  · exact (congrArg (· + 1) keeps.count).trans (Ledger.length_enter ..).symm
  · exact (timed_nil ..).symm.trans (Ledger.records_of_applied applied).symm
  · intro last newest
    cases newest
    rfl
  · rw [Runs.live?_emptied sound]
    simp [Ledger.enter, Awaits, applied]

/-- A fetch that asks for a page is pending, and shows nothing yet. -/
theorem Keeps.begun (keeps : Keeps config r ledger) (sound : r.desk.Sound) {sources : List String}
    {span : Span} (some : sources ≠ []) (paged : r.config.maxPages ≠ 0) (filter : Filter) :
    Keeps config (r.begun sources span filter) (ledger.enter config sources span) := by
  have pending : (Fetch.opened config sources span).fate = .pending :=
    if_neg (keeps.settings ▸ not_or_intro some paged)
  refine ⟨keeps.settings, ?_, ⟨?_, ?_, rfl⟩, ?_⟩
  · exact (congrArg (· + 1) keeps.count).trans (Ledger.length_enter ..).symm
  · refine keeps.shows.records.trans ?_
    rw [Ledger.enter, Ledger.records_of_not_applied (by simp [pending]), Ledger.records_dropped]
  · intro last newest
    cases newest
    rfl
  · rw [Runs.live?_begun sound, keeps.settings]
    exact ⟨pending, .opened (keeps.settings ▸ paged) filter sources span⟩

def lifted : Runs.Event → Event
  | .fetch sources span => .fetch sources span
  | .reply g reply => .reply (.runs g) reply
  | .wake g => .wake (.runs g)
  | .expire g => .expire g
  | .cancel => .cancel

/-- Every step of the runs is a step of their ledger. -/
theorem keeps_of_turn {after : Runs} {event : Runs.Event} {notices : List (Notice Nat Runs.Result)}
    (turn : Runs.Turn r event after notices) (sound : r.desk.Sound) (keeps : Keeps config r ledger) :
    Keeps config after (ledger.after config (lifted event)) := by
  have ⟨settings, count, shows, awaits⟩ := keeps
  -- only the live request has a pending fetch, so that the other replies find nothing to change
  cases turn with
  | emptied nothing => exact keeps.emptied sound nothing
  | begun some _ paged => exact keeps.begun sound some paged _
  | @unheard g reply gone =>
    have still := keeps.settled fun w live => Desk.ne_of_gone gone live
    cases reply <;> simp only [lifted, Ledger.after, still] <;> exact keeps
  | asleep _ => exact keeps
  | @walked w page walk live advance =>
    obtain ⟨f, earlier, rfl, pending, walking, number⟩ := keeps.latest live
    obtain ⟨goes, next⟩ := walking.next advance
    simp only [lifted, Ledger.after, number, Ledger.change_latest earlier pending]
    refine ⟨settings, count, shows.replace (by simp [pending]) (by simp [goes]) rfl rfl, ?_⟩
    rw [← number, Desk.live?_resume, live]
    simp only [Option.map_some, if_true]
    exact ⟨goes, next⟩
  | @loaded w page records live advance =>
    obtain ⟨f, earlier, rfl, pending, walking, number⟩ := keeps.latest live
    obtain ⟨applied, whole⟩ := walking.last advance
    simp only [lifted, Ledger.after, number, Ledger.change_latest earlier pending]
    have put : r.putting w.work.span records =
        Runs.State.loaded ((f.received config page).records config) := by
      rw [Runs.putting, settings, whole, walking.span]
      rfl
    rw [put]
    refine ⟨settings, count, shows.applied applied rfl rfl, ?_⟩
    rw [Runs.live?_finished live]
    simp [Awaits, applied]
  | @failed w causes live =>
    obtain ⟨f, earlier, rfl, pending, walking, number⟩ := keeps.latest live
    simp only [lifted, Ledger.after, number, Ledger.change_latest earlier pending]
    have shown := shows.replace (g := f.dropped) (by simp [pending]) (by simp [Fetch.dropped]) rfl rfl
    refine ⟨settings, count, ⟨shown.records, shown.sources, shown.span⟩, ?_⟩
    rw [Runs.live?_finished live]
    simp [Awaits, Fetch.dropped]
  | @dropped w event found dead told =>
    have still : ledger.after config (lifted event) = ledger := by
      rcases told with ⟨reply, rfl⟩ | rfl
      · cases reply <;> exact keeps.settled (fun v live => Desk.ne_of_dead found dead live) _
      · rfl
    have same := r.settled_state w
    rw [still]
    refine ⟨settings, (r.desk.settledSlot_generation _ _).trans count, ?_, ?_⟩
    · exact ⟨(congrArg Runs.State.records same).trans shows.records,
        fun last newest => (congrArg Runs.State.sources same).trans (shows.sources last newest),
        (congrArg Runs.State.span same).trans shows.span⟩
    · rw [Runs.ended, Desk.live?_settled found dead]
      exact awaits
  | @expired g =>
    obtain ⟨state, generation, _, _⟩ := r.desk.expire_frame g
    simp only [lifted, Ledger.after]
    refine ⟨settings, ?_, ?_, ?_⟩
    · rw [Ledger.length_change]
      exact generation.trans count
    · rw [Runs.state, Desk.state, state]
      exact shows.dropped g
    · rw [Desk.live?_expire]
      exact keeps.dropped g
  | cancelled =>
    have none : r.desk.live?.filter (fun w => w.ticket.generation ≠ ledger.length) = none := by
      rw [Option.filter_eq_none_iff]
      intro w live
      obtain ⟨_, _, rfl, _, _, number⟩ := keeps.latest live
      simpa using number
    simp only [lifted, Ledger.after]
    refine ⟨settings, count.trans (Ledger.length_change ..).symm, shows.dropped _, ?_⟩
    rw [Desk.live?_cancel, ← none]
    exact keeps.dropped _

theorem Keeps.after_heard {c : Calendar} (keeps : Keeps config c.runs ledger) (event : Event) :
    ledger.after config event =
      (c.heard? event).elim ledger fun heard => ledger.after config (lifted heard) := by
  match event with
  | .fetch sources span => rfl
  | .reload =>
    have span : c.state.span = ledger.head?.map Fetch.span := keeps.shows.span
    simp only [heard?, Ledger.after, span]
    cases newest : ledger.head? with
    | none => rfl
    | some last =>
      have sources : c.state.sources = last.sources := keeps.shows.sources last newest
      simp only [sources, Option.map_some, Option.elim_some, lifted]
  | .reply (.runs g) reply => rfl
  | .reply (.names g) reply => rfl
  | .wake (.runs g) => rfl
  | .wake (.names g) => rfl
  | .expire g => rfl
  | .cancel => rfl

theorem handle_keeps {c : Calendar} (sound : c.runs.desk.Sound) (keeps : Keeps config c.runs ledger)
    (event : Event) : Keeps config (c.handle event).1.runs (ledger.after config event) := by
  rw [handle_runs, keeps.after_heard]
  cases c.heard? event with
  | none => exact keeps
  | some heard => exact keeps_of_turn (c.runs.handle_turn sound heard) sound keeps

/-- A call that fetches is started under the number of its fetch. -/
theorem Keeps.calls {c : Calendar} (keeps : Keeps config c.runs ledger) {event : Event}
    (later : Keeps config (c.handle event).1.runs (ledger.after config event)) :
    (Notice.calls (c.handle event).2 = [] ∧ (ledger.after config event).length = ledger.length) ∨
    (Notice.calls (c.handle event).2 = [ledger.length + 1] ∧
      (ledger.after config event).length = ledger.length + 1) := by
  have count := later.count
  match event with
  | .fetch sources span =>
    refine .inr ⟨?_, Ledger.length_enter ..⟩
    simp only [handle, fetch, begin_runs, Ledger.after, Ledger.length_enter] at count
    simp only [handle, fetch, begin_calls, count]
  | .reload =>
    have span : c.state.span = ledger.head?.map Fetch.span := keeps.shows.span
    simp only [handle, reload, Ledger.after, span] at count ⊢
    cases newest : ledger.head? with
    | none => exact .inl ⟨rfl, rfl⟩
    | some last =>
      simp only [newest, Option.map_some, begin_runs, Ledger.length_enter] at count ⊢
      refine .inr ⟨?_, trivial⟩
      simp only [begin_calls, count]
  | .reply (.runs g) (.ok page) => exact .inl ⟨c.afterRuns_calls _, Ledger.length_change ..⟩
  | .reply (.runs g) (.error causes) => exact .inl ⟨c.afterRuns_calls _, Ledger.length_change ..⟩
  | .reply (.names g) reply => exact .inl ⟨c.afterNames_calls _, rfl⟩
  | .wake (.runs g) => exact .inl ⟨c.afterRuns_calls _, rfl⟩
  | .wake (.names g) => exact .inl ⟨c.afterNames_calls _, rfl⟩
  | .expire g => exact .inl ⟨c.afterRuns_calls _, Ledger.length_change ..⟩
  | .cancel => exact .inl ⟨c.afterRuns_calls _, Ledger.length_change ..⟩

end Keeping

theorem run_keeps (config : CalendarConfig) (deadline : Option Nat) (events : List Event) :
    let told := controller.run (new config deadline) events
    let ledger := Ledger.follow config [] events
    Keeps config told.1.runs ledger ∧ Notice.calls told.2 = List.range' 1 ledger.length := by
  induction events using List.reverseRecOn with
  | nil => exact ⟨new_keeps config deadline, rfl⟩
  | append_singleton events event ih =>
    obtain ⟨keeps, numbers⟩ := ih
    have later := handle_keeps (run_sound config deadline events) keeps event
    simp only [run_concat, Ledger.follow_concat, Notice.calls_append, numbers]
    refine ⟨later, ?_⟩
    rcases keeps.calls later with ⟨none, same⟩ | ⟨one, more⟩
    · rw [none, same, List.append_nil]
    · rw [one, more, List.range'_concat]
      simp [Nat.add_comm]

/-- At each moment a calendar shows the pages of one fetch, timed in the span of that fetch: of the latest
fetch that was applied. All its pages came under its number; without sources it has no records. Only the
latest fetch can be pending; a failure, a cancellation, its deadline or a newer fetch drops it. An event
changes what is shown only to the latest fetch, and no fetch is shown again once a later one was. What
became of a fetch that is not pending is final: no reply, wake-up or deadline for it changes a record,
whenever it comes. A walk whose end is judged at one moment and put in at a later one has ended at the
later one. -/
theorem records_are_of_latest_applied_fetch (config : CalendarConfig) (deadline : Option Nat)
    (events : List Event) :
    let begun := new config deadline
    let told := controller.run begun events
    let ledger := Ledger.follow config [] events
    told.1.state.records = (ledger.fetch? ledger.shown).elim [] (Fetch.records config) ∧
    Notice.calls told.2 = List.range' 1 ledger.length ∧
    (∀ g f, ledger.fetch? g = some f →
      f.pages.Sublist (events.filterMap (Event.page? g)) ∧
      (f.sources = [] → f.records config = []) ∧
      (f.fate = .applied → g ≤ ledger.shown) ∧
      (g = ledger.shown → f.fate = .applied) ∧
      (f.fate = .pending → g = ledger.length ∧
        ∀ event : Event, event.drops g = true →
          (ledger.after config event).fetch? g = some f.dropped)) ∧
    (∀ event, let next := ledger.after config event
      next.shown = ledger.shown ∨ next.shown = next.length) ∧
    (∀ later, let last := (controller.run told.1 later).1
      let final := ledger.follow config later
      ledger.shown ≤ final.shown ∧
      ∀ g ≤ ledger.length, (∀ f, ledger.fetch? g = some f → f.fate ≠ .pending) →
        final.fetch? g = ledger.fetch? g ∧
        ∀ event : Event, event.target? = some g →
          (last.handle event).1.state.records = last.state.records) ∧
    (∀ before later w reply, events = before ++ later →
      let judged := (controller.run begun before).1.runs.desk
      w ∈ judged.waiting →
        (told.1.runs.conclude w.ticket w.work.span (judged.slot.outcome w.ticket reply)).1 =
          (told.1.runs.conclude w.ticket w.work.span (told.1.runs.desk.slot.outcome w.ticket reply)).1) := by
  intro begun told ledger
  obtain ⟨keeps, numbers⟩ := run_keeps config deadline events
  have sound : ledger.Sound := Ledger.follow_sound config events
  refine ⟨keeps.shows.records, numbers, ?_, ?_, ?_, ?_⟩
  · intro g f entered
    obtain ⟨latest, applied⟩ := Ledger.shown_eq_iff entered
    refine ⟨Ledger.follow_addressed config events g f entered, fun none => ?_, latest, applied,
      fun pending => ⟨sound.latest g f entered pending, fun event => sound.dropped config entered pending⟩⟩
    rw [Fetch.records, (sound.empty g f entered none).2, List.flatMap_nil, timed_nil]
  · intro event next
    exact (Ledger.after_entry config ledger event).shown
  · intro later last final
    refine ⟨ledger.follow_shown config later, fun g known settled => ?_⟩
    have same : final.fetch? g = ledger.fetch? g := ledger.follow_settled config later known settled
    refine ⟨same, fun event target => ?_⟩
    have whole : last = (controller.run begun (events ++ later)).1 := by
      simp only [last, told, Controller.run_append]
    have after := Ledger.follow_append config [] events later
    obtain ⟨kept, _⟩ := run_keeps config deadline (events ++ later)
    rw [← show last = _ from whole, after] at kept
    have next := handle_keeps (whole ▸ run_sound config deadline (events ++ later)) kept event
    rw [Ledger.after_of_settled target (show ∀ f, final.fetch? g = some f → _ from same ▸ settled)] at next
    exact next.shows.records.trans kept.shows.records.symm
  · rintro before later w reply rfl judged member
    have sound := run_sound config deadline before
    have issued := sound.issued _ (List.mem_map_of_mem member)
    have whole : told.1 = (controller.run (controller.run begun before).1 later).1 := by
      simp only [told, Controller.run_append]
    have same := (run_later sound later).conclude_outcome issued reply
      (fun records => Runs.State.loaded (timed told.1.runs.config.timestampFields w.work.span records))
      (fun e => Runs.State.failed (Failure.of w.ticket e)) Runs.State.settled
    rw [← whole] at same
    exact congrArg (Runs.ended told.1.runs w) same

/-- A page of a superseded fetch is not shown, the one of the fetch in its place is. -/
example (early late : Span) (stale page : Page) :
    (Ledger.follow default [] [.fetch ["x"] early, .fetch ["y"] late, .reply (.runs 1) (.ok stale),
      .reply (.runs 2) (.ok { page with next := none })]).shown = 2 := rfl

end RunQuery.Calendar
