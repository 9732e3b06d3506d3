import RunQuery.Proofs.Calendar.Fetching
import RunQuery.Proofs.Calendar.Query
import RunQuery.Proofs.Calendar.Timed

/-!
A fetch that nothing disturbs, against filtering the store directly. While the fetch is under way, its walk holds
the matching records of the pages it has seen; when it is over, its records are put in.
-/
namespace RunQuery

namespace Runs

/-- Nothing happens to the latest fetch but that the store replies to its request. -/
def Event.Undisturbing (m : Memory) (r : Runs) : Event → Prop
  | .reply g said => g = r.desk.slot.generation → ∀ w, r.desk.find? g = some w →
      said = (m.query w.work.walk.request).1.mapError StoreError.causes
  | .wake _ => True
  | .expire g => g ≠ r.desk.slot.generation
  | .fetch _ _ => False
  | .cancel => False

/-- A fetch has seen some pages, and waits for the next one. -/
structure Under (config : CalendarConfig) (filter : Filter) (matched : List Record) (span : Span) (pages : Nat)
    (r : Runs) : Prop where
  goes : Walk.Goes config matched pages
  live : ∃ ticket, r.desk.live? = some ⟨ticket, ⟨Walk.after config filter matched pages, span⟩⟩
  loading : r.state.loading = true

/-- The latest fetch is over, and its records are shown. -/
structure Over (config : CalendarConfig) (matched : List Record) (span : Span) (r : Runs) : Prop where
  records : r.state.records = Calendar.timed config.timestampFields span
    (matched.take (Walk.reach config config.maxPages.toNat))
  loading : r.state.loading = false
  failure : r.state.failure = none
  gone : r.desk.slot.generation ∉ r.desk.generations

section Undisturbed

variable {m : Memory} {config : CalendarConfig} {filter : Filter} {matched : List Record} {span : Span} {pages : Nat}
  {r next : Runs} {event : Event} {notices : List (Notice Nat Result)}

theorem Under.page (under : Under config filter matched span pages r) (yields : m.Yields filter matched)
    {w : Waiting Work} (live : r.desk.live? = some w) {reply : Reply Page}
    (calm : Event.Undisturbing m r (.reply w.ticket.generation reply)) :
    w.work = ⟨Walk.after config filter matched pages, span⟩ ∧ reply = .ok (Walk.nextPage config matched pages) := by
  obtain ⟨ticket, known⟩ := under.live
  obtain rfl := Option.some.inj (live.symm.trans known)
  have found := (Desk.live?_eq_some_iff.mp live).1
  refine ⟨rfl, (calm (Desk.live?_generation live).symm _ found).trans ?_⟩
  rw [Walk.query_after yields under.goes]
  rfl

theorem Event.Undisturbing.spares (calm : event.Undisturbing m r) :
    (Calendar.lifted event).Spares r.desk.slot.generation := by
  match event with
  | .fetch _ _ => exact calm.elim
  | .cancel => exact calm.elim
  | .wake _ => exact nofun
  | .expire g => exact fun same => absurd (of_decide_eq_true same) calm
  | .reply g (.ok _) => exact nofun
  | .reply g (.error causes) =>
    intro same
    obtain rfl : g = _ := of_decide_eq_true same
    exact ⟨causes, rfl⟩

theorem Under.stands (under : Under config filter matched span pages r) :
    ∃ ticket, r.Stands ticket span r.state (.waits (Walk.after config filter matched pages)) :=
  under.live.imp fun _ live => ⟨live, rfl⟩

theorem Over.of_stands (settings : r.config = config) {ticket : Ticket} {s : State}
    (stands : r.Stands ticket span s (.ended (.ok (matched.take (Walk.reach config config.maxPages.toNat))))) :
    Over config matched span r := by
  obtain ⟨number, gone, state⟩ := stands
  rw [settings] at state
  exact ⟨congrArg State.records state, congrArg State.loading state, congrArg State.failure state, number ▸ gone⟩

/-- The page that a fetch waits for carries it on, or ends it. -/
theorem Under.paged (under : Under config filter matched span pages r) (settings : next.config = config)
    {ticket : Ticket} (stands : next.Stands ticket span r.state
      ((Walk.Stage.waits (Walk.after config filter matched pages)).take (.ok (Walk.nextPage config matched pages)))) :
    Under config filter matched span (pages + 1) next ∨ Over config matched span next := by
  rcases Walk.advance_after filter under.goes with ⟨goes, further⟩ | last
  · rw [Walk.Stage.take_inl further] at stands
    obtain ⟨live, state⟩ := stands
    exact .inl ⟨goes, ⟨ticket, live⟩, (congrArg State.loading state).trans under.loading⟩
  · rw [Walk.Stage.take_inr last] at stands
    exact .inr (.of_stands settings stands)

/-- While a fetch is under way, nothing that leaves it undisturbed does more than carry it on or end it. -/
theorem Under.turn (under : Under config filter matched span pages r) (yields : m.Yields filter matched)
    (settings : r.config = config) (turn : Turn r event next notices) (calm : event.Undisturbing m r) :
    (∃ pages, Under config filter matched span pages next) ∨ Over config matched span next := by
  obtain ⟨ticket, stands⟩ := under.stands
  have own : r.desk.slot.generation = ticket.generation := Desk.live?_generation stands.1
  have went := (stands.turn turn (own ▸ calm.spares)).1
  cases came : (Calendar.lifted event).reply? ticket.generation with
  | none =>
    rw [came] at went
    exact .inl ⟨pages, under.goes, ⟨ticket, went.1⟩, (congrArg State.loading went.2).trans under.loading⟩
  | some said =>
    rw [came] at went
    obtain rfl := Calendar.eq_of_reply?_lifted came
    obtain ⟨-, rfl⟩ := under.page yields stands.1 calm
    exact (under.paged (turn.settings.trans settings) went).imp_left fun later => ⟨pages + 1, later⟩

/-- The reply of the store to the page that a fetch waits for carries it on by that page, or ends it. -/
theorem Under.answered (under : Under config filter matched span pages r) (sound : r.desk.Sound)
    (yields : m.Yields filter matched) (settings : r.config = config) :
    ∃ g said, (Event.reply g said).Undisturbing m r ∧
      (Under config filter matched span (pages + 1) (r.handle (.reply g said)).1 ∨
        Over config matched span (r.handle (.reply g said)).1) := by
  obtain ⟨ticket, stands⟩ := under.stands
  have found := (Desk.live?_eq_some_iff.mp stands.1).1
  let page := Walk.nextPage config matched pages
  have turn := r.handle_turn sound (.reply ticket.generation (.ok page))
  have went := (stands.turn turn nofun).1
  have came : (Calendar.lifted (.reply ticket.generation (.ok page))).reply? ticket.generation = some (.ok page) :=
    if_pos rfl
  rw [came] at went
  refine ⟨ticket.generation, .ok page, fun _ w known => ?_, under.paged (turn.settings.trans settings) went⟩
  obtain rfl := Option.some.inj (found.symm.trans known)
  rw [Walk.query_after yields under.goes]
  rfl

/-- What happens after the fetch has no part in it. -/
theorem Over.turn (finished : Over config matched span r) (settings : r.config = config)
    (turn : Turn r event next notices) (calm : event.Undisturbing m r) : Over config matched span next := by
  let ticket : Ticket := ⟨r.desk.slot.name, r.desk.slot.generation⟩
  let chosen := matched.take (Walk.reach config config.maxPages.toNat)
  have shown : r.state = r.state.closed r.config.timestampFields span ticket (.ok chosen) := by
    rw [State.closed, settings, State.loaded, ← finished.records, ← finished.loading, ← finished.failure]
  have stands : r.Stands ticket span r.state (.ended (.ok chosen)) := ⟨rfl, finished.gone, shown⟩
  exact .of_stands (turn.settings.trans settings) (stands.ended_turn turn calm.spares).1

/-- A fetch begins with nothing seen, or is over at once if there is nothing to ask for. -/
theorem fetch_under (sound : r.desk.Sound) (reliable : m.failures = []) (settings : r.config = config)
    (sources : List String) :
    let matched := m.records.filter (Calendar.selects config sources)
    (∃ filter, m.Yields filter matched ∧ Under config filter matched span 0 (r.fetch sources span).1) ∨
    Over config matched span (r.fetch sources span).1 := by
  subst settings
  intro matched
  have turn := r.fetch_turn sound sources span
  generalize r.fetch sources span = fetched at turn
  obtain ⟨after, notices⟩ := fetched
  cases turn with
  | emptied nothing =>
    right
    have none : matched.take (Walk.reach r.config r.config.maxPages.toNat) = [] := by
      rcases nothing with rfl | unpaged
      · have unmatched : matched = [] := List.filter_eq_nil_iff.mpr fun _ _ => Bool.false_ne_true
        rw [unmatched, List.take_nil]
      · have zero : Walk.reach r.config r.config.maxPages.toNat = 0 := by
          rw [unpaged]
          exact Nat.zero_mul _
        rw [zero, List.take_zero]
    refine ⟨?_, rfl, rfl, sound.fresh⟩
    rw [none, Calendar.timed_nil]
    rfl
  | @begun _ _ filter some query paged =>
    left
    obtain ⟨valid, selects⟩ := Calendar.sourceFilter?_selects query
    refine ⟨filter, ⟨reliable, Memory.result_of_total valid fun r => (selects r).trans ?_⟩,
      ⟨⟨?_, .inl rfl⟩, ⟨⟨r.desk.slot.name, r.desk.slot.generation + 1⟩, ?_⟩, rfl⟩⟩
    · rw [Calendar.selects_sortedTexts]
    · rw [Nat.pos_iff_ne_zero]
      simpa [← UInt32.toNat_inj] using paged
    · rw [Walk.after_zero]
      exact live?_begun sound sources span filter
  | dropped _ _ told => rcases told with ⟨_, other⟩ | other <;> cases other

end Undisturbed

end Runs

namespace Calendar

/-- The store replies to the requests of the latest fetch, and nothing else happens to it: no other call is made, and
its time is not up. Names may come, and what is left of earlier fetches may end. -/
def Undisturbed (m : Memory) (c : Calendar) : List Event → Prop
  | [] => True
  | event :: rest => (∀ heard, c.heard? event = some heard → heard.Undisturbing m c.runs) ∧
      Undisturbed m (c.handle event).1 rest

/-- The latest fetch waits for a reply. -/
def Waits (c : Calendar) : Prop := c.runs.desk.slot.generation ∈ c.runs.desk.generations

theorem undisturbed_append {m : Memory} {c : Calendar} {early late : List Event} :
    Undisturbed m c (early ++ late) ↔ Undisturbed m c early ∧ Undisturbed m (controller.run c early).1 late := by
  induction early generalizing c with
  | nil => exact ⟨fun late => ⟨trivial, late⟩, And.right⟩
  | cons event rest ih =>
    rw [List.cons_append, Undisturbed, Undisturbed, ih, and_assoc]
    rfl

/-- A fetch that nothing has disturbed is under way, or over. -/
structure Fetching (m : Memory) (config : CalendarConfig) (matched : List Record) (span : Span) (c : Calendar) :
    Prop where
  sound : c.runs.desk.Sound
  settings : c.runs.config = config
  stands : (∃ filter pages, m.Yields filter matched ∧ Runs.Under config filter matched span pages c.runs) ∨
    Runs.Over config matched span c.runs

section Fetching

variable {m : Memory} {config : CalendarConfig} {matched : List Record} {span : Span} {c : Calendar}

theorem Fetching.handle (fetching : Fetching m config matched span c) {event : Event}
    (calm : ∀ heard, c.heard? event = some heard → heard.Undisturbing m c.runs) :
    Fetching m config matched span (c.handle event).1 := by
  obtain ⟨sound, settings, stands⟩ := fetching
  refine ⟨handle_sound sound event, (handle_settings sound event).trans settings, ?_⟩
  rw [handle_runs]
  cases told : c.heard? event with
  | none => exact stands
  | some heard =>
    have turn := c.runs.handle_turn sound heard
    rcases stands with ⟨filter, pages, yields, under⟩ | finished
    · have next := under.turn yields settings turn (calm heard told)
      exact next.imp_left fun ⟨pages, under⟩ => ⟨filter, pages, yields, under⟩
    · exact .inr (finished.turn settings turn (calm heard told))

theorem Fetching.run (fetching : Fetching m config matched span c) {course : List Event}
    (calm : Undisturbed m c course) : Fetching m config matched span (controller.run c course).1 := by
  induction course generalizing c with
  | nil => exact fetching
  | cons event rest ih => exact ih (fetching.handle calm.1) calm.2

/-- A fetch that is under way is over when the store has replied to all its requests. -/
theorem Fetching.finish (fetching : Fetching m config matched span c) :
    ∃ rest, Undisturbed m c rest ∧ Runs.Over config matched span (controller.run c rest).1.runs := by
  rcases fetching.stands with ⟨filter, pages, yields, under⟩ | finished
  · -- each reply is one more page, and there are only so many
    generalize left : config.maxPages.toNat - pages = n
    induction n generalizing c pages with
    | zero =>
      have within := under.goes.within
      omega
    | succ n ih =>
      obtain ⟨g, said, calm, next⟩ := under.answered fetching.sound yields fetching.settings
      have undisturbing : ∀ heard, c.heard? (.reply (.runs g) said) = some heard → heard.Undisturbing m c.runs := by
        rintro heard ⟨⟩
        exact calm
      have runs : (c.handle (.reply (.runs g) said)).1.runs = (c.runs.handle (.reply g said)).1 :=
        c.handle_runs (.reply (.runs g) said)
      rw [← runs] at next
      rcases next with next | finished
      · obtain ⟨rest, undisturbed, finished⟩ := ih (fetching.handle undisturbing) (pages + 1) next (by omega)
        exact ⟨.reply (.runs g) said :: rest, ⟨undisturbing, undisturbed⟩, finished⟩
      · exact ⟨[.reply (.runs g) said], ⟨undisturbing, trivial⟩, finished⟩
  · exact ⟨[], trivial, finished⟩

end Fetching

/-- A fetch that nothing disturbs ends with what filtering the store directly gives: of the records of the sources
and kinds, in the order of the store, as many as there are on the pages that a fetch may go through; of these, those
with a time in the span, in the order of time and then of ids. Each is there once, and there is no failure. However
far such a fetch has come, the store can bring it to its end. -/
theorem undisturbed_fetch_filters_store (config : CalendarConfig) (deadline : Option Nat) (before : List Event)
    (content : List Record) (sources : List String) (span : Span) :
    let m := Memory.ofRecords content
    let begun := ((controller.run (new config deadline) before).1.handle (.fetch sources span)).1
    let chosen := (m.records.filter (selects config sources)).take (config.maxPages.toNat * config.pageLimit.toNat)
    (∀ course, Undisturbed m begun course →
      let final := (controller.run begun course).1
      ¬ final.Waits →
        final.state.records = (chosen.filterMap (timedIn? config.timestampFields span)).mergeSort inOrder ∧
        (final.state.records.Pairwise fun a b => a.time < b.time ∨ (a.time = b.time ∧ a.record.id < b.record.id)) ∧
        final.state.loading = false ∧ final.state.failure = none) ∧
    (∀ course, Undisturbed m begun course →
      ∃ rest, Undisturbed m begun (course ++ rest) ∧ ¬ (controller.run begun (course ++ rest)).1.Waits) := by
  intro m begun chosen
  have sound := run_sound config deadline before
  have settings := run_settings config deadline before
  obtain ⟨distinct, reliable⟩ := Memory.ofRecords_sound content
  have fetching : Fetching m config (m.records.filter (selects config sources)) span begun := by
    refine ⟨handle_sound sound _, (handle_settings sound _).trans settings, ?_⟩
    rw [show begun.runs = _ from begin_runs _ sources span _]
    exact (Runs.fetch_under sound reliable settings sources).imp_left fun ⟨filter, yields, under⟩ =>
      ⟨filter, 0, yields, under⟩
  refine ⟨fun course calm => ?_, fun course calm => ?_⟩
  · intro final done
    rcases (fetching.run calm).stands with ⟨_, _, _, under⟩ | finished
    · obtain ⟨_, live⟩ := under.live
      exact absurd (Desk.mem_of_live? live) done
    · have once : (chosen.map Record.id).Nodup :=
        distinct.sublist (((List.take_sublist _ _).trans List.filter_sublist).map Record.id)
      have records : final.state.records = timed config.timestampFields span chosen := finished.records
      rw [records]
      exact ⟨timed_of_distinct once, pairwise_timed once, finished.loading, finished.failure⟩
  · obtain ⟨rest, undisturbed, finished⟩ := (fetching.run calm).finish
    refine ⟨rest, undisturbed_append.mpr ⟨calm, undisturbed⟩, ?_⟩
    rw [Controller.run_append]
    exact finished.gone

/-- Three records match, two of which stand on the pages that are looked at, the later one first. -/
theorem undisturbed_fetch_of_two_pages :
    let config : CalendarConfig :=
      { (default : CalendarConfig) with kinds := ["completed", "failed"], pageLimit := 1, maxPages := 2 }
    let run (id source status : String) (time : Number) : Record := ⟨id, "run", 1,
      .map [("startedAt", .number time), ("status", .text status), ("workflowId", .text source)]⟩
    let content := [run "a" "w" "completed" ⟨0x401c000000000000⟩, run "b" "v" "failed" ⟨0x3ff0000000000000⟩,
      run "c" "w" "failed" ⟨0x4014000000000000⟩, run "d" "w" "failed" ⟨0x4018000000000000⟩]
    let begun := ((new config none).handle (.fetch ["w"] ⟨0, 10, by decide⟩)).1
    ∃ course, Undisturbed (Memory.ofRecords content) begun course ∧ ¬ (controller.run begun course).1.Waits ∧
      ((controller.run begun course).1.state.records.map fun t => (t.record.id, t.time)) = [("c", 5), ("a", 7)] := by
  intro config run content begun
  obtain ⟨fetched, done⟩ :=
    undisturbed_fetch_filters_store config none [] content ["w"] ⟨0, 10, by decide⟩
  obtain ⟨course, calm, finished⟩ := done [] trivial
  refine ⟨course, calm, finished, ?_⟩
  let first : TimedRecord := ⟨run "a" "w" "completed" ⟨0x401c000000000000⟩, 7⟩
  let second : TimedRecord := ⟨run "c" "w" "failed" ⟨0x4014000000000000⟩, 5⟩
  have later : inOrder first second = false := rfl
  have timed : ((((Memory.ofRecords content).records.filter (selects config ["w"])).take 2).filterMap
      (timedIn? config.timestampFields ⟨0, 10, by decide⟩)) = [first, second] := by
    unfold content run config
    rfl
  have records : (controller.run begun course).1.state.records = [first, second].mergeSort inOrder := by
    rw [← timed]
    exact (fetched course calm finished).1
  have sorted : [first, second].mergeSort inOrder = [second, first] := by
    simp [List.mergeSort, List.MergeSort.Internal.splitInTwo, later]
  rw [records, sorted]
  rfl

end Calendar

end RunQuery
