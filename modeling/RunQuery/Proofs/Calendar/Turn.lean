import RunQuery.Calendar.Basic
import RunQuery.Proofs.Controller
import RunQuery.Proofs.Dict
import RunQuery.Proofs.Slot.Desk

/-!
Everything that one event can do to the runs of a calendar. As with tables, a page counts only when the
fetch that it comes for is the live one; then the walk goes on, or its records are put in.
-/
namespace RunQuery

namespace Calendar

theorem sourceClauses_ne_nil (config : CalendarConfig) (bind : String) : sourceClauses config bind ≠ [] := by
  unfold sourceClauses
  split
  next => simp
  next some =>
    cases kinds : config.kinds with
    | nil => simp [kinds] at some
    | cons kind rest => simp [Predicate.conjunction?, Predicate.collapse]

theorem disjunction?_eq_none_iff {clauses : List Predicate} :
    Predicate.disjunction? clauses = none ↔ clauses = [] := by
  match clauses with
  | [] => simp [Predicate.disjunction?, Predicate.collapse]
  | [clause] => simp [Predicate.disjunction?, Predicate.collapse]
  | first :: second :: rest => simp [Predicate.disjunction?, Predicate.collapse]

@[simp] theorem timed_nil (fields : List String) (span : Span) : timed fields span [] = [] := by
  simp [timed, firstOfEach]

/-- There is a query unless there are no sources. -/
theorem sourceFilter?_eq_none_iff {config : CalendarConfig} {sources : List String} :
    sourceFilter? config sources = none ↔ sources = [] := by
  simp only [sourceFilter?, Option.map_eq_none_iff, disjunction?_eq_none_iff, List.flatten_eq_nil_iff]
  constructor
  · intro empty
    cases sources with
    | nil => rfl
    | cons source rest => exact absurd (empty _ (by simp)) (sourceClauses_ne_nil config (bindName 0))
  · rintro rfl
    simp

end Calendar

namespace Runs

/-- The slot of runs that begin a fetch, before its request is made. -/
def turned (r : Runs) (sources : List String) (span : Span) (loading : Bool) : Slot State :=
  r.desk.slot.update fun s => { s with sources, span := some span, loading }

def ended (r : Runs) (w : Waiting Work) (slot : Slot State) : Runs :=
  { r with desk := r.desk.ended w slot }

def putting (r : Runs) (span : Span) (records : List Record) : State → State :=
  State.loaded (Calendar.timed r.config.timestampFields span records)

/-- The runs when a fetch that asks for nothing has begun and ended. -/
def emptied (r : Runs) (sources : List String) (span : Span) : Runs :=
  let slot := (r.turned (sortedTexts sources) span false).issue.1.finish (State.loaded [])
  { r with desk := { r.desk with slot } }

/-- The runs when a fetch has begun, and waits for its first page. -/
def begun (r : Runs) (sources : List String) (span : Span) (filter : Filter) : Runs :=
  let issued := (r.turned (sortedTexts sources) span true).issue
  { r with
    desk := ({ r.desk with slot := issued.1 } : Desk State Work).await issued.2
      ⟨Walk.start r.config filter, span⟩ }

/-- One step of the runs, and what they say. -/
inductive Turn (r : Runs) : Event → Runs → List (Notice Nat Result) → Prop where
  | emptied {sources : List String} {span : Span} (nothing : sources = [] ∨ r.config.maxPages = 0) :
      Turn r (.fetch sources span) (r.emptied sources span)
        ([.started (r.desk.slot.generation + 1)] ++
          ((if sources = [] then none else r.deadline).map
            (Notice.alarm (r.desk.slot.generation + 1))).toList ++
          [.finished (r.desk.slot.generation + 1) (.ok ())])
  | begun {sources : List String} {span : Span} {filter : Filter} (some : sources ≠ [])
      (query : Calendar.sourceFilter? r.config (sortedTexts sources) = .some filter)
      (paged : r.config.maxPages ≠ 0) :
      Turn r (.fetch sources span) (r.begun sources span filter)
        ([.started (r.desk.slot.generation + 1)] ++
          (r.deadline.map (Notice.alarm (r.desk.slot.generation + 1))).toList ++
          [.asked (r.desk.slot.generation + 1) (Walk.start r.config filter).request])
  | unheard {g : Nat} {reply : Reply Page} (gone : r.desk.find? g = none) : Turn r (.reply g reply) r []
  | asleep {g : Nat}
      (uncancelled : ∀ w, r.desk.find? g = .some w → r.desk.slot.isCancelled w.ticket = false) :
      Turn r (.wake g) r []
  | walked {w : Waiting Work} {page : Page} {walk : Walk} (live : r.desk.live? = .some w)
      (advance : w.work.walk.advance page = .inl walk) :
      Turn r (.reply w.ticket.generation (.ok page))
        { r with desk := r.desk.resume w.ticket.generation { w.work with walk } }
        [.asked w.ticket.generation walk.request]
  | loaded {w : Waiting Work} {page : Page} {records : List Record} (live : r.desk.live? = .some w)
      (advance : w.work.walk.advance page = .inr records) :
      Turn r (.reply w.ticket.generation (.ok page))
        (r.ended w (r.desk.slot.finish (r.putting w.work.span records)))
        [.finished w.ticket.generation (.ok ())]
  | failed {w : Waiting Work} {causes : List String} (live : r.desk.live? = .some w) :
      Turn r (.reply w.ticket.generation (.error causes))
        (r.ended w (r.desk.slot.finish (State.failed (Failure.of w.ticket (.store causes)))))
        [.finished w.ticket.generation (.error (.store causes))]
  /-- The end of a fetch that is not the live one. -/
  | dropped {w : Waiting Work} {event : Event}
      (found : r.desk.find? w.ticket.generation = .some w) (dead : ¬ r.desk.slot.IsLive w.ticket)
      (told : (∃ reply, event = .reply w.ticket.generation reply) ∨ event = .wake w.ticket.generation) :
      Turn r event (r.ended w (r.desk.settledSlot State.settled w)) [.finished w.ticket.generation (.error .cancelled)]
  | expired {g : Nat} : Turn r (.expire g) { r with desk := r.desk.expire g } []
  | cancelled : Turn r .cancel { r with desk := r.desk.cancel } []

theorem conclude_ok {r : Runs} {ticket : Ticket} (live : r.desk.slot.IsLive ticket) (span : Span)
    (records : List Record) :
    r.conclude ticket span (.ok records) =
      ({ r with desk := { r.desk.drop ticket.generation with slot := r.desk.slot.finish (r.putting span records) } },
        [.finished ticket.generation (.ok ())]) := by
  have put := Slot.conclude_live live (.ok records) (r.putting span)
    (fun e => State.failed (Failure.of ticket e)) State.settled
  exact congrArg (fun slot => ({ r with desk := { r.desk.drop ticket.generation with slot } }, _)) put

theorem conclude_store {r : Runs} {ticket : Ticket} (live : r.desk.slot.IsLive ticket) (span : Span)
    (causes : List String) :
    r.conclude ticket span (.error (.store causes)) =
      ({ r with desk := { r.desk.drop ticket.generation with
          slot := r.desk.slot.finish (State.failed (Failure.of ticket (.store causes))) } },
        [.finished ticket.generation (.error (.store causes))]) := by
  have put := Slot.conclude_live live (.error causes) (r.putting span)
    (fun e => State.failed (Failure.of ticket e)) State.settled
  exact congrArg (fun slot => ({ r with desk := { r.desk.drop ticket.generation with slot } }, _)) put

theorem fetch_none {r : Runs} {sources : List String} (span : Span)
    (query : Calendar.sourceFilter? r.config (sortedTexts sources) = none) :
    let issued := (r.turned (sortedTexts sources) span false).issue
    r.fetch sources span =
      ({ r with desk := { r.desk with slot := (issued.1.complete issued.2 (State.loaded [])).1 } },
        [.started issued.2.generation, .finished issued.2.generation (.ok ())]) := by
  simp only [fetch, query]
  rfl

theorem fetch_unpaged {r : Runs} {sources : List String} (span : Span) {filter : Filter}
    (query : Calendar.sourceFilter? r.config (sortedTexts sources) = some filter)
    (unpaged : r.config.maxPages = 0) :
    let issued := (r.turned (sortedTexts sources) span true).issue
    let asking : Runs := { r with desk := { r.desk with slot := issued.1 } }
    let ended := asking.conclude issued.2 span (issued.1.outcome issued.2 (.ok []))
    r.fetch sources span =
      (ended.1, [.started issued.2.generation] ++
        (r.deadline.map (Notice.alarm issued.2.generation)).toList ++ ended.2) := by
  have none : (Walk.start r.config filter).pagesLeft = 0 := by simp [Walk.start, unpaged]
  simp only [fetch, query, if_pos none]
  rfl

theorem fetch_turn (r : Runs) (sound : r.desk.Sound) (sources : List String) (span : Span) :
    Turn r (.fetch sources span) (r.fetch sources span).1 (r.fetch sources span).2 := by
  have live (loading : Bool) :
      (r.turned (sortedTexts sources) span loading).issue.1.IsLive
        (r.turned (sortedTexts sources) span loading).issue.2 :=
    (sound.with_slot (r.turned (sortedTexts sources) span loading) rfl rfl).issue_isLive
  cases query : Calendar.sourceFilter? r.config (sortedTexts sources) with
  | none =>
    have nothing : sources = [] := sortedTexts_eq_nil_iff.mp (Calendar.sourceFilter?_eq_none_iff.mp query)
    subst nothing
    simp only [fetch_none span query, Slot.complete_live (live false)]
    exact .emptied (.inl rfl)
  | some filter =>
    have some : sources ≠ [] := by
      rintro rfl
      cases query
    by_cases unpaged : r.config.maxPages = 0
    · let asking : Runs :=
        { r with desk := { r.desk with slot := (r.turned (sortedTexts sources) span true).issue.1 } }
      have fresh : (r.turned (sortedTexts sources) span true).issue.2.generation ∉
          asking.desk.generations := sound.fresh
      have nothing : asking.putting span [] = State.loaded [] := by
        rw [putting, Calendar.timed_nil]
      simp only [fetch_unpaged span query unpaged, Slot.outcome_live (live true), Slot.mapError_ok]
      rw [conclude_ok (r := asking) (live true), nothing,
        Desk.drop_of_notMem fresh]
      have turn : Turn r (.fetch sources span) (r.emptied sources span) _ := .emptied (.inr unpaged)
      rw [if_neg some] at turn
      exact turn
    · have left : (Walk.start r.config filter).pagesLeft ≠ 0 := by
        simpa [Walk.start, ← UInt32.toNat_inj] using unpaged
      simp only [fetch, query, if_neg left]
      exact .begun some query unpaged

theorem reply_turn (r : Runs) {w : Waiting Work} (found : r.desk.find? w.ticket.generation = some w)
    (reply : Reply Page) :
    Turn r (.reply w.ticket.generation reply) (r.reply w reply).1 (r.reply w reply).2 := by
  by_cases live : r.desk.slot.IsLive w.ticket
  · have one : r.desk.live? = some w := (Desk.live?_of_find? found).mpr live
    simp only [Runs.reply, Slot.outcome_live live]
    cases reply with
    | ok page =>
      simp only [Slot.mapError_ok]
      cases advance : w.work.walk.advance page with
      | inl walk => exact .walked one advance
      | inr records =>
        simp only [conclude_ok live]
        exact .loaded one advance
    | error causes =>
      simp only [Slot.mapError_error, conclude_store live]
      exact .failed one
  · simp only [Runs.reply, Slot.outcome_dead live, conclude, Slot.conclude_cancelled]
    exact .dropped found live (.inl ⟨reply, rfl⟩)

theorem handle_turn (r : Runs) (sound : r.desk.Sound) (event : Event) :
    Turn r event (r.handle event).1 (r.handle event).2 := by
  cases event with
  | fetch sources span => exact r.fetch_turn sound sources span
  | reply g reply =>
    cases found : r.desk.find? g with
    | none =>
      simp only [handle, found]
      exact .unheard found
    | some w =>
      obtain ⟨_, rfl⟩ := Desk.find?_some found
      simp only [handle, found]
      exact r.reply_turn found reply
  | wake g =>
    cases found : r.desk.find? g with
    | none =>
      simp only [handle, found]
      exact .asleep fun w other => by simp [found] at other
    | some w =>
      obtain ⟨_, rfl⟩ := Desk.find?_some found
      simp only [handle, found]
      cases cancelled : r.desk.slot.isCancelled w.ticket with
      | false =>
        simp only [Bool.false_eq_true, if_false]
        refine .asleep fun v other => ?_
        rw [found, Option.some.injEq] at other
        exact other ▸ cancelled
      | true =>
        simp only [if_true, conclude, Slot.conclude_cancelled]
        exact .dropped found (fun live => by simp [live.2] at cancelled) (.inr rfl)
  | expire g => exact .expired
  | cancel => exact .cancelled

section Consequences

variable {r after : Runs} {event : Event} {notices : List (Notice Nat Result)}

theorem Turn.settings (turn : Turn r event after notices) : after.config = r.config := by
  cases turn <;> rfl

theorem Turn.later (turn : Turn r event after notices) : Slot.Later r.desk.slot after.desk.slot := by
  cases turn with
  | emptied _ => exact ⟨Nat.le_succ _, List.subset_cons_self ..⟩
  | begun _ _ _ => exact ⟨Nat.le_succ _, List.subset_cons_self ..⟩
  | dropped _ _ _ => exact r.desk.settledSlot_later _ _
  | expired => exact r.desk.expire_later _
  | cancelled => exact ⟨Nat.le_refl _, List.subset_cons_self ..⟩
  | _ => exact ⟨Nat.le_refl _, List.Subset.refl _⟩

theorem Turn.sound (turn : Turn r event after notices) (sound : r.desk.Sound) : after.desk.Sound := by
  cases turn with
  | @emptied sources span _ =>
    exact (sound.with_slot (r.turned (sortedTexts sources) span false) rfl rfl).issue.with_slot _ rfl rfl
  | begun _ _ _ => exact (sound.with_slot (r.turned _ _ true) rfl rfl).await_issue _
  | unheard _ => exact sound
  | asleep _ => exact sound
  | walked _ _ => exact sound.resume _ _
  | loaded _ _ => exact sound.ended _ _ rfl rfl
  | failed _ => exact sound.ended _ _ rfl rfl
  | dropped _ _ _ => exact sound.settled _ _
  | expired => exact sound.expire _
  | cancelled => exact sound.cancel

theorem live?_emptied (sound : r.desk.Sound) (sources : List String) (span : Span) :
    (r.emptied sources span).desk.live? = none := by
  let turned := r.turned (sortedTexts sources) span false
  have asked : ({ r.desk with slot := turned.issue.1 } : Desk State Work).live? = none :=
    Desk.live?_issue (d := { r.desk with slot := turned }) (sound.with_slot turned rfl rfl)
  exact (Desk.live?_with_slot { r.desk with slot := turned.issue.1 } _ rfl rfl).trans asked

theorem live?_begun (sound : r.desk.Sound) (sources : List String) (span : Span) (filter : Filter) :
    (r.begun sources span filter).desk.live? =
      some ⟨⟨r.desk.slot.name, r.desk.slot.generation + 1⟩, ⟨Walk.start r.config filter, span⟩⟩ :=
  Desk.live?_await_issue (sound.with_slot (r.turned (sortedTexts sources) span true) rfl rfl) _

theorem live?_finished {w : Waiting Work} (live : r.desk.live? = some w) (change : State → State) :
    (r.ended w (r.desk.slot.finish change)).desk.live? = none :=
  Desk.live?_ended live _ rfl rfl

/-- What is settled keeps all but the sign that it is loading. -/
theorem settled_state (r : Runs) (w : Waiting Work) :
    (r.ended w (r.desk.settledSlot State.settled w)).state.settled = r.state.settled :=
  Desk.settledSlot_state State.settled State.settled (fun _ => rfl) r.desk w

/-- The end of an earlier fetch leaves the slot as it is. -/
theorem slot_ended_older {w : Waiting Work} (older : w.ticket.generation ≠ r.desk.slot.generation) :
    (r.ended w (r.desk.settledSlot State.settled w)).desk.slot = r.desk.slot :=
  if_neg fun current => older (Slot.isCurrent_iff.mp current).symm

/-- Only a fetch changes the sources. -/
theorem Turn.sources (turn : Turn r event after notices) (other : ∀ sources span, event ≠ .fetch sources span) :
    after.state.sources = r.state.sources := by
  cases turn with
  | emptied _ => exact absurd rfl (other _ _)
  | begun _ _ _ => exact absurd rfl (other _ _)
  | @dropped w _ _ _ _ =>
    have same := r.settled_state w
    exact (congrArg State.sources same :)
  | @expired g => exact congrArg State.sources (r.desk.expire_frame g).1
  | _ => rfl

end Consequences

end Runs

namespace Calendar

theorem hearRuns_runs (notices : List (Notice Nat Runs.Result)) (c : Calendar) :
    (hearRuns notices c).1.runs = c.runs := by
  induction notices generalizing c with
  | nil => rfl
  | cons notice rest ih => cases notice <;> exact ih _

theorem hearNames_runs (notices : List (Notice Nat Names.Result)) (c : Calendar) :
    (hearNames notices c).1.runs = c.runs := by
  induction notices generalizing c with
  | nil => rfl
  | cons notice rest ih => cases notice <;> exact ih _

/-- What the runs say is passed on but for their own calls. -/
theorem hearRuns_passing (notices : List (Notice Nat Runs.Result)) (c : Calendar) :
    ∀ n ∈ (hearRuns notices c).2, n.Passing := by
  induction notices generalizing c with
  | nil => exact fun _ none => (List.not_mem_nil none).elim
  | cons notice rest ih =>
    cases notice with
    | alarm call milliseconds => exact List.forall_mem_cons.mpr ⟨trivial, ih c⟩
    | asked key request => exact List.forall_mem_cons.mpr ⟨trivial, ih c⟩
    | _ => exact ih _

theorem hearNames_passing (notices : List (Notice Nat Names.Result)) (c : Calendar) :
    ∀ n ∈ (hearNames notices c).2, n.Passing := by
  induction notices generalizing c with
  | nil => exact fun _ none => (List.not_mem_nil none).elim
  | cons notice rest ih =>
    cases notice with
    | asked key request => exact List.forall_mem_cons.mpr ⟨trivial, ih c⟩
    | _ => exact ih _

theorem hearRuns_calls (notices : List (Notice Nat Runs.Result)) (c : Calendar) :
    Notice.calls (hearRuns notices c).2 = [] :=
  Notice.calls_passing (hearRuns_passing notices c)

theorem hearNames_calls (notices : List (Notice Nat Names.Result)) (c : Calendar) :
    Notice.calls (hearNames notices c).2 = [] :=
  Notice.calls_passing (hearNames_passing notices c)

theorem release_calls (c : Calendar) : Notice.calls c.release.2 = [] := by
  rw [Notice.calls, release, List.filterMap_filterMap, List.filterMap_eq_nil_iff]
  intro j _
  cases j.done? <;> rfl

/-- What an event of a calendar is for its runs. -/
def heard? (c : Calendar) : Event → Option Runs.Event
  | .fetch sources span => some (.fetch sources span)
  | .reload => c.state.span.map (.fetch c.state.sources)
  | .reply (.runs g) reply => some (.reply g reply)
  | .reply (.names _) _ => none
  | .wake (.runs g) => some (.wake g)
  | .wake (.names _) => none
  | .expire g => some (.expire g)
  | .cancel => some .cancel

section Handling

variable (c : Calendar)

@[simp] theorem afterRuns_runs (told : Runs × List (Notice Nat Runs.Result)) :
    (c.afterRuns told).1.runs = told.1 :=
  hearRuns_runs ..

@[simp] theorem afterNames_runs (told : Names × List (Notice Nat Names.Result)) :
    (c.afterNames told).1.runs = c.runs :=
  hearNames_runs ..

@[simp] theorem afterRuns_calls (told : Runs × List (Notice Nat Runs.Result)) :
    Notice.calls (c.afterRuns told).2 = [] := by
  rw [afterRuns, Notice.calls_append, hearRuns_calls, release_calls]
  rfl

@[simp] theorem afterNames_calls (told : Names × List (Notice Nat Names.Result)) :
    Notice.calls (c.afterNames told).2 = [] := by
  rw [afterNames, Notice.calls_append, hearNames_calls, release_calls]
  rfl

variable (sources : List String) (span : Span) (load : Names → Names × List (Notice Nat Names.Result))

@[simp] theorem begin_runs : (c.begin sources span load).1.runs = (c.runs.fetch sources span).1 :=
  (hearNames_runs ..).trans (hearRuns_runs ..)

@[simp] theorem begin_calls :
    Notice.calls (c.begin sources span load).2 = [(c.runs.fetch sources span).1.desk.slot.generation] := by
  simp only [begin, Notice.calls_append, Notice.calls_started, hearRuns_calls, hearNames_calls,
    release_calls, List.append_nil]

theorem handle_runs (event : Event) :
    (c.handle event).1.runs = (c.heard? event).elim c.runs fun heard => (c.runs.handle heard).1 := by
  match event with
  | .fetch sources span => exact c.begin_runs ..
  | .reload =>
    simp only [handle, reload, heard?]
    cases c.state.span with
    | none => rfl
    | some span => exact c.begin_runs ..
  | .reply (.runs g) reply => exact c.afterRuns_runs _
  | .reply (.names g) reply => exact c.afterNames_runs _
  | .wake (.runs g) => exact c.afterRuns_runs _
  | .wake (.names g) => exact c.afterNames_runs _
  | .expire g => exact c.afterRuns_runs _
  | .cancel => exact c.afterRuns_runs _

variable {c}

theorem handle_sound (sound : c.runs.desk.Sound) (event : Event) : (c.handle event).1.runs.desk.Sound := by
  rw [handle_runs]
  cases c.heard? event with
  | none => exact sound
  | some heard => exact (c.runs.handle_turn sound heard).sound sound

theorem handle_settings (sound : c.runs.desk.Sound) (event : Event) :
    (c.handle event).1.runs.config = c.runs.config := by
  rw [handle_runs]
  cases c.heard? event with
  | none => rfl
  | some heard => exact (c.runs.handle_turn sound heard).settings

theorem handle_later (sound : c.runs.desk.Sound) (event : Event) :
    Slot.Later c.runs.desk.slot (c.handle event).1.runs.desk.slot := by
  rw [handle_runs]
  cases c.heard? event with
  | none => exact .refl _
  | some heard => exact (c.runs.handle_turn sound heard).later

theorem run_concat (c : Calendar) (events : List Event) (event : Event) :
    controller.run c (events ++ [event]) =
      (((controller.run c events).1.handle event).1,
        (controller.run c events).2 ++ ((controller.run c events).1.handle event).2) :=
  Controller.run_concat ..

theorem run_sound (config : CalendarConfig) (deadline : Option Nat) (events : List Event) :
    (controller.run (new config deadline) events).1.runs.desk.Sound :=
  controller.run_keeps (P := fun c => c.runs.desk.Sound) (fun _ event sound => handle_sound sound event)
    (Desk.new_sound ..) events

theorem run_settings (config : CalendarConfig) (deadline : Option Nat) (events : List Event) :
    (controller.run (new config deadline) events).1.runs.config = config :=
  (controller.run_keeps (P := fun c => c.runs.desk.Sound ∧ c.runs.config = config)
    (fun _ event ⟨sound, same⟩ => ⟨handle_sound sound event, (handle_settings sound event).trans same⟩)
    ⟨Desk.new_sound .., rfl⟩ events).2

theorem run_later (sound : c.runs.desk.Sound) (events : List Event) :
    Slot.Later c.runs.desk.slot (controller.run c events).1.runs.desk.slot := by
  induction events generalizing c with
  | nil => exact .refl _
  | cons event rest ih => exact (handle_later sound event).trans (ih (handle_sound sound event))

end Handling

end Calendar

end RunQuery
