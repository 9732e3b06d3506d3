import RunQuery.Proofs.Calendar.Turn
import RunQuery.Proofs.Names.Turn

/-!
The calls of a calendar that wait for their fetch, for a load of names, or for both. Each event is told to the
runs and to the names, the calls that this starts are joined, what has ended is noted, and the calls of which
nothing is outstanding are let go. So there is always a call that waits for a fetch or a load on its way.
-/
namespace RunQuery

namespace Runs

/-- The runs show whether they are loading; if they are, there are sources. -/
def Sign (slot : Slot State) (up : Bool) : Prop :=
  slot.state.loading = up ∧ (up = true → slot.state.sources ≠ [])

variable {r after : Runs} {event : Event} {notices : List (Notice Nat Result)}

theorem Turn.step (turn : Turn r event after notices) : r.desk.Step Sign after.desk notices := by
  have down {change : State → State} (off : (change r.state).loading = false) :
      Sign (r.desk.slot.finish change) false :=
    ⟨off, fun on => absurd on Bool.false_ne_true⟩
  cases turn with
  | @emptied sources span _ =>
    refine .passed rfl rfl ⟨rfl, fun on => absurd on Bool.false_ne_true⟩ ?_ ?_ <;>
      cases (if sources = [] then none else r.deadline) <;> rfl
  | begun some _ _ =>
    refine .begun rfl (Desk.generations_await ..) ⟨rfl, fun _ => mt sortedTexts_eq_nil_iff.mp some⟩ ?_ ?_ <;>
      cases r.deadline <;> rfl
  | walked _ _ => exact .kept rfl (Desk.generations_resume ..) (fun _ shown => shown) rfl rfl
  | loaded live _ => exact .finished live (down rfl) _
  | failed live => exact .finished live (down rfl) _
  | dropped found _ _ => exact .dropped found (down rfl) _
  | @expired g =>
    obtain ⟨state, generation, _, waiting⟩ := r.desk.expire_frame g
    exact .kept generation (congrArg (List.map _) waiting) (fun up shown => by rwa [Sign, state]) rfl rfl
  | _ => exact .kept rfl rfl (fun _ shown => shown) rfl rfl

/-- Only a fetch starts a call. -/
theorem Turn.calls (turn : Turn r event after notices)
    (other : ∀ sources span, event ≠ .fetch sources span) : Notice.calls notices = [] := by
  cases turn with
  | emptied _ => exact absurd rfl (other _ _)
  | begun _ _ _ => exact absurd rfl (other _ _)
  | _ => rfl

theorem Turn.calls_fetch (turn : Turn r event after notices) {sources : List String} {span : Span}
    (fetch : event = .fetch sources span) : Notice.calls notices = [after.desk.slot.generation] := by
  cases turn with
  | @emptied sources span _ => cases (if sources = [] then none else r.deadline) <;> rfl
  | begun _ _ _ => cases r.deadline <;> rfl
  | dropped _ _ told => rcases told with ⟨_, rfl⟩ | rfl <;> cases fetch
  | _ => cases fetch

end Runs

namespace Names

/-- Only loads start a call. -/
theorem Turn.calls {n after : Names} {event : Event} {notices : List (Notice Nat Result)}
    (turn : Turn n event after notices) (other : event ≠ .ensure ∧ event ≠ .refresh) :
    Notice.calls notices = [] := by
  cases turn with
  | asked asks => rcases asks with rfl | ⟨rfl, _⟩ <;> simp at other
  | _ => rfl

end Names

namespace Calendar

theorem hearRuns_outcomes (notices : List (Notice Nat Runs.Result)) (c : Calendar) :
    Notice.outcomes (hearRuns notices c).2 = [] :=
  Notice.outcomes_passing (hearRuns_passing notices c)

theorem hearNames_outcomes (notices : List (Notice Nat Names.Result)) (c : Calendar) :
    Notice.outcomes (hearNames notices c).2 = [] :=
  Notice.outcomes_passing (hearNames_passing notices c)

namespace Joined

def noteFetch (j : Joined) (done : Nat × Runs.Result) : Joined :=
  if j.call = done.1 then { j with result := some done.2 } else j

def noteLoad (j : Joined) (load : Nat) : Joined :=
  if j.listing = some load then { j with listing := none } else j

/-- A call when its calendar has heard what the runs and the names say. -/
def heard (fetched : List (Notice Nat Runs.Result)) (listed : List (Notice Nat Names.Result)) (j : Joined) :
    Joined :=
  (Notice.ended listed).foldl noteLoad ((Notice.outcomes fetched).foldl noteFetch j)

theorem foldl_noteFetch (outcomes : List (Nat × Runs.Result)) (j : Joined) :
    (outcomes.foldl noteFetch j).call = j.call ∧ (outcomes.foldl noteFetch j).listing = j.listing ∧
    (j.result = none → j.call ∉ outcomes.map Prod.fst → (outcomes.foldl noteFetch j).result = none) := by
  induction outcomes generalizing j with
  | nil => exact ⟨rfl, rfl, fun none _ => none⟩
  | cons done rest ih =>
    obtain ⟨call, listing, result⟩ := ih (j.noteFetch done)
    have kept : (j.noteFetch done).call = j.call ∧ (j.noteFetch done).listing = j.listing := by
      unfold noteFetch
      split <;> exact ⟨rfl, rfl⟩
    refine ⟨call.trans kept.1, listing.trans kept.2, fun none other => ?_⟩
    rw [List.map_cons, List.mem_cons, not_or] at other
    have same : j.noteFetch done = j := if_neg other.1
    rw [same] at result
    rw [List.foldl_cons, same]
    exact result none other.2

theorem foldl_noteLoad (loads : List Nat) (j : Joined) :
    (loads.foldl noteLoad j).call = j.call ∧ (loads.foldl noteLoad j).result = j.result ∧
    (∀ load, j.listing = some load → load ∉ loads → (loads.foldl noteLoad j).listing = some load) := by
  induction loads generalizing j with
  | nil => exact ⟨rfl, rfl, fun _ waits _ => waits⟩
  | cons done rest ih =>
    obtain ⟨call, result, listing⟩ := ih (j.noteLoad done)
    have kept : (j.noteLoad done).call = j.call ∧ (j.noteLoad done).result = j.result := by
      unfold noteLoad
      split <;> exact ⟨rfl, rfl⟩
    refine ⟨call.trans kept.1, result.trans kept.2, fun load waits other => ?_⟩
    rw [List.mem_cons, not_or] at other
    have same : j.noteLoad done = j := if_neg fun ended => other.1 (Option.some.inj (waits.symm.trans ended))
    rw [same] at listing
    rw [List.foldl_cons, same]
    exact listing load waits other.2

section Heard

variable (fetched : List (Notice Nat Runs.Result)) (listed : List (Notice Nat Names.Result)) (j : Joined)

@[simp] theorem heard_call : (j.heard fetched listed).call = j.call :=
  (foldl_noteLoad ..).1.trans (foldl_noteFetch ..).1

variable {fetched listed j}

theorem heard_result (waits : j.result = none) (other : j.call ∉ Notice.ended fetched) :
    (j.heard fetched listed).result = none :=
  (foldl_noteLoad ..).2.1.trans ((foldl_noteFetch ..).2.2 waits other)

theorem heard_listing {load : Nat} (waits : j.listing = some load) (other : load ∉ Notice.ended listed) :
    (j.heard fetched listed).listing = some load :=
  (foldl_noteLoad ..).2.2 load ((foldl_noteFetch ..).2.1.trans waits) other

end Heard

theorem done?_of_result {j : Joined} (waits : j.result = none) : j.done? = none := by
  simp [done?, waits]

theorem done?_of_listing {j : Joined} {load : Nat} (waits : j.listing = some load) : j.done? = none := by
  simp [done?, waits]

end Joined

theorem hearRuns_joined (notices : List (Notice Nat Runs.Result)) (c : Calendar) :
    (hearRuns notices c).1 = { c with joined := c.joined.map (Joined.heard notices []) } := by
  induction notices generalizing c with
  | nil =>
    have same : Joined.heard [] [] = id := rfl
    simp [hearRuns, same]
  | cons notice rest ih =>
    cases notice with
    | finished call result =>
      simp only [hearRuns, ih, List.map_map]
      rfl
    | _ => exact ih c

theorem hearNames_joined (notices : List (Notice Nat Names.Result)) (c : Calendar) :
    (hearNames notices c).1 = { c with joined := c.joined.map (Joined.heard [] notices) } := by
  induction notices generalizing c with
  | nil =>
    have same : Joined.heard [] [] = id := rfl
    simp [hearNames, same]
  | cons notice rest ih =>
    cases notice with
    | finished load result =>
      simp only [hearNames, ih, List.map_map]
      rfl
    | _ => exact ih c

theorem startedLoad?_eq (notices : List (Notice Nat Names.Result)) :
    startedLoad? notices = (Notice.calls notices).head? := by
  induction notices with
  | nil => rfl
  | cons notice rest ih => cases notice <;> first | rfl | exact ih

section Release

variable (c : Calendar)

theorem mem_release {j : Joined} (member : j ∈ c.joined) (waits : j.done? = none) :
    j ∈ c.release.1.joined :=
  List.mem_filter.mpr ⟨member, by simp [waits]⟩

/-- Every call is let go or kept. -/
theorem release_perm :
    (c.joined.map Joined.call).Perm (Notice.ended c.release.2 ++ c.release.1.joined.map Joined.call) := by
  obtain ⟨runs, names, joined⟩ := c
  induction joined with
  | nil => exact .nil
  | cons j rest ih =>
    cases done : j.done? with
    | none =>
      have kept := (ih.cons j.call).trans List.perm_middle.symm
      simpa [release, done] using kept
    | some result =>
      have gone := ih.cons j.call
      simpa [release, done, Notice.ended, Notice.outcomes, Notice.finished?] using gone

end Release

/-- What an event of a calendar is for its names. -/
def named? (c : Calendar) : Event → Option Names.Event
  | .fetch sources _ => if sources.isEmpty then none else some .ensure
  | .reload => c.state.span.map fun _ => .refresh
  | .reply (.names g) reply => some (.reply g reply)
  | .wake (.names g) => some (.wake g)
  | _ => none

/-- The runs after an event, and what they say. -/
def fetched (c : Calendar) (event : Event) : Runs × List (Notice Nat Runs.Result) :=
  (c.heard? event).elim (c.runs, []) c.runs.handle

/-- The names after an event, and what they say. -/
def listed (c : Calendar) (event : Event) : Names × List (Notice Nat Names.Result) :=
  (c.named? event).elim (c.names, []) c.names.handle

/-- The calls that an event starts. -/
def opened (c : Calendar) (event : Event) : List Joined :=
  (Notice.calls (c.fetched event).2).map fun call => ⟨call, none, (Notice.calls (c.listed event).2).head?⟩

/-- The calendar when an event was told to the runs and the names, before it lets calls go. -/
def joining (c : Calendar) (event : Event) : Calendar :=
  ⟨(c.fetched event).1, (c.listed event).1,
    (c.joined ++ c.opened event).map (Joined.heard (c.fetched event).2 (c.listed event).2)⟩

/-- How a calendar handles an event by its parts. -/
structure Handled (c : Calendar) (event : Event) : Prop where
  state : (c.handle event).1 = (c.joining event).release.1
  calls : Notice.calls (c.handle event).2 = Notice.calls (c.fetched event).2
  outcomes : Notice.outcomes (c.handle event).2 = Notice.outcomes (c.joining event).release.2
  loads : Notice.calls (c.fetched event).2 = [] → Notice.calls (c.listed event).2 = []

theorem Handled.ended {c : Calendar} {event : Event} (handled : Handled c event) :
    Notice.ended (c.handle event).2 = Notice.ended (c.joining event).release.2 :=
  congrArg (List.map Prod.fst) handled.outcomes

section Handling

variable {c : Calendar}

theorem afterRuns_handled {event : Event} {heard : Runs.Event} (sound : c.runs.desk.Sound)
    (handle : c.handle event = c.afterRuns (c.runs.handle heard))
    (fetched : c.fetched event = c.runs.handle heard) (listed : c.listed event = (c.names, []))
    (other : ∀ sources span, heard ≠ .fetch sources span) : Handled c event := by
  have calls := (c.runs.handle_turn sound heard).calls other
  have same : (hearRuns (c.fetched event).2 { c with runs := (c.fetched event).1 }).1 = c.joining event := by
    simp [hearRuns_joined, joining, opened, fetched, calls, listed]
  refine ⟨?_, ?_, ?_, fun _ => by rw [listed]; rfl⟩
  · rw [handle, ← fetched, ← same]
    rfl
  · rw [handle, afterRuns_calls, fetched, calls]
  · rw [handle, ← fetched, ← same, afterRuns, Notice.outcomes_append, hearRuns_outcomes]
    rfl

theorem afterNames_handled {event : Event} {heard : Names.Event}
    (handle : c.handle event = c.afterNames (c.names.handle heard))
    (fetched : c.fetched event = (c.runs, [])) (listed : c.listed event = c.names.handle heard)
    (other : heard ≠ .ensure ∧ heard ≠ .refresh) : Handled c event := by
  have calls := (c.names.handle_turn heard).calls other
  have none : c.opened event = [] := by
    rw [opened, fetched]
    rfl
  have same : (hearNames (c.listed event).2 { c with names := (c.listed event).1 }).1 = c.joining event := by
    simp [hearNames_joined, joining, none, fetched]
  refine ⟨?_, ?_, ?_, fun _ => by rw [listed, calls]⟩
  · rw [handle, ← listed, ← same]
    rfl
  · rw [handle, afterNames_calls, fetched]
    rfl
  · rw [handle, ← listed, ← same, afterNames, Notice.outcomes_append, hearNames_outcomes]
    rfl

theorem begin_handled (sound : c.runs.desk.Sound) {event : Event} {sources : List String} {span : Span}
    (load : Names → Names × List (Notice Nat Names.Result))
    (handle : c.handle event = c.begin sources span load)
    (fetched : c.fetched event = c.runs.fetch sources span) (listed : c.listed event = load c.names) :
    Handled c event := by
  have calls : Notice.calls (c.fetched event).2 = [(c.fetched event).1.desk.slot.generation] := by
    rw [fetched]
    exact (c.runs.handle_turn sound (.fetch sources span)).calls_fetch rfl
  have opened : c.opened event =
      [⟨(c.fetched event).1.desk.slot.generation, none, startedLoad? (c.listed event).2⟩] := by
    rw [Calendar.opened, calls, startedLoad?_eq]
    rfl
  let calling : Calendar := ⟨(c.fetched event).1, (c.listed event).1, c.joined ++ c.opened event⟩
  have begun : c.begin sources span load =
      let heard := hearRuns (c.fetched event).2 calling
      let named := hearNames (c.listed event).2 heard.1
      (named.1.release.1, .started (c.fetched event).1.desk.slot.generation :: heard.2 ++ named.2 ++
        named.1.release.2) := by
    simp only [begin, calling, opened, fetched, listed]
  have same : (hearNames (c.listed event).2 (hearRuns (c.fetched event).2 calling).1).1 = c.joining event := by
    rw [hearRuns_joined, hearNames_joined, List.map_map]
    rfl
  rw [begun] at handle
  simp only [same] at handle
  refine ⟨?_, ?_, ?_, fun none => by simp [calls] at none⟩
  · rw [handle]
  · rw [handle, calls]
    simp [hearRuns_calls, hearNames_calls, release_calls]
  · rw [handle]
    simp [hearRuns_outcomes, hearNames_outcomes]

/-- Each event but an idle reload is handled by its parts. -/
theorem handle_handled (sound : c.runs.desk.Sound) (event : Event) :
    Handled c event ∨
      c.handle event = (c, [.answered (.ok ())]) ∧ c.fetched event = (c.runs, []) ∧
      c.listed event = (c.names, []) := by
  match event with
  | .fetch sources span =>
    let load (names : Names) := if sources.isEmpty then (names, []) else names.ensure
    refine .inl (begin_handled sound load rfl rfl ?_)
    simp only [listed, named?, load]
    split <;> rfl
  | .reload =>
    cases span : c.state.span with
    | none =>
      refine .inr ⟨?_, ?_, ?_⟩
      · simp only [handle, reload, span]
      · simp [fetched, heard?, span]
      · simp [listed, named?, span]
    | some last =>
      have begun : c.handle .reload = c.begin c.state.sources last Names.refresh := by
        simp only [handle, reload, span]
      have asked : c.fetched .reload = c.runs.fetch c.state.sources last := by
        simp only [fetched, heard?, span]
        rfl
      refine .inl (begin_handled sound Names.refresh begun asked ?_)
      simp only [listed, named?, span]
      rfl
  | .reply (.runs g) reply => exact .inl (afterRuns_handled sound rfl rfl rfl (by simp))
  | .reply (.names g) reply => exact .inl (afterNames_handled rfl rfl rfl (by simp))
  | .wake (.runs g) => exact .inl (afterRuns_handled sound rfl rfl rfl (by simp))
  | .wake (.names g) => exact .inl (afterNames_handled rfl rfl rfl (by simp))
  | .expire g => exact .inl (afterRuns_handled sound rfl rfl rfl (by simp))
  | .cancel => exact .inl (afterRuns_handled sound rfl rfl rfl (by simp))

theorem handle_fetched (c : Calendar) (event : Event) : (c.handle event).1.runs = (c.fetched event).1 := by
  rw [handle_runs, fetched]
  cases c.heard? event <;> rfl

theorem fetched_step (sound : c.runs.desk.Sound) (event : Event) :
    c.runs.desk.Step Runs.Sign (c.fetched event).1.desk (c.fetched event).2 := by
  unfold fetched
  cases c.heard? event with
  | none => exact .kept rfl rfl (fun _ shown => shown) rfl rfl
  | some heard => exact (c.runs.handle_turn sound heard).step

theorem fetched_sound (sound : c.runs.desk.Sound) (event : Event) : (c.fetched event).1.desk.Sound := by
  unfold fetched
  cases c.heard? event with
  | none => exact sound
  | some heard => exact (c.runs.handle_turn sound heard).sound sound

theorem listed_step (c : Calendar) (event : Event) :
    c.names.desk.Step Names.Sign (c.listed event).1.desk (c.listed event).2 := by
  unfold listed
  cases c.named? event with
  | none => exact .kept rfl rfl (fun _ shown => shown) rfl rfl
  | some heard => exact (c.names.handle_turn heard).step

theorem listed_sound (sound : c.names.desk.Sound) (event : Event) : (c.listed event).1.desk.Sound := by
  unfold listed
  cases c.named? event with
  | none => exact sound
  | some heard => exact (c.names.handle_turn heard).sound sound

/-- Every call, a new one too, is let go or kept. -/
theorem joining_perm (c : Calendar) (event : Event) :
    (c.joined.map Joined.call ++ Notice.calls (c.fetched event).2).Perm
      (Notice.ended (c.joining event).release.2 ++ (c.joining event).release.1.joined.map Joined.call) := by
  have joined : (c.joining event).joined.map Joined.call =
      c.joined.map Joined.call ++ Notice.calls (c.fetched event).2 := by
    simp [joining, opened, Function.comp_def]
  exact joined ▸ (c.joining event).release_perm

/-- A call that waits for a fetch goes on waiting, unless the fetch ends. -/
theorem joining_fetch {event : Event} {j : Joined} (member : j ∈ c.joined ++ c.opened event)
    (waits : j.result = none) (other : j.call ∉ Notice.ended (c.fetched event).2) :
    ∃ k ∈ (c.joining event).release.1.joined, k.call = j.call ∧ k.result = none := by
  have still : (j.heard (c.fetched event).2 (c.listed event).2).result = none :=
    Joined.heard_result waits other
  exact ⟨_, mem_release _ (List.mem_map_of_mem member) (Joined.done?_of_result still),
    Joined.heard_call .., still⟩

theorem joining_load {event : Event} {j : Joined} {load : Nat} (member : j ∈ c.joined ++ c.opened event)
    (waits : j.listing = some load) (other : load ∉ Notice.ended (c.listed event).2) :
    ∃ k ∈ (c.joining event).release.1.joined, k.listing = some load := by
  have still : (j.heard (c.fetched event).2 (c.listed event).2).listing = some load :=
    Joined.heard_listing waits other
  exact ⟨_, mem_release _ (List.mem_map_of_mem member) (Joined.done?_of_listing still), still⟩

end Handling

/-- What is known of a calendar and of all that was said: by itself, by its runs and by its names. -/
structure Books (c : Calendar) (said : Notices) (fetched : List (Notice Nat Runs.Result))
    (listed : List (Notice Nat Names.Result)) : Prop where
  runsSound : c.runs.desk.Sound
  runs : c.runs.desk.Accounts Runs.Sign fetched
  namesSound : c.names.desk.Sound
  names : c.names.desk.Accounts Names.Sign listed
  calls : Notice.calls said = Notice.calls fetched
  settled : (Notice.calls said).Perm (Notice.ended said ++ c.joined.map Joined.call)
  fetches : ∀ g ∈ c.runs.desk.generations, ∃ j ∈ c.joined, j.call = g ∧ j.result = none
  loads : ∀ g ∈ c.names.desk.generations, ∃ j ∈ c.joined, j.listing = some g

section Books

variable {c : Calendar} {said : Notices} {fetched : List (Notice Nat Runs.Result)}
  {listed : List (Notice Nat Names.Result)}

theorem Books.handled (books : Books c said fetched listed) {event : Event} (handled : Handled c event) :
    Books (c.handle event).1 (said ++ (c.handle event).2) (fetched ++ (c.fetched event).2)
      (listed ++ (c.listed event).2) := by
  have fetching := fetched_step books.runsSound event
  have listing := c.listed_step event
  rw [handled.state]
  refine ⟨fetched_sound books.runsSound event, fetching.accounts books.runsSound books.runs,
    listed_sound books.namesSound event, listing.accounts books.namesSound books.names, ?_, ?_, ?_, ?_⟩
  · rw [Notice.calls_append, Notice.calls_append, books.calls, handled.calls]
  · rw [Notice.calls_append, Notice.ended_append, handled.calls, handled.ended, List.append_assoc]
    have grown := books.settled.append_right (Notice.calls (c.fetched event).2)
    rw [List.append_assoc] at grown
    exact grown.trans ((c.joining_perm event).append_left _)
  · intro g waits
    obtain ⟨other, before | started⟩ := fetching.waits books.runsSound waits
    · obtain ⟨j, member, rfl, unfinished⟩ := books.fetches g before
      exact joining_fetch (List.mem_append_left _ member) unfinished other
    · exact joining_fetch (List.mem_append_right _ (List.mem_map_of_mem started)) rfl other
  · intro g waits
    obtain ⟨other, before | started⟩ := listing.waits books.namesSound waits
    · obtain ⟨j, member, outstanding⟩ := books.loads g before
      exact joining_load (List.mem_append_left _ member) outstanding other
    · -- a load is started only beside a fetch, whose call waits for it
      have one := listing.calls_eq started
      obtain ⟨call, also⟩ := List.exists_mem_of_ne_nil _ fun none => by
        simp [handled.loads none] at started
      refine joining_load (List.mem_append_right _ (List.mem_map_of_mem also)) ?_ other
      rw [one]
      rfl

theorem Books.handle (books : Books c said fetched listed) (event : Event) :
    Books (c.handle event).1 (said ++ (c.handle event).2) (fetched ++ (c.fetched event).2)
      (listed ++ (c.listed event).2) := by
  rcases handle_handled books.runsSound event with handled | ⟨handle, fetch, list⟩
  · exact books.handled handled
  · have calls : Notice.calls (said ++ [.answered (.ok ())]) = Notice.calls said :=
      (Notice.calls_append ..).trans (List.append_nil _)
    have ended : Notice.ended (said ++ [.answered (.ok ())]) = Notice.ended said :=
      (Notice.ended_append ..).trans (List.append_nil _)
    rw [handle, fetch, list, List.append_nil, List.append_nil]
    exact ⟨books.runsSound, books.runs, books.namesSound, books.names, calls.trans books.calls,
      by rw [calls, ended]; exact books.settled, books.fetches, books.loads⟩

/-- A call that is joined is pending. -/
theorem Books.pending (books : Books c said fetched listed) {j : Joined} (member : j ∈ c.joined) :
    Notice.Pending said j.call := by
  have unique : (Notice.calls said).Nodup := books.calls ▸ books.runs.unique
  exact (Notice.pending_iff unique books.settled).mpr (List.mem_map_of_mem member)

end Books

/-- All that the runs of a calendar say while it handles events. -/
def saidByRuns (c : Calendar) : List Event → List (Notice Nat Runs.Result) :=
  controller.collect (fun c event => (c.fetched event).2) c

def saidByNames (c : Calendar) : List Event → List (Notice Nat Names.Result) :=
  controller.collect (fun c event => (c.listed event).2) c

theorem run_books (config : CalendarConfig) (deadline : Option Nat) (events : List Event) :
    let begun := new config deadline
    let told := controller.run begun events
    Books told.1 told.2 (begun.saidByRuns events) (begun.saidByNames events) := by
  intro begun told
  induction events using List.reverseRecOn with
  | nil =>
    exact ⟨Desk.new_sound .., Desk.new_accounts _ ⟨rfl, fun on => absurd on Bool.false_ne_true⟩,
      Desk.new_sound .., Desk.new_accounts _ (Names.sign_new _), rfl, .nil,
      fun _ member => (List.not_mem_nil member).elim, fun _ member => (List.not_mem_nil member).elim⟩
  | append_singleton events event ih =>
    have next := ih.handle event
    simp only [told, run_concat, saidByRuns, saidByNames, Controller.collect_concat]
    exact next

end Calendar

end RunQuery
