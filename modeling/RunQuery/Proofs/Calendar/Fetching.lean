import RunQuery.Proofs.Calendar.Trail
import RunQuery.Proofs.Calendar.Verdict

/-!
A fetch and its walk. From the event that begins it a fetch makes the requests of its walk and shows what the walk
came to, whatever else happens to the calendar that does not drop the fetch.
-/
namespace RunQuery

namespace Notice

variable {κ ρ : Type} [DecidableEq κ]

/-- The requests that are made under one key, the first one first. -/
def requestsFor (key : κ) (notices : List (Notice κ ρ)) : List Request :=
  (requests notices).filterMap fun asked => if asked.1 = key then some asked.2 else none

@[simp] theorem requestsFor_append (key : κ) (early late : List (Notice κ ρ)) :
    requestsFor key (early ++ late) = requestsFor key early ++ requestsFor key late := by
  simp [requestsFor]

theorem requestsFor_asked (key : κ) (request : Request) :
    requestsFor key [(.asked key request : Notice κ ρ)] = [request] :=
  List.filterMap_cons_some (if_pos rfl)

end Notice

namespace Calendar

theorem hearRuns_requests (notices : List (Notice Nat Runs.Result)) (c : Calendar) :
    Notice.requests (hearRuns notices c).2 = (Notice.requests notices).map fun asked => (.runs asked.1, asked.2) := by
  induction notices generalizing c with
  | nil => rfl
  | cons notice rest ih =>
    cases notice with
    | asked key request => exact congrArg ((.runs key, request) :: ·) (ih c)
    | _ => exact ih _

theorem hearNames_requests (notices : List (Notice Nat Names.Result)) (c : Calendar) :
    Notice.requests (hearNames notices c).2 =
      (Notice.requests notices).map fun asked => (.names asked.1, asked.2) := by
  induction notices generalizing c with
  | nil => rfl
  | cons notice rest ih =>
    cases notice with
    | asked key request => exact congrArg ((.names key, request) :: ·) (ih c)
    | _ => exact ih _

theorem release_requests (c : Calendar) : Notice.requests c.release.2 = [] := by
  rw [Notice.requests, release, List.filterMap_filterMap, List.filterMap_eq_nil_iff]
  intro j _
  cases j.done? <;> rfl

section Requests

variable (c : Calendar)

theorem afterRuns_requests (told : Runs × List (Notice Nat Runs.Result)) :
    Notice.requests (c.afterRuns told).2 = (Notice.requests told.2).map fun asked => (.runs asked.1, asked.2) := by
  rw [afterRuns, Notice.requests_append, hearRuns_requests, release_requests, List.append_nil]

theorem afterNames_requests (told : Names × List (Notice Nat Names.Result)) :
    Notice.requests (c.afterNames told).2 = (Notice.requests told.2).map fun asked => (.names asked.1, asked.2) := by
  rw [afterNames, Notice.requests_append, hearNames_requests, release_requests, List.append_nil]

theorem begin_requests (sources : List String) (span : Span) (load : Names → Names × List (Notice Nat Names.Result)) :
    Notice.requests (c.begin sources span load).2 =
      (Notice.requests (c.runs.fetch sources span).2).map (fun asked => (.runs asked.1, asked.2)) ++
      (Notice.requests (load c.names).2).map fun asked => (.names asked.1, asked.2) := by
  rw [begin, Notice.requests_append, release_requests, List.append_nil, Notice.requests_append, hearNames_requests,
    ← hearRuns_requests]
  rfl

/-- A calendar asks for what its runs and its names ask for. -/
theorem handle_requests (event : Event) :
    Notice.requests (c.handle event).2 =
      (Notice.requests (c.fetched event).2).map (fun asked => (.runs asked.1, asked.2)) ++
      (Notice.requests (c.listed event).2).map fun asked => (.names asked.1, asked.2) := by
  match event with
  | .fetch sources span =>
    refine (c.begin_requests ..).trans ?_
    cases none : sources.isEmpty <;> simp only [listed, named?, none] <;> rfl
  | .reload =>
    simp only [handle, reload, fetched, listed, heard?, named?]
    cases c.state.span with
    | none => rfl
    | some span => exact c.begin_requests ..
  | .reply (.runs g) reply => exact (c.afterRuns_requests _).trans (List.append_nil _).symm
  | .reply (.names g) reply => exact c.afterNames_requests _
  | .wake (.runs g) => exact (c.afterRuns_requests _).trans (List.append_nil _).symm
  | .wake (.names g) => exact c.afterNames_requests _
  | .expire g => exact (c.afterRuns_requests _).trans (List.append_nil _).symm
  | .cancel => exact (c.afterRuns_requests _).trans (List.append_nil _).symm

/-- The requests of a fetch are those that the runs make for it. -/
theorem handle_requestsFor (g : Nat) (event : Event) :
    Notice.requestsFor (.runs g) (c.handle event).2 = Notice.requestsFor g (c.fetched event).2 := by
  rw [Notice.requestsFor, handle_requests, List.filterMap_append, List.filterMap_map, List.filterMap_map,
    Notice.requestsFor]
  have names : (Notice.requests (c.listed event).2).filterMap
      ((fun asked : Key × Request => if asked.1 = .runs g then some asked.2 else none) ∘
        fun asked => (.names asked.1, asked.2)) = [] :=
    List.filterMap_eq_nil_iff.mpr fun _ _ => by simp
  rw [names, List.append_nil]
  congr 1
  funext asked
  simp

end Requests

/-- The reply that comes for the fetch of a number. -/
def Event.reply? (g : Nat) : Event → Option (Reply Page)
  | .reply (.runs k) said => if k = g then some said else none
  | _ => none

/-- Nothing but a failure of the store drops the fetch of a number. -/
def Event.Spares (g : Nat) (event : Event) : Prop :=
  event.drops g = true → ∃ causes, event = .reply (.runs g) (.error causes)

/-- What an event of a calendar is for its runs spares a fetch if the event does, and brings the same reply. -/
theorem Event.Spares.heard {g : Nat} {event : Event} (spares : event.Spares g) {c : Calendar} {heard : Runs.Event}
    (told : c.heard? event = some heard) : (lifted heard).Spares g ∧ (lifted heard).reply? g = event.reply? g := by
  match event, told with
  | .fetch sources span, rfl => exact ⟨spares, rfl⟩
  | .reload, _ => obtain ⟨_, ⟨⟩⟩ := spares rfl
  | .reply (.runs k) _, rfl => exact ⟨spares, rfl⟩
  | .wake (.runs k), rfl => exact ⟨spares, rfl⟩
  | .expire k, rfl => exact ⟨spares, rfl⟩
  | .cancel, rfl => exact ⟨spares, rfl⟩

theorem Event.reply?_unheard {c : Calendar} {event : Event} (told : c.heard? event = none) (g : Nat) :
    event.reply? g = none := by
  match event, told with
  | .reload, _ => rfl
  | .reply (.names _) _, _ => rfl
  | .wake _, _ => rfl

theorem eq_of_reply?_lifted {g : Nat} {event : Runs.Event} {reply : Reply Page}
    (came : (lifted event).reply? g = some reply) : event = .reply g reply := by
  match event, came with
  | .reply k said, came =>
    obtain ⟨rfl, ⟨⟩⟩ := Option.ite_none_right_eq_some.mp came
    rfl

end Calendar

namespace Runs

open Calendar (Event.Spares Event.reply? lifted)

/-- The state when the walk of a fetch came to this. -/
def State.closed (fields : List String) (span : Span) (ticket : Ticket) (s : State) : Reply (List Record) → State
  | .ok records => s.loaded (Calendar.timed fields span records)
  | .error causes => s.failed (Failure.of ticket (.store causes))

/-- The fetch of a ticket is the latest one and has come to this stage. It began in state `s`. -/
def Stands (ticket : Ticket) (span : Span) (s : State) (r : Runs) : Walk.Stage → Prop
  | .waits walk => r.desk.live? = some ⟨ticket, ⟨walk, span⟩⟩ ∧ r.state = s
  | .ended result => r.desk.slot.generation = ticket.generation ∧ ticket.generation ∉ r.desk.generations ∧
      r.state = s.closed r.config.timestampFields span ticket result

section Stands

variable {ticket : Ticket} {span : Span} {s : State} {r next : Runs} {walk : Walk} {result : Reply (List Record)}
  {event : Event} {notices : List (Notice Nat Result)}

/-- A fetch that has ended has no part in what happens afterwards. -/
theorem Stands.ended_turn (stands : r.Stands ticket span s (.ended result)) (turn : Turn r event next notices)
    (spares : (lifted event).Spares ticket.generation) :
    next.Stands ticket span s (.ended result) ∧ Notice.requestsFor ticket.generation notices = [] := by
  have ⟨number, gone, state⟩ := stands
  have none (w : Waiting Work) : r.desk.live? ≠ some w := fun live => gone (number ▸ Desk.mem_of_live? live)
  cases turn with
  | emptied _ => obtain ⟨_, ⟨⟩⟩ := spares rfl
  | begun _ _ _ => obtain ⟨_, ⟨⟩⟩ := spares rfl
  | cancelled => obtain ⟨_, ⟨⟩⟩ := spares rfl
  | unheard _ => exact ⟨stands, rfl⟩
  | asleep _ => exact ⟨stands, rfl⟩
  | walked live _ => exact absurd live (none _)
  | loaded live _ => exact absurd live (none _)
  | failed live => exact absurd live (none _)
  | @dropped w event found dead told =>
    have older : w.ticket.generation ≠ r.desk.slot.generation := fun same =>
      gone (number ▸ same ▸ List.mem_map_of_mem (Desk.find?_some found).1)
    have slot := slot_ended_older older
    refine ⟨⟨(congrArg Slot.generation slot).trans number, ?_, (congrArg Slot.state slot).trans state⟩, rfl⟩
    show ticket.generation ∉ (r.desk.drop w.ticket.generation).generations
    rw [Desk.generations_drop]
    exact fun member => gone (List.mem_of_mem_filter member)
  | @expired k =>
    obtain ⟨same, generation, _, waiting⟩ := r.desk.expire_frame k
    refine ⟨⟨generation.trans number, ?_, same.trans state⟩, rfl⟩
    rw [Desk.generations, waiting]
    exact gone

/-- The end of the live request is the end of its fetch. -/
theorem Stands.closed (stands : r.Stands ticket span s (.waits walk)) {w : Waiting Work} (live : r.desk.live? = some w)
    {change : State → State} (closing : change s = s.closed r.config.timestampFields span ticket result) :
    (r.ended w (r.desk.slot.finish change)).Stands ticket span s (.ended result) := by
  obtain ⟨known, state⟩ := stands
  obtain rfl := Option.some.inj (live.symm.trans known)
  refine ⟨Desk.live?_generation live, ?_, ?_⟩
  · show ticket.generation ∉ (r.desk.drop ticket.generation).generations
    simp
  · exact (congrArg change state).trans closing

/-- A reply carries the fetch on by one page, or ends it; nothing else does. -/
theorem Stands.waits_turn (stands : r.Stands ticket span s (.waits walk)) (turn : Turn r event next notices)
    (spares : (lifted event).Spares ticket.generation) :
    let stage := (((lifted event).reply? ticket.generation).elim (.waits walk) (Walk.Stage.waits walk).take)
    next.Stands ticket span s stage ∧
    Notice.requestsFor ticket.generation notices =
      ((lifted event).reply? ticket.generation).elim [] fun reply => ((Walk.Stage.waits walk).take reply).asks := by
  have ⟨known, state⟩ := stands
  have number : r.desk.slot.generation = ticket.generation := Desk.live?_generation known
  -- the fetch has the live request, so that a reply under its number is never one that finds nothing
  cases turn with
  | emptied _ => obtain ⟨_, ⟨⟩⟩ := spares rfl
  | begun _ _ _ => obtain ⟨_, ⟨⟩⟩ := spares rfl
  | cancelled => obtain ⟨_, ⟨⟩⟩ := spares rfl
  | asleep _ => exact ⟨stands, rfl⟩
  | @unheard k reply gone =>
    have other : (lifted (.reply k reply)).reply? ticket.generation = none :=
      if_neg (Desk.ne_of_gone gone known).symm
    rw [other]
    exact ⟨stands, rfl⟩
  | @walked w page _ live advance =>
    obtain rfl := Option.some.inj (live.symm.trans known)
    have own : (lifted (.reply ticket.generation (.ok page))).reply? ticket.generation = some (.ok page) := if_pos rfl
    rw [own, Option.elim_some, Option.elim_some, Walk.Stage.take_inl advance]
    refine ⟨⟨?_, state⟩, Notice.requestsFor_asked ..⟩
    rw [Desk.live?_resume, live, Option.map_some, if_pos rfl]
  | @loaded w page records live advance =>
    obtain rfl := Option.some.inj (live.symm.trans known)
    have own : (lifted (.reply ticket.generation (.ok page))).reply? ticket.generation = some (.ok page) := if_pos rfl
    rw [own, Option.elim_some, Option.elim_some, Walk.Stage.take_inr advance]
    exact ⟨stands.closed live rfl, rfl⟩
  | @failed w causes live =>
    obtain rfl := Option.some.inj (live.symm.trans known)
    have own : (lifted (.reply ticket.generation (.error causes))).reply? ticket.generation = some (.error causes) :=
      if_pos rfl
    rw [own, Option.elim_some, Option.elim_some, Walk.Stage.take_error]
    exact ⟨stands.closed live rfl, rfl⟩
  | @dropped w event found dead told =>
    have older : w.ticket.generation ≠ ticket.generation := (Desk.ne_of_dead found dead known).symm
    have other : (lifted event).reply? ticket.generation = none := by
      rcases told with ⟨reply, rfl⟩ | rfl
      · exact if_neg older
      · rfl
    rw [other]
    refine ⟨⟨(Desk.live?_settled found dead _).trans known, ?_⟩, rfl⟩
    exact (congrArg Slot.state (slot_ended_older (number.symm ▸ older))).trans state
  | @expired k =>
    have other : ticket.generation ≠ k := by
      rintro rfl
      obtain ⟨_, ⟨⟩⟩ := spares (decide_eq_true rfl)
    refine ⟨⟨?_, (r.desk.expire_frame k).1.trans state⟩, rfl⟩
    rw [Desk.live?_expire, known, Option.filter_some, if_pos (by simpa using other)]

theorem Stands.turn {stage : Walk.Stage} (stands : r.Stands ticket span s stage) (turn : Turn r event next notices)
    (spares : (lifted event).Spares ticket.generation) :
    next.Stands ticket span s (((lifted event).reply? ticket.generation).elim stage stage.take) ∧
    Notice.requestsFor ticket.generation notices =
      ((lifted event).reply? ticket.generation).elim [] fun reply => (stage.take reply).asks := by
  cases stage with
  | waits walk => exact stands.waits_turn turn spares
  | ended result =>
    have kept := stands.ended_turn turn spares
    cases (lifted event).reply? ticket.generation <;> exact kept

end Stands

/-- A fetch begins with the first request of its walk, or has ended if there may be no pages. -/
theorem fetch_stands {r : Runs} (sound : r.desk.Sound) {sources : List String} (span : Span) {filter : Filter}
    (query : Calendar.sourceFilter? r.config (sortedTexts sources) = some filter) :
    let ticket : Ticket := ⟨r.desk.slot.name, r.desk.slot.generation + 1⟩
    let begun := { r.state with sources := sortedTexts sources, span := some span, loading := true }
    let stage := Walk.Stage.opened r.config filter
    (r.fetch sources span).1.Stands ticket span begun stage ∧
    Notice.requestsFor ticket.generation (r.fetch sources span).2 = stage.asks := by
  intro ticket begun stage
  have turn := r.fetch_turn sound sources span
  generalize r.fetch sources span = fetched at turn
  obtain ⟨after, notices⟩ := fetched
  cases turn with
  | emptied nothing =>
    have unpaged : r.config.maxPages = 0 := nothing.resolve_left fun none => by
      subst none
      cases query
    have ended : stage = .ended (.ok []) := if_pos unpaged
    rw [ended]
    refine ⟨⟨rfl, sound.fresh, ?_⟩, ?_⟩
    · rw [State.closed, Calendar.timed_nil]
      rfl
    · cases (if sources = [] then none else r.deadline) <;> rfl
  | @begun _ _ asked _ same paged =>
    obtain rfl := Option.some.inj (same.symm.trans query)
    have waits : stage = .waits (Walk.start r.config asked) := if_neg paged
    rw [waits]
    refine ⟨⟨live?_begun sound sources span asked, rfl⟩, ?_⟩
    cases r.deadline <;> exact Notice.requestsFor_asked ticket.generation (Walk.start r.config asked).request
  | dropped _ _ told => rcases told with ⟨_, other⟩ | other <;> cases other

end Runs

namespace Calendar

section Course

variable {c : Calendar} {ticket : Ticket} {span : Span} {s : Runs.State} {stage : Walk.Stage}

theorem handle_stands (sound : c.runs.desk.Sound) (stands : c.runs.Stands ticket span s stage) {event : Event}
    (spares : event.Spares ticket.generation) :
    (c.handle event).1.runs.Stands ticket span s ((event.reply? ticket.generation).elim stage stage.take) ∧
    Notice.requestsFor (.runs ticket.generation) (c.handle event).2 =
      (event.reply? ticket.generation).elim [] fun reply => (stage.take reply).asks := by
  rw [handle_fetched, handle_requestsFor, fetched]
  cases told : c.heard? event with
  | none =>
    rw [Event.reply?_unheard told]
    exact ⟨stands, rfl⟩
  | some heard =>
    obtain ⟨also, reply⟩ := spares.heard told
    rw [← reply]
    exact stands.turn (c.runs.handle_turn sound heard) also

/-- The replies that come for the fetch of a number, the first one first. -/
def repliesFor (g : Nat) (course : List Event) : List (Reply Page) := course.filterMap (Event.reply? g)

/-- Event by event, a fetch keeps to its walk. -/
theorem run_stands (sound : c.runs.desk.Sound) (stands : c.runs.Stands ticket span s stage) {course : List Event}
    (spares : ∀ event ∈ course, event.Spares ticket.generation) :
    let replies := repliesFor ticket.generation course
    let final := controller.run c course
    final.1.runs.Stands ticket span s (stage.after replies) ∧
    stage.asks ++ Notice.requestsFor (.runs ticket.generation) final.2 = stage.requests replies := by
  induction course generalizing c stage with
  | nil => exact ⟨stands, List.append_nil _⟩
  | cons event rest ih =>
    intro replies final
    obtain ⟨here, later⟩ := List.forall_mem_cons.mp spares
    obtain ⟨next, asked⟩ := handle_stands sound stands here
    obtain ⟨last, requests⟩ := ih (handle_sound sound event) next later
    -- what is asked here is what the next stage asks, which the rest of the course does not ask again
    have told : Notice.requestsFor (.runs ticket.generation) final.2 =
        Notice.requestsFor (.runs ticket.generation) (c.handle event).2 ++
          Notice.requestsFor (.runs ticket.generation) (controller.run (c.handle event).1 rest).2 :=
      Notice.requestsFor_append ..
    rw [told, asked]
    cases reply : event.reply? ticket.generation with
    | none =>
      have same : replies = repliesFor ticket.generation rest := List.filterMap_cons_none reply
      rw [reply] at last requests
      rw [same]
      exact ⟨last, requests⟩
    | some said =>
      have more : replies = said :: repliesFor ticket.generation rest := List.filterMap_cons_some reply
      rw [reply] at last requests
      rw [more]
      exact ⟨last, congrArg (stage.asks ++ ·) requests⟩

end Course

/-- The fetch that an event begins keeps to its walk in all that follows, if nothing but a failure drops it. -/
theorem begun_stands {c : Calendar} (sound : c.runs.desk.Sound) {opening : Event} {sources : List String} {span : Span}
    (told : c.heard? opening = some (.fetch sources span)) {filter : Filter}
    (query : sourceFilter? c.config (sortedTexts sources) = some filter) {course : List Event}
    (spares : ∀ event ∈ course, event.Spares (c.runs.desk.slot.generation + 1)) :
    let ticket : Ticket := ⟨c.runs.desk.slot.name, c.runs.desk.slot.generation + 1⟩
    let begun := { c.state with sources := sortedTexts sources, span := some span, loading := true }
    let stage := Walk.Stage.opened c.config filter
    let replies := repliesFor ticket.generation course
    let final := controller.run c (opening :: course)
    final.1.runs.Stands ticket span begun (stage.after replies) ∧
    Notice.requestsFor (.runs ticket.generation) final.2 = stage.requests replies := by
  intro ticket begun stage replies final
  have fetch : c.fetched opening = c.runs.fetch sources span := by
    rw [fetched, told]
    rfl
  obtain ⟨stands, asked⟩ := c.runs.fetch_stands sound span query
  rw [← fetch, ← handle_fetched] at stands
  rw [← fetch, ← handle_requestsFor] at asked
  obtain ⟨last, requests⟩ := run_stands (handle_sound sound opening) stands spares
  have said : Notice.requestsFor (.runs ticket.generation) final.2 = _ := Notice.requestsFor_append ..
  exact ⟨last, said.trans ((congrArg (· ++ _) asked).trans requests)⟩

/-- A walk is bounded and comes to all or nothing, whatever the store replies. It makes no more requests than it may
have pages, and has ended when it has as many replies. All its requests have the same filter and limit and no sort;
the first has no cursor, each later one the token for the next page of the reply before. The pages that it receives
are the first replies, up to one without a next page. When it has received all that it may, it asks for nothing more
and comes to all their records in this order; otherwise the replies are at their end or it has met a failure, and
then it asks for nothing more and comes to this failure. The fetch of a calendar, be it a new one or a reload, makes
the requests of its walk. Until the walk has ended and when it has failed, the records are as they were before the
fetch; when it has come to records, these are shown. -/
theorem fetch_walks_all_or_nothing (config : CalendarConfig) :
    (∀ (filter : Filter) (replies : List (Reply Page)),
      let walk := Walk.Stage.opened config filter
      let requests := walk.requests replies
      let pages := Walk.received config.maxPages.toNat replies
      requests.length ≤ config.maxPages.toNat ∧
      (config.maxPages.toNat ≤ replies.length → ∃ result, walk.after replies = .ended result) ∧
      requests = ((none :: pages.map fun page => page.next.map Cursor.forward).take requests.length).map
        (fun cursor => ⟨some filter, [], some config.pageLimit, cursor⟩) ∧
      pages.map .ok <+: replies ∧ (∀ page ∈ pages.dropLast, page.next.isSome = true) ∧
      (Walk.Whole config.maxPages.toNat pages → requests.length = pages.length ∧
        walk.after replies = .ended (.ok (pages.flatMap Page.records))) ∧
      (¬ Walk.Whole config.maxPages.toNat pages → requests.length = pages.length + 1 ∧
        ((replies = pages.map .ok ∧ ∃ next, walk.after replies = .waits next) ∨
          ∃ causes rest, replies = pages.map .ok ++ .error causes :: rest ∧
            walk.after replies = .ended (.error causes)))) ∧
    ∀ (deadline : Option Nat) (before : List Event) (opening : Event) (sources : List String) (span : Span)
      (filter : Filter) (course : List Event),
      let c := (controller.run (new config deadline) before).1
      let g := c.runs.desk.slot.generation + 1
      c.heard? opening = some (.fetch sources span) → sourceFilter? config (sortedTexts sources) = some filter →
      (∀ event ∈ course, event.Spares g) →
      let final := controller.run c (opening :: course)
      let walk := Walk.Stage.opened config filter
      let replies := repliesFor g course
      Notice.requestsFor (.runs g) final.2 = walk.requests replies ∧
      match walk.after replies with
      | .waits _ => final.1.state.records = c.state.records ∧ final.1.state.loading = true
      | .ended (.error causes) => final.1.state.records = c.state.records ∧ final.1.state.loading = false ∧
          final.1.state.failure = some ⟨"executions", (FetchError.store causes).message⟩
      | .ended (.ok records) => final.1.state.records = timed config.timestampFields span records ∧
          final.1.state.loading = false ∧ final.1.state.failure = none := by
  constructor
  · intro filter replies walk requests pages
    have told : Walk.Account (Walk.start config filter) walk replies pages := Walk.account_opened config filter replies
    exact ⟨told.bounded, told.ends, told.requests, Walk.received_prefix .., Walk.next_of_received _ _,
      told.whole, told.short⟩
  · intro deadline before opening sources span filter course c g told query spares final walk replies
    have settings : c.config = config := run_settings config deadline before
    have named : c.runs.desk.slot.name = "executions" := (run_tells config deadline before).named.slot
    rw [← settings] at query
    obtain ⟨stands, requests⟩ := begun_stands (run_sound config deadline before) told query spares
    rw [settings, named] at stands
    rw [settings] at requests
    refine ⟨requests, ?_⟩
    have kept : final.1.runs.config = config := by
      have whole := run_settings config deadline (before ++ opening :: course)
      rwa [Controller.run_append] at whole
    generalize walk.after replies = stage at stands
    match stage, stands with
    | .waits next, ⟨_, state⟩ =>
      exact ⟨(congrArg Runs.State.records state :), congrArg Runs.State.loading state⟩
    | .ended (.error causes), ⟨_, _, state⟩ =>
      exact ⟨(congrArg Runs.State.records state :), congrArg Runs.State.loading state,
        congrArg Runs.State.failure state⟩
    | .ended (.ok records), ⟨_, _, state⟩ =>
      rw [kept] at state
      exact ⟨congrArg Runs.State.records state, congrArg Runs.State.loading state,
        congrArg Runs.State.failure state⟩

/-- A store that names the same next page again and again is asked three times; one that then fails leaves a reload
with the record that was there before. -/
theorem walks_on_repeated_token :
    let config : CalendarConfig := { (default : CalendarConfig) with pageLimit := 1, maxPages := 3 }
    let run (id : String) : Record := ⟨id, "run", 1, .map [("startedAt", .number ⟨0x4014000000000000⟩)]⟩
    let again : Page := ⟨[run "b"], some "t", none⟩
    let before : List Event := [.fetch ["w"] ⟨0, 10, by decide⟩, .reply (.runs 1) (.ok ⟨[run "a"], none, none⟩)]
    let course : List Event := [.reply (.runs 2) (.ok again), .reply (.runs 2) (.error ["down"])]
    let shown := (controller.run (new config none) before).1
    let final := controller.run shown (.reload :: course)
    (∀ filter, ((Walk.Stage.opened config filter).requests (List.replicate 5 (.ok again))).map Request.cursor =
      [none, some (.forward "t"), some (.forward "t")]) ∧
    (Notice.requestsFor (.runs 2) final.2).map Request.cursor = [none, some (.forward "t")] ∧
    final.1.state.records = shown.state.records ∧ shown.state.records = [⟨run "a", 5⟩] ∧
    final.1.state.failure = some ⟨"executions", "store request failed: down"⟩ := by
  intro config run again before course shown final
  obtain ⟨walks, fetches⟩ := fetch_walks_all_or_nothing config
  obtain ⟨filter, query⟩ : ∃ filter, sourceFilter? config (sortedTexts ["w"]) = some filter := ⟨_, rfl⟩
  have spares : ∀ event ∈ course, event.Spares 2 :=
    List.forall_mem_cons.mpr ⟨nofun, List.forall_mem_singleton.mpr fun _ => ⟨["down"], rfl⟩⟩
  obtain ⟨requests, kept, -, failure⟩ :=
    fetches none before .reload ["w"] ⟨0, 10, by decide⟩ filter course rfl query spares
  have sorted : shown.state.records = [(⟨run "a", 5⟩ : TimedRecord)].mergeSort inOrder := rfl
  refine ⟨fun filter => ?_, (congrArg (List.map Request.cursor) requests).trans rfl, kept,
    sorted.trans (List.mergeSort_singleton _), failure⟩
  rw [(walks filter (List.replicate 5 (.ok again))).2.2.1]
  rfl

end Calendar

end RunQuery
