import RunQuery.Proofs.Navigator.Moves
import RunQuery.Proofs.Table.Turn

/-!
A table is a navigator on which the calls act one after another. `Course` is that navigator without slots,
tickets and waiting requests: it counts the reloads, and knows of the latest one whether it is still awaited.
Main statement: at each moment the navigator of a table is the replay of the calls so far, with a page put in
where the reply of the awaited reload came, and nowhere else.
-/
namespace RunQuery

namespace Table

def Event.action? : Event → Option Navigator.Action
  | .call action => some action
  | _ => none

/-- The event ends the reload of a generation, if that is still awaited. -/
def Event.ends (generation : Nat) : Event → Bool
  | .call _ => false
  | .reply g _ => g = generation
  | .wake _ => false
  | .expire g => g = generation
  | .cancel => true

structure Course where
  navigator : Navigator
  /-- Number of reloads so far. -/
  reloads : Nat
  /-- The latest reload, unless it was answered or cancelled, or its time was up. -/
  awaited : Option Nat

namespace Course

def start (navigator : Navigator) : Course := ⟨navigator, 0, none⟩

/-- How an event moves the navigator: a call acts, the reply to the awaited reload puts its page in. -/
def moves (c : Course) : Event → List Navigator.Move
  | .call action => [.act action]
  | .reply g (.ok page) => if c.awaited = some g then [.load page] else []
  | _ => []

def asks (c : Course) (event : Event) : Bool := event.action?.any c.navigator.reloads

def after (c : Course) (event : Event) : Course :=
  let navigator := c.navigator.replay (c.moves event)
  if c.asks event then ⟨navigator, c.reloads + 1, some (c.reloads + 1)⟩
  else ⟨navigator, c.reloads, c.awaited.filter fun g => !event.ends g⟩

def follow (c : Course) (events : List Event) : Course := events.foldl after c

/-- All moves of a list of events in order. -/
def script (c : Course) : List Event → List Navigator.Move
  | [] => []
  | event :: rest => c.moves event ++ script (c.after event) rest

theorem follow_append (c : Course) (early late : List Event) :
    c.follow (early ++ late) = (c.follow early).follow late :=
  List.foldl_append

theorem follow_concat (c : Course) (events : List Event) (event : Event) :
    c.follow (events ++ [event]) = (c.follow events).after event := by
  rw [follow_append]
  rfl

theorem after_navigator (c : Course) (event : Event) :
    (c.after event).navigator = c.navigator.replay (c.moves event) := by
  simp only [after]
  split <;> rfl

theorem follow_navigator (c : Course) (events : List Event) :
    (c.follow events).navigator = c.navigator.replay (c.script events) := by
  induction events generalizing c with
  | nil => rfl
  | cons event rest ih =>
    have tail := ih (c.after event)
    rw [after_navigator] at tail
    rw [script, Navigator.replay_append]
    exact tail

/-- A script holds every call in its place, and no other action. -/
theorem script_actions (c : Course) (events : List Event) :
    (c.script events).filterMap Navigator.Move.action? = events.filterMap Event.action? := by
  induction events generalizing c with
  | nil => rfl
  | cons event rest ih =>
    have one : (c.moves event).filterMap Navigator.Move.action? = event.action?.toList := by
      match event with
      | .call action => rfl
      | .reply g (.ok page) =>
        simp only [moves]
        split <;> rfl
      | .reply g (.error causes) => rfl
      | .wake g => rfl
      | .expire g => rfl
      | .cancel => rfl
    rw [script, List.filterMap_append, one, ih, List.filterMap_cons]
    cases event.action? <;> rfl

theorem script_concat (c : Course) (events : List Event) (event : Event) :
    c.script (events ++ [event]) = c.script events ++ (c.follow events).moves event := by
  induction events generalizing c with
  | nil => exact List.append_nil _
  | cons first rest ih =>
    simp only [List.cons_append, script, ih, List.append_assoc]
    rfl

theorem after_reloads (c : Course) (event : Event) : c.reloads ≤ (c.after event).reloads := by
  simp only [after]
  split <;> simp

theorem follow_reloads (c : Course) (events : List Event) : c.reloads ≤ (c.follow events).reloads := by
  induction events generalizing c with
  | nil => exact Nat.le_refl _
  | cons event rest ih => exact Nat.le_trans (c.after_reloads event) (ih _)

/-- The places in a list with one more event: the new one, or those of the list before. -/
theorem concat_eq_split {events before later : List Event} {last event : Event}
    (split : events ++ [last] = before ++ event :: later) :
    (before = events ∧ event = last) ∨ ∃ rest, events = before ++ event :: rest := by
  rcases List.eq_nil_or_concat later with rfl | ⟨rest, newest, rfl⟩
  · obtain ⟨same, one⟩ := List.append_inj' split rfl
    exact .inl ⟨same.symm, (List.singleton_inj.mp one).symm⟩
  · rw [List.concat_eq_append, ← List.cons_append, ← List.append_assoc] at split
    exact .inr ⟨rest, (List.append_inj' split rfl).1⟩

/-- A reload is awaited when it is the latest one, and nothing has ended it since it was made. -/
theorem awaited_iff (navigator : Navigator) (events : List Event) (g : Nat) :
    ((start navigator).follow events).awaited = some g ↔
      g ≠ 0 ∧ ((start navigator).follow events).reloads = g ∧
      ∀ before event later, events = before ++ event :: later →
        ((start navigator).follow before).reloads = g → event.ends g = false := by
  induction events using List.reverseRecOn with
  | nil =>
    simp only [follow, start, List.foldl_nil]
    exact ⟨fun impossible => absurd impossible (by simp),
      fun ⟨positive, zero, _⟩ => absurd zero.symm positive⟩
  | append_singleton events last ih =>
    rw [follow_concat]
    cases asks : ((start navigator).follow events).asks last with
    | true =>
      simp only [after, asks, if_true, Option.some.injEq]
      refine ⟨fun newest => ⟨by omega, newest, fun before event later split count => ?_⟩,
        fun ⟨_, newest, _⟩ => newest⟩
      -- before the last event there was no such reload
      have early : ((start navigator).follow before).reloads ≤ ((start navigator).follow events).reloads := by
        rcases concat_eq_split split with ⟨rfl, _⟩ | ⟨rest, rfl⟩
        · exact Nat.le_refl _
        · rw [follow_append]
          exact follow_reloads ..
      omega
    | false =>
      simp only [after, asks, Bool.false_eq_true, if_false, Option.filter_eq_some_iff, ih,
        Bool.not_eq_true']
      constructor
      · rintro ⟨⟨positive, latest, kept⟩, goes⟩
        refine ⟨positive, latest, fun before event later split count => ?_⟩
        rcases concat_eq_split split with ⟨_, rfl⟩ | ⟨rest, whole⟩
        · exact goes
        · exact kept before event rest whole count
      · rintro ⟨positive, latest, kept⟩
        refine ⟨⟨positive, latest, fun before event later split count => ?_⟩,
          kept events last [] rfl latest⟩
        exact kept before event (later ++ [last]) (by simp [split]) count

section After

variable {c : Course} {action : Navigator.Action}

theorem filter_ends {event : Event} {awaited : Option Nat}
    (goes : ∀ g, awaited = some g → event.ends g = false) :
    (awaited.filter fun g => !event.ends g) = awaited := by
  cases awaited with
  | none => rfl
  | some g => simp [goes g rfl]

theorem after_of_not_asks {event : Event} (asks : c.asks event = false) :
    c.after event =
      ⟨c.navigator.replay (c.moves event), c.reloads, c.awaited.filter fun g => !event.ends g⟩ := by
  simp [after, asks]

theorem after_error {error : EditError} (applied : c.navigator.apply action = .error error) :
    c.after (.call action) = c := by
  have asks : c.asks (.call action) = false := by
    simp [Course.asks, Event.action?, Navigator.reloads, applied]
  rw [after_of_not_asks asks, filter_ends fun _ _ => rfl]
  exact congrArg (Course.mk · _ _) (Navigator.move_of_error applied)

theorem after_none {next : Navigator} (applied : c.navigator.apply action = .ok (next, .none)) :
    c.after (.call action) = { c with navigator := next } := by
  have asks : c.asks (.call action) = false := by
    simp [Course.asks, Event.action?, Navigator.reloads, applied]
  rw [after_of_not_asks asks, filter_ends fun _ _ => rfl]
  exact congrArg (Course.mk · _ _) (Navigator.move_of_ok applied)

theorem after_reload {next : Navigator} (applied : c.navigator.apply action = .ok (next, .reload)) :
    c.after (.call action) = ⟨next, c.reloads + 1, some (c.reloads + 1)⟩ := by
  have asks : c.asks (.call action) = true := by
    simp [Course.asks, Event.action?, Navigator.reloads, applied]
  simp [after, asks, moves, Navigator.replay, Navigator.move_of_ok applied]

theorem after_load {g : Nat} {page : Page} (awaited : c.awaited = some g) :
    c.after (.reply g (.ok page)) = ⟨c.navigator.withPage page, c.reloads, none⟩ := by
  simp [after, asks, Event.action?, moves, awaited, Navigator.replay, Navigator.move, Event.ends]

theorem after_other {event : Event} (noCall : event.action? = none)
    (noPage : ∀ g page, event = .reply g (.ok page) → c.awaited ≠ some g) :
    c.after event = { c with awaited := c.awaited.filter fun g => !event.ends g } := by
  have still : c.moves event = [] := by
    match event with
    | .reply g (.ok page) => simp [moves, noPage g page rfl]
    | .reply g (.error causes) => rfl
    | .wake g => rfl
    | .expire g => rfl
    | .cancel => rfl
  rw [after_of_not_asks (by simp [asks, noCall]), still]
  rfl

end After

end Course

/-- A table keeps to a course: same navigator, and the live request is the awaited reload. -/
structure Keeps (t : Table) (c : Course) : Prop where
  navigator : t.view.navigator = c.navigator
  reloads : t.desk.slot.generation = c.reloads
  awaited : (t.desk.live?.map fun w => w.ticket.generation) = c.awaited

theorem new_keeps (navigator : Navigator) (deadline : Option Nat) :
    Keeps (new navigator deadline) (Course.start navigator) := ⟨rfl, rfl, rfl⟩

theorem Keeps.not_awaited {t : Table} {c : Course} (keeps : Keeps t c) {g : Nat}
    (dead : ∀ w, t.desk.live? = some w → w.ticket.generation ≠ g) : c.awaited ≠ some g := by
  rw [← keeps.awaited]
  intro same
  obtain ⟨w, live, number⟩ := Option.map_eq_some_iff.mp same
  exact dead w live number

theorem ne_of_awaited {awaited : Option Nat} {g k : Nat} (other : awaited ≠ some g)
    (same : awaited = some k) : g ≠ k := by
  rintro rfl
  exact other same

/-- Every step of a table is a step of its course. -/
theorem Turn.keeps {t after : Table} {c : Course} {event : Event} {notices : List (Notice Nat Result)}
    (turn : Turn t event after notices) (sound : t.desk.Sound) (keeps : Keeps t c) :
    Keeps after (c.after event) := by
  have ⟨navigator, reloads, awaited⟩ := keeps
  cases turn with
  | refused applied =>
    rw [Course.after_error (navigator ▸ applied)]
    exact keeps
  | moved applied =>
    rw [Course.after_none (navigator ▸ applied)]
    exact ⟨rfl, reloads, awaited⟩
  | asked applied =>
    rw [Course.after_reload (navigator ▸ applied)]
    refine ⟨rfl, congrArg (· + 1) reloads, ?_⟩
    rw [live?_ask sound, ← reloads]
    rfl
  | @unheard g reply gone =>
    have other : c.awaited ≠ some g := keeps.not_awaited fun w live => Desk.ne_of_gone gone live
    have goes (k : Nat) (same : c.awaited = some k) : (Event.reply g reply).ends k = false := by
      simpa [Event.ends] using ne_of_awaited other same
    rw [Course.after_other rfl fun g page same => by cases same; exact other, Course.filter_ends goes]
    exact keeps
  | asleep _ =>
    rw [Course.after_other rfl fun g page same => by cases same]
    rw [Course.filter_ends fun k _ => rfl]
    exact keeps
  | loaded live =>
    rw [live] at awaited
    rw [Course.after_load awaited.symm]
    exact ⟨congrArg (Navigator.withPage · _) navigator, reloads, congrArg (Option.map _) (Desk.live?_ended live _ rfl rfl)⟩
  | failed live =>
    rw [live] at awaited
    rw [Course.after_other rfl fun g page same => by cases same]
    rw [← awaited]
    exact ⟨navigator, reloads, (congrArg (Option.map _) (Desk.live?_ended live _ rfl rfl)).trans
      (by simp [Event.ends, Option.filter_some])⟩
  | @dropped w _ found dead told =>
    have other := keeps.not_awaited fun v live => Desk.ne_of_dead found dead live
    have quiet : event.action? = none := by rcases told with ⟨reply, rfl⟩ | rfl <;> rfl
    rw [Course.after_other quiet ?_, Course.filter_ends fun k same => ?_]
    · refine ⟨(t.settled_navigator w).trans navigator, ?_, ?_⟩
      · exact (t.desk.settledSlot_generation View.settled w).trans reloads
      · exact (congrArg (Option.map _) (Desk.live?_settled found dead View.settled)).trans awaited
    · rcases told with ⟨reply, rfl⟩ | rfl <;> simp [Event.ends, ne_of_awaited other same]
    · rintro g page rfl
      rcases told with ⟨reply, same⟩ | same
      · cases same
        exact other
      · cases same
  | @expired g =>
    rw [Course.after_other rfl fun g page same => by cases same]
    obtain ⟨state, generation, _⟩ := t.desk.expire_frame g
    refine ⟨(congrArg View.navigator state).trans navigator, generation.trans reloads, ?_⟩
    · rw [← awaited, Desk.live?_expire]
      cases t.desk.live? with
      | none => rfl
      | some w =>
        by_cases same : w.ticket.generation = g <;>
          simp [Event.ends, Option.filter_some, same, Ne.symm]
  | cancelled =>
    rw [Course.after_other rfl fun g page same => by cases same]
    exact ⟨navigator, reloads, by simp [Event.ends]⟩

theorem run_course (navigator : Navigator) (deadline : Option Nat) (events : List Event) :
    Keeps (controller.run (new navigator deadline) events).1 ((Course.start navigator).follow events) := by
  induction events using List.reverseRecOn with
  | nil => exact new_keeps navigator deadline
  | append_singleton events event ih =>
    rw [run_concat, Course.follow_concat]
    exact (handle_turn _ event).keeps (run_sound navigator deadline events) ih

/-- The reloads of a course are the requests that the table makes. -/
theorem run_reloads (navigator : Navigator) (deadline : Option Nat) (events : List Event) :
    (Notice.requests (controller.run (new navigator deadline) events).2).length =
      ((Course.start navigator).follow events).reloads := by
  have numbers := run_requests navigator deadline events
  have count := congrArg List.length numbers
  rw [List.length_map, List.length_range'] at count
  exact count.trans (run_course navigator deadline events).reloads

/-- At each moment the navigator of the view is the replay of the calls so far in the order in which they
were started, with a page put in where the reply of the awaited reload came. The awaited reload is the
latest one, if neither its reply nor its deadline nor a cancellation has come since it was made; all other
replies, failures, deadlines and cancellations leave the navigator as the calls have made it. A reply that
is judged at one moment and put in at a later one has come at the later one. -/
theorem view_is_replay_of_calls (navigator : Navigator) (deadline : Option Nat) (events : List Event) :
    let begun := new navigator deadline
    let told := controller.run begun events
    let course := (Course.start navigator).follow events
    let script := (Course.start navigator).script events
    told.1.view.navigator = navigator.replay script ∧
    script.filterMap Navigator.Move.action? = events.filterMap Event.action? ∧
    (∀ event, (Course.start navigator).script (events ++ [event]) = script ++ course.moves event) ∧
    (Notice.requests told.2).map Prod.fst = List.range' 1 (Notice.requests told.2).length ∧
    (∀ g, course.awaited = some g ↔
      g ≠ 0 ∧ (Notice.requests told.2).length = g ∧
      ∀ before event later, events = before ++ event :: later →
        (Notice.requests (controller.run begun before).2).length = g → event.ends g = false) ∧
    (∀ event, event.action? = none →
      (told.1.handle event).1.view.navigator =
        match event with
        | .reply g (.ok page) =>
          if course.awaited = some g then told.1.view.navigator.withPage page else told.1.view.navigator
        | _ => told.1.view.navigator) ∧
    (∀ before later w reply, events = before ++ later →
      let judged := (controller.run begun before).1.desk
      w ∈ judged.waiting →
        (told.1.conclude w.ticket (judged.slot.outcome w.ticket reply)).1 =
          (told.1.conclude w.ticket (told.1.desk.slot.outcome w.ticket reply)).1) := by
  intro begun told course script
  have kept : Keeps told.1 course := run_course navigator deadline events
  have count (early : List Event) := run_reloads navigator deadline early
  refine ⟨kept.navigator.trans (Course.follow_navigator ..), Course.script_actions .., ?_, ?_, ?_, ?_, ?_⟩
  · intro event
    exact Course.script_concat ..
  · rw [count events, ← kept.reloads]
    exact run_requests navigator deadline events
  · intro g
    simp only [begun, told, count]
    exact Course.awaited_iff navigator events g
  · intro event quiet
    have next := ((handle_turn told.1 event).keeps (run_sound navigator deadline events) kept).navigator
    rw [next, kept.navigator, Course.after_navigator]
    match event with
    | .reply g (.ok page) =>
      simp only [Course.moves]
      split <;> rfl
    | .reply g (.error causes) => rfl
    | .wake g => rfl
    | .expire g => rfl
    | .cancel => rfl
  · rintro before later w reply rfl judged member
    have whole : told.1 = (controller.run (controller.run begun before).1 later).1 := by
      simp only [told, Controller.run_append]
    rw [whole]
    exact run_conclude _ (run_sound navigator deadline before) later member reply

end Table

end RunQuery
