import RunQuery.Proofs.Controller
import RunQuery.Proofs.Slot.Desk
import Mathlib.Data.List.Induction

/-!
Everything that one event can do to a table. `Turn` has one case for each kind of step, with what the table
says in it; what holds of every run of a table is shown by these cases. A reply counts in one of them only:
when its request is the live one.
-/
namespace RunQuery.Table

/-- The table with another navigator, while its request goes on. -/
def put (t : Table) (navigator : Navigator) : Table :=
  { t with desk := { t.desk with slot := t.desk.slot.update fun view => { view with navigator } } }

/-- The slot of a table that is about to load the page of another navigator. -/
def turned (t : Table) (navigator : Navigator) : Slot View :=
  t.desk.slot.update fun view => { view with navigator, loading := true }

/-- The table with another navigator, whose page is asked for. -/
def ask (t : Table) (navigator : Navigator) : Table :=
  let issued := (t.turned navigator).issue
  { t with desk := ({ t.desk with slot := issued.1 } : Desk View Request).await issued.2 navigator.toRequest }

def ended (t : Table) (w : Waiting Request) (slot : Slot View) : Table :=
  { t with desk := t.desk.ended w slot }

/-- One step of a table, and what it says. -/
inductive Turn (t : Table) : Event → Table → List (Notice Nat Result) → Prop where
  | refused {action : Navigator.Action} {error : EditError}
      (applied : t.view.navigator.apply action = .error error) :
      Turn t (.call action) t [.answered (.error (.edit error))]
  | moved {action : Navigator.Action} {next : Navigator}
      (applied : t.view.navigator.apply action = .ok (next, .none)) :
      Turn t (.call action) (t.put next) [.answered (.ok .none)]
  | asked {action : Navigator.Action} {next : Navigator}
      (applied : t.view.navigator.apply action = .ok (next, .reload)) :
      Turn t (.call action) (t.ask next)
        ([.started (t.desk.slot.generation + 1)] ++
          (t.deadline.map (Notice.alarm (t.desk.slot.generation + 1))).toList ++
          [.asked (t.desk.slot.generation + 1) next.toRequest])
  | unheard {g : Nat} {reply : Reply Page} (gone : t.desk.find? g = none) : Turn t (.reply g reply) t []
  | asleep {g : Nat} (uncancelled : ∀ w, t.desk.find? g = some w → t.desk.slot.isCancelled w.ticket = false) :
      Turn t (.wake g) t []
  | loaded {w : Waiting Request} {page : Page} (live : t.desk.live? = some w) :
      Turn t (.reply w.ticket.generation (.ok page))
        (t.ended w (t.desk.slot.finish (View.loaded page)))
        [.finished w.ticket.generation (.ok .reload)]
  | failed {w : Waiting Request} {causes : List String} (live : t.desk.live? = some w) :
      Turn t (.reply w.ticket.generation (.error causes))
        (t.ended w (t.desk.slot.finish (View.failed (Failure.of w.ticket (.store causes)))))
        [.finished w.ticket.generation (.error (.fetch (.store causes)))]
  /-- The end of a request that is not the live one. -/
  | dropped {w : Waiting Request} {event : Event}
      (found : t.desk.find? w.ticket.generation = some w) (dead : ¬ t.desk.slot.IsLive w.ticket)
      (told : (∃ reply, event = .reply w.ticket.generation reply) ∨ event = .wake w.ticket.generation) :
      Turn t event (t.ended w (t.desk.settledSlot View.settled w))
        [.finished w.ticket.generation (.error (.fetch .cancelled))]
  | expired {g : Nat} : Turn t (.expire g) { t with desk := t.desk.expire g } []
  | cancelled : Turn t .cancel { t with desk := t.desk.cancel } []

theorem View.act_error {view : View} {action : Navigator.Action} {error : EditError}
    (applied : view.navigator.apply action = .error error) : view.act action = (view, none) := by
  simp only [View.act, applied]

theorem View.act_ok {view : View} {action : Navigator.Action} {next : Navigator} {effect : Effect}
    (applied : view.navigator.apply action = .ok (next, effect)) : view.act action = view.transition next effect := by
  simp only [View.act, applied]

/-- A refused action leaves the slot: no state, no generation, no ticket and no flag of it is another. -/
theorem step_refused {t : Table} {action : Navigator.Action} {error : EditError}
    (applied : t.view.navigator.apply action = .error error) :
    t.desk.slot.step (View.act action) = (t.desk.slot, none) := by
  have same : View.act action t.desk.slot.state = (t.desk.slot.state, none) := View.act_error applied
  rw [Slot.step, same]
  rfl

theorem step_applied {t : Table} {action : Navigator.Action} {next : Navigator} {effect : Effect}
    (applied : t.view.navigator.apply action = .ok (next, effect)) :
    t.desk.slot.step (View.act action) = t.desk.slot.step (View.transition next effect) := by
  have same : View.act action t.desk.slot.state = View.transition next effect t.desk.slot.state := View.act_ok applied
  rw [Slot.step, Slot.step, same]

theorem call_turn (t : Table) (action : Navigator.Action) :
    Turn t (.call action) (t.call action).1 (t.call action).2 := by
  unfold call
  cases applied : t.view.navigator.apply action with
  | error error =>
    rw [step_refused applied]
    exact .refused applied
  | ok moved =>
    obtain ⟨next, effect⟩ := moved
    rw [step_applied applied]
    cases effect with
    | none => exact .moved applied
    | reload => exact .asked applied

theorem reply_turn (t : Table) {w : Waiting Request} (found : t.desk.find? w.ticket.generation = some w)
    (reply : Reply Page) :
    let told := t.conclude w.ticket (t.desk.slot.outcome w.ticket reply)
    Turn t (.reply w.ticket.generation reply) told.1 told.2 := by
  intro told
  by_cases live : t.desk.slot.IsLive w.ticket
  · have one : t.desk.live? = some w := (Desk.live?_of_find? found).mpr live
    simp only [told, conclude, Slot.outcome_live live, Slot.conclude_live live]
    cases reply with
    | ok page => exact .loaded one
    | error causes => exact .failed one
  · simp only [told, conclude, Slot.outcome_dead live, Slot.conclude_cancelled]
    exact .dropped found live (.inl ⟨reply, rfl⟩)

theorem handle_turn (t : Table) (event : Event) :
    Turn t event (t.handle event).1 (t.handle event).2 := by
  cases event with
  | call action => exact t.call_turn action
  | reply g reply =>
    cases found : t.desk.find? g with
    | none =>
      simp only [handle, found]
      exact .unheard found
    | some w =>
      obtain ⟨_, rfl⟩ := Desk.find?_some found
      simp only [handle, found]
      exact t.reply_turn found reply
  | wake g =>
    cases found : t.desk.find? g with
    | none =>
      simp only [handle, found]
      exact .asleep fun w other => by simp [found] at other
    | some w =>
      obtain ⟨_, rfl⟩ := Desk.find?_some found
      simp only [handle, found]
      cases cancelled : t.desk.slot.isCancelled w.ticket with
      | false =>
        simp only [Bool.false_eq_true, if_false]
        refine .asleep fun v other => ?_
        rw [found, Option.some.injEq] at other
        exact other ▸ cancelled
      | true =>
        simp only [if_true, conclude, Slot.conclude_cancelled]
        exact .dropped found (fun live => by simp [live.2] at cancelled) (.inr rfl)
  | expire g => exact .expired
  | cancel => exact .cancelled

section Consequences

variable {t after : Table} {event : Event} {notices : List (Notice Nat Result)}

theorem Turn.later (turn : Turn t event after notices) : Slot.Later t.desk.slot after.desk.slot := by
  cases turn with
  | asked _ => exact ⟨Nat.le_succ _, List.subset_cons_self ..⟩
  | dropped _ _ _ => exact t.desk.settledSlot_later _ _
  | expired => exact t.desk.expire_later _
  | cancelled => exact ⟨Nat.le_refl _, List.subset_cons_self ..⟩
  | _ => exact ⟨Nat.le_refl _, List.Subset.refl _⟩

theorem run_later (t : Table) (events : List Event) :
    Slot.Later t.desk.slot (controller.run t events).1.desk.slot := by
  induction events generalizing t with
  | nil => exact .refl _
  | cons event rest ih => exact (t.handle_turn event).later.trans (ih _)

theorem Turn.sound (turn : Turn t event after notices) (sound : t.desk.Sound) : after.desk.Sound := by
  cases turn with
  | refused _ => exact sound
  | moved _ => exact sound.with_slot _ rfl rfl
  | asked _ => exact (sound.with_slot (t.turned _) rfl rfl).await_issue _
  | unheard _ => exact sound
  | asleep _ => exact sound
  | loaded _ => exact sound.ended _ _ rfl rfl
  | failed _ => exact sound.ended _ _ rfl rfl
  | dropped _ _ _ => exact sound.settled _ _
  | expired => exact sound.expire _
  | cancelled => exact sound.cancel

theorem run_sound (navigator : Navigator) (deadline : Option Nat) (events : List Event) :
    (controller.run (new navigator deadline) events).1.desk.Sound :=
  controller.run_keeps (P := fun t => t.desk.Sound) (fun t event => (t.handle_turn event).sound)
    (Desk.new_sound ..) events

/-- A step makes one request under the next generation, or none. -/
theorem Turn.requests (turn : Turn t event after notices) :
    (Notice.requests notices = [] ∧ after.desk.slot.generation = t.desk.slot.generation) ∨
    (∃ action next, event = .call action ∧ t.view.navigator.apply action = .ok (next, .reload) ∧
      after = t.ask next ∧
      Notice.requests notices = [(t.desk.slot.generation + 1, next.toRequest)]) := by
  cases turn with
  | asked applied =>
    refine .inr ⟨_, _, rfl, applied, rfl, ?_⟩
    cases t.deadline <;> rfl
  | dropped _ _ _ => exact .inl ⟨rfl, t.desk.settledSlot_generation _ _⟩
  | expired => exact .inl ⟨rfl, (t.desk.expire_frame _).2.1⟩
  | _ => exact .inl ⟨rfl, rfl⟩

theorem run_concat (t : Table) (events : List Event) (event : Event) :
    controller.run t (events ++ [event]) =
      (((controller.run t events).1.handle event).1,
        (controller.run t events).2 ++ ((controller.run t events).1.handle event).2) :=
  Controller.run_concat ..

@[simp] theorem ask_generation (t : Table) (next : Navigator) :
    (t.ask next).desk.slot.generation = t.desk.slot.generation + 1 := rfl

/-- Requests are numbered from one by the generations of their tickets. -/
theorem run_requests (navigator : Navigator) (deadline : Option Nat) (events : List Event) :
    let told := controller.run (new navigator deadline) events
    (Notice.requests told.2).map Prod.fst = List.range' 1 told.1.desk.slot.generation := by
  induction events using List.reverseRecOn with
  | nil => rfl
  | append_singleton events event ih =>
    simp only [run_concat, Notice.requests_append, List.map_append] at ih ⊢
    rcases (handle_turn _ event).requests with ⟨none, same⟩ | ⟨action, next, _, _, asked, one⟩
    · rw [none, same, ih, List.map_nil, List.append_nil]
    · rw [one, asked, ask_generation, ih, List.range'_concat]
      simp [Nat.add_comm]

/-- What a reply comes to may be found at one moment and put in at a later one. -/
theorem run_conclude (t : Table) (sound : t.desk.Sound) (events : List Event) {w : Waiting Request}
    (member : w ∈ t.desk.waiting) (reply : Reply Page) :
    let later := (controller.run t events).1
    (later.conclude w.ticket (t.desk.slot.outcome w.ticket reply)).1 =
      (later.conclude w.ticket (later.desk.slot.outcome w.ticket reply)).1 := by
  intro later
  have issued : w.ticket.generation ≤ t.desk.slot.generation :=
    sound.issued _ (List.mem_map_of_mem member)
  have same := (t.run_later events).conclude_outcome issued reply View.loaded
    (fun e => View.failed (Failure.of w.ticket e)) View.settled
  exact congrArg (later.ended w) same

theorem live?_ask (sound : t.desk.Sound) (next : Navigator) :
    (t.ask next).desk.live? =
      some ⟨⟨t.desk.slot.name, t.desk.slot.generation + 1⟩, next.toRequest⟩ :=
  Desk.live?_await_issue (sound.with_slot (t.turned next) rfl rfl) _

theorem settled_navigator (t : Table) (w : Waiting Request) :
    (t.ended w (t.desk.settledSlot View.settled w)).view.navigator = t.view.navigator :=
  Desk.settledSlot_state View.navigator View.settled (fun _ => rfl) t.desk w

end Consequences

end RunQuery.Table
