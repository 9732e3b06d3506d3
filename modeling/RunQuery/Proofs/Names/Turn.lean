import RunQuery.Proofs.Slot.Accounts
import Mathlib.Data.List.Induction

/-!
Everything that one event can do to the names. A load is asked for at once when the names are refreshed, and
else only when nothing has been loaded. While the latest load is on its way the status says so.
-/
namespace RunQuery.Names

/-- The names when a load has been asked for. -/
def asking (n : Names) : Names :=
  let begun := n.desk.slot.begin State.loading
  { n with desk := ({ n.desk with slot := begun.1 } : Desk State Unit).await begun.2 () }

def ended (n : Names) (w : Waiting Unit) (slot : Slot State) : Names := { n with desk := n.desk.ended w slot }

def putting (n : Names) (page : Page) (_ : State) : State := ⟨.loaded, ofPage n.config page⟩

/-- One step of the names, and what they say. -/
inductive Turn (n : Names) : Event → Names → List (Notice Nat Result) → Prop where
  | present (known : n.state.status ≠ .notLoaded) : Turn n .ensure n [.answered (.ok ())]
  | asked {event : Event} (asks : event = .refresh ∨ event = .ensure ∧ n.state.status = .notLoaded) :
      Turn n event n.asking
        [.started (n.desk.slot.generation + 1), .asked (n.desk.slot.generation + 1) (listing n.config)]
  | unheard {g : Nat} {reply : Reply Page} (gone : n.desk.find? g = none) : Turn n (.reply g reply) n []
  | asleep {g : Nat} (uncancelled : ∀ w, n.desk.find? g = some w → n.desk.slot.isCancelled w.ticket = false) :
      Turn n (.wake g) n []
  | loaded {w : Waiting Unit} {page : Page} (live : n.desk.live? = some w) :
      Turn n (.reply w.ticket.generation (.ok page)) (n.ended w (n.desk.slot.finish (n.putting page)))
        [.finished w.ticket.generation (.ok ())]
  | failed {w : Waiting Unit} {causes : List String} (live : n.desk.live? = some w) :
      Turn n (.reply w.ticket.generation (.error causes)) (n.ended w (n.desk.slot.finish State.failed))
        [.finished w.ticket.generation (.ok ())]
  /-- The end of a load that is not the live one. -/
  | dropped {w : Waiting Unit} {event : Event}
      (found : n.desk.find? w.ticket.generation = some w) (dead : ¬ n.desk.slot.IsLive w.ticket)
      (told : (∃ reply, event = .reply w.ticket.generation reply) ∨ event = .wake w.ticket.generation) :
      Turn n event (n.ended w (n.desk.settledSlot State.settled w))
        [.finished w.ticket.generation (.error .cancelled)]

theorem ensure_turn (n : Names) : Turn n .ensure n.ensure.1 n.ensure.2 := by
  by_cases fresh : n.state.status = .notLoaded
  · have asks : n.ensure = (n.asking, [.started (n.desk.slot.generation + 1),
        .asked (n.desk.slot.generation + 1) (listing n.config)]) := by
      simp only [ensure, Slot.step, show n.desk.slot.state.status = .notLoaded from fresh, if_true]
      rfl
    rw [asks]
    exact .asked (.inr ⟨rfl, fresh⟩)
  · have known : n.ensure = (n, [.answered (.ok ())]) := by
      simp only [ensure, Slot.step, show n.desk.slot.state.status ≠ .notLoaded from fresh, if_false]
      rfl
    rw [known]
    exact .present fresh

theorem reply_turn (n : Names) {w : Waiting Unit} (found : n.desk.find? w.ticket.generation = some w)
    (reply : Reply Page) :
    let told := n.conclude w.ticket (n.desk.slot.outcome w.ticket reply)
    Turn n (.reply w.ticket.generation reply) told.1 told.2 := by
  intro told
  by_cases live : n.desk.slot.IsLive w.ticket
  · have one : n.desk.live? = some w := (Desk.live?_of_find? found).mpr live
    simp only [told, conclude, Slot.outcome_live live, Slot.conclude_live live]
    cases reply with
    | ok page => exact .loaded one
    | error causes => exact .failed one
  · simp only [told, conclude, Slot.outcome_dead live, Slot.conclude_cancelled]
    exact .dropped found live (.inl ⟨reply, rfl⟩)

theorem handle_turn (n : Names) (event : Event) : Turn n event (n.handle event).1 (n.handle event).2 := by
  cases event with
  | ensure => exact n.ensure_turn
  | refresh => exact .asked (.inl rfl)
  | reply g reply =>
    cases found : n.desk.find? g with
    | none =>
      simp only [handle, found]
      exact .unheard found
    | some w =>
      obtain ⟨_, rfl⟩ := Desk.find?_some found
      simp only [handle, found]
      exact n.reply_turn found reply
  | wake g =>
    cases found : n.desk.find? g with
    | none =>
      simp only [handle, found]
      exact .asleep fun w other => by simp [found] at other
    | some w =>
      obtain ⟨_, rfl⟩ := Desk.find?_some found
      simp only [handle, found]
      cases cancelled : n.desk.slot.isCancelled w.ticket with
      | false =>
        simp only [Bool.false_eq_true, if_false]
        refine .asleep fun v other => ?_
        rw [found, Option.some.injEq] at other
        exact other ▸ cancelled
      | true =>
        simp only [if_true, conclude, Slot.conclude_cancelled]
        exact .dropped found (fun live => by simp [live.2] at cancelled) (.inr rfl)

/-- The status says whether a load is on its way. -/
def Sign (slot : Slot State) (up : Bool) : Prop := slot.state.status = .loading ↔ up = true

theorem sign_new (name : String) : Sign (Slot.new name ⟨.notLoaded, .empty⟩) false :=
  iff_of_false Status.noConfusion Bool.false_ne_true

theorem status_settled (s : State) : s.settled.status ≠ .loading := by
  simp only [State.settled]
  split <;> simp

section Consequences

variable {n after : Names} {event : Event} {notices : List (Notice Nat Result)}

theorem Turn.sound (turn : Turn n event after notices) (sound : n.desk.Sound) : after.desk.Sound := by
  cases turn with
  | asked _ => exact (sound.with_slot (n.desk.slot.update State.loading) rfl rfl).await_issue _
  | loaded _ => exact sound.ended _ _ rfl rfl
  | failed _ => exact sound.ended _ _ rfl rfl
  | dropped _ _ _ => exact sound.settled _ _
  | _ => exact sound

theorem Turn.step (turn : Turn n event after notices) : n.desk.Step Sign after.desk notices := by
  have down {change : State → State} (other : (change n.state).status ≠ .loading) :
      Sign (n.desk.slot.finish change) false :=
    iff_of_false other Bool.false_ne_true
  cases turn with
  | asked _ => exact .begun rfl (Desk.generations_await ..) (iff_of_true rfl rfl) rfl rfl
  | loaded live => exact .finished live (down Status.noConfusion) _
  | failed live => exact .finished live (down Status.noConfusion) _
  | dropped found _ _ => exact .dropped found (down (status_settled _)) _
  | _ => exact .kept rfl rfl (fun _ shown => shown) rfl rfl

theorem run_accounts (config : NamesConfig) (events : List Event) :
    let told := controller.run (new config) events
    told.1.desk.Sound ∧ told.1.desk.Accounts Sign told.2 := by
  induction events using List.reverseRecOn with
  | nil => exact ⟨Desk.new_sound .., Desk.new_accounts _ (sign_new _)⟩
  | append_singleton events event ih =>
    obtain ⟨sound, accounts⟩ := ih
    have turn := handle_turn (controller.run (new config) events).1 event
    rw [Controller.run_concat]
    exact ⟨turn.sound sound, turn.step.accounts sound accounts⟩

end Consequences

end RunQuery.Names
