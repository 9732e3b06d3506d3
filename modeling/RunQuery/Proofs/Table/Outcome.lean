import RunQuery.Proofs.Slot.Accounts
import RunQuery.Proofs.Table.Turn

/-!
What a call of a table comes to, and what its end does to the view. A call that made a request ends with its own
page, with the failure of the store, or as cancelled. Main statement: the result tells these ends apart, each
does to the view what it says and nothing else, and until one of them comes the view is left to other calls.
-/
namespace RunQuery.Table

/-- The view and the slot show whether a page is on its way. -/
def Sign (slot : Slot View) (up : Bool) : Prop := slot.state.loading = up ∧ slot.inFlight = up

/-- A page that comes for the call now is put in, whatever it is. -/
def PutsIn (t : Table) (call : Nat) : Prop :=
  ∀ page, (t.handle (.reply call (.ok page))).1.view = ⟨t.view.navigator.withPage page, false, none⟩

section Turns

variable {t after : Table} {event : Event} {notices : List (Notice Nat Result)}

theorem Turn.step (turn : Turn t event after notices) : t.desk.Step Sign after.desk notices := by
  cases turn with
  | moved _ => exact .kept rfl rfl (fun _ shown => shown) rfl rfl
  | asked _ =>
    refine .begun rfl (Desk.generations_await ..) ⟨rfl, rfl⟩ ?_ ?_ <;> cases t.deadline <;> rfl
  | loaded live => exact .finished live ⟨rfl, rfl⟩ _
  | failed live => exact .finished live ⟨rfl, rfl⟩ _
  | dropped found _ _ => exact .dropped found ⟨rfl, rfl⟩ _
  | @expired g =>
    obtain ⟨state, generation, flight, waiting⟩ := t.desk.expire_frame g
    exact .kept generation (congrArg (List.map _) waiting) (fun up shown => by rwa [Sign, state, flight]) rfl rfl
  | _ => exact .kept rfl rfl (fun _ shown => shown) rfl rfl

theorem Turn.named (turn : Turn t event after notices) (named : t.desk.Named "table") :
    after.desk.Named "table" := by
  cases turn with
  | moved _ => exact named.with_slot _ rfl
  | asked _ => exact (named.with_slot (t.turned _) rfl).await_issue _
  | loaded _ => exact named.ended _ _ rfl
  | failed _ => exact named.ended _ _ rfl
  | dropped _ _ _ => exact named.ended _ _ (Desk.settledSlot_name ..)
  | expired => exact named.expire _
  | cancelled => exact named.with_slot _ rfl
  | _ => exact named

theorem view_settled (t : Table) (w : Waiting Request) :
    (t.ended w (t.desk.settledSlot View.settled w)).view =
      if t.desk.slot.generation = w.ticket.generation then t.view.settled else t.view := by
  show (t.desk.settledSlot View.settled w).state = _
  simp only [Desk.settledSlot, Slot.isCurrent_iff]
  split <;> rfl

/-- The three ends of a call. -/
theorem Turn.finished (turn : Turn t event after notices) (named : t.desk.Named "table") {g : Nat} {result : Result}
    (told : .finished g result ∈ notices) :
    g ∈ t.desk.generations ∧
    ((∃ page, event = .reply g (.ok page) ∧ t.desk.slot.IsLive ⟨"table", g⟩ ∧ result = .ok .reload ∧
        after.view = ⟨t.view.navigator.withPage page, false, none⟩) ∨
      (∃ causes, event = .reply g (.error causes) ∧ t.desk.slot.IsLive ⟨"table", g⟩ ∧
        result = .error (.fetch (.store causes)) ∧
        after.view = t.view.failed ⟨"table", (FetchError.store causes).message⟩) ∨
      (¬ t.desk.slot.IsLive ⟨"table", g⟩ ∧ result = .error (.fetch .cancelled) ∧
        after.view = if t.desk.slot.generation = g then t.view.settled else t.view)) := by
  have own {w : Waiting Request} (member : w ∈ t.desk.waiting) : w.ticket = ⟨"table", w.ticket.generation⟩ := by
    rw [← named.tickets w member]
  cases turn with
  | refused _ => simp at told
  | moved _ => simp at told
  | asked _ => cases deadline : t.deadline <;> simp [deadline] at told
  | unheard _ => simp at told
  | asleep _ => simp at told
  | @loaded w page live =>
    obtain ⟨rfl, rfl⟩ : g = w.ticket.generation ∧ result = .ok .reload := by simpa using told
    obtain ⟨found, alive⟩ := Desk.live?_eq_some_iff.mp live
    have member := (Desk.find?_some found).1
    exact ⟨List.mem_map_of_mem member, .inl ⟨page, rfl, own member ▸ alive, rfl, rfl⟩⟩
  | @failed w causes live =>
    obtain ⟨rfl, rfl⟩ : g = w.ticket.generation ∧ result = .error (.fetch (.store causes)) := by simpa using told
    obtain ⟨found, alive⟩ := Desk.live?_eq_some_iff.mp live
    have member := (Desk.find?_some found).1
    refine ⟨List.mem_map_of_mem member, .inr (.inl ⟨causes, rfl, own member ▸ alive, rfl, ?_⟩)⟩
    rw [← named.tickets w member]
    rfl
  | @dropped w _ found dead _ =>
    obtain ⟨rfl, rfl⟩ : g = w.ticket.generation ∧ result = .error (.fetch .cancelled) := by simpa using told
    have member := (Desk.find?_some found).1
    exact ⟨List.mem_map_of_mem member, .inr (.inr ⟨own member ▸ dead, rfl, t.view_settled w⟩)⟩
  | expired => simp at told
  | cancelled => simp at told

end Turns

section Replies

variable {t : Table} {g : Nat}

theorem exists_waiting (waits : g ∈ t.desk.generations) : ∃ w, t.desk.find? g = some w :=
  Option.ne_none_iff_exists'.mp fun gone => Desk.find?_eq_none_iff.mp gone waits

/-- Every reply ends the call that it is for. -/
theorem reply_finishes (waits : g ∈ t.desk.generations) (reply : Reply Page) :
    ∃ result, (t.handle (.reply g reply)).2 = [.finished g result] := by
  obtain ⟨w, found⟩ := exists_waiting waits
  obtain ⟨_, rfl⟩ := Desk.find?_some found
  simp only [handle, found, conclude]
  exact ⟨_, rfl⟩

theorem handle_dead {w : Waiting Request} (found : t.desk.find? w.ticket.generation = some w)
    (dead : ¬ t.desk.slot.IsLive w.ticket) (reply : Reply Page) :
    (t.handle (.reply w.ticket.generation reply)).1 = t.ended w (t.desk.settledSlot View.settled w) := by
  simp only [handle, found, conclude, Slot.outcome_dead dead, Slot.conclude_cancelled]
  rfl

/-- Pages are put in under a live ticket only. -/
theorem putsIn_iff (named : t.desk.Named "table") (waits : g ∈ t.desk.generations) :
    t.PutsIn g ↔ t.desk.slot.IsLive ⟨"table", g⟩ := by
  obtain ⟨w, found⟩ := exists_waiting waits
  obtain ⟨member, rfl⟩ := Desk.find?_some found
  have own : w.ticket = ⟨"table", w.ticket.generation⟩ := by
    rw [← named.tickets w member]
  rw [← own]
  constructor
  · intro puts
    by_contra dead
    -- under a dead ticket two pages would leave the same view
    have first := puts .empty
    have second := puts ⟨[], some "", none⟩
    rw [handle_dead found dead] at first second
    have pages := congrArg (fun view => view.navigator.page.next) (first.symm.trans second)
    cases pages
  · intro live page
    simp only [handle, found, conclude, Slot.outcome_live live, Slot.conclude_live live]
    rfl

end Replies

theorem run_accounts (navigator : Navigator) (deadline : Option Nat) (events : List Event) :
    let told := controller.run (new navigator deadline) events
    told.1.desk.Accounts Sign told.2 := by
  induction events using List.reverseRecOn with
  | nil => exact Desk.new_accounts _ ⟨rfl, rfl⟩
  | append_singleton events event ih =>
    rw [run_concat]
    exact (handle_turn _ event).step.accounts (run_sound navigator deadline events) ih

theorem run_named (navigator : Navigator) (deadline : Option Nat) (events : List Event) :
    (controller.run (new navigator deadline) events).1.desk.Named "table" :=
  controller.run_keeps (fun t event => (t.handle_turn event).named)
    (Desk.new_named ..) events

/-- What every call that makes a request comes to, and what its end does to the view, whatever calls, replies,
cancellations and deadlines come before. Calls and their requests have the same numbers, counted from one; a
call that is started is done once or still waits, and its own reply always ends it. It comes to a reload if and
only if its own page is put in, with the failure cleared; and pages are put in for the latest call only, while
it is not cancelled. It comes to a failure of the store if and only if the failure comes at such a time, and
then the view shows that failure beside what it has shown before. Else it comes to a cancellation, and only the
latest call then takes the sign of loading down. Deadlines and cancellations by themselves leave the view. -/
theorem result_tells_view (navigator : Navigator) (deadline : Option Nat) (events : List Event) :
    let whole := controller.run (new navigator deadline) events
    let t := whole.1
    let slot := t.desk.slot
    (Notice.calls whole.2 = List.range' 1 slot.generation ∧
      (Notice.requests whole.2).map Prod.fst = List.range' 1 slot.generation ∧
      (Notice.calls whole.2).Perm (Notice.ended whole.2 ++ t.desk.generations)) ∧
    (∀ g, Notice.Pending whole.2 g →
      (t.PutsIn g ↔ slot.IsLive ⟨"table", g⟩) ∧
      ∀ reply, ∃ result, (t.handle (.reply g reply)).2 = [.finished g result]) ∧
    (∀ event g result, .finished g result ∈ (t.handle event).2 →
      let after := (t.handle event).1.view
      Notice.Pending whole.2 g ∧
      (result = .ok .reload ↔ (∃ page, event = .reply g (.ok page)) ∧ t.PutsIn g) ∧
      (∀ causes, result = .error (.fetch (.store causes)) ↔
        event = .reply g (.error causes) ∧ slot.IsLive ⟨"table", g⟩) ∧
      (∀ causes, result = .error (.fetch (.store causes)) →
        after = { t.view with
          loading := false, failure := some ⟨"table", (FetchError.store causes).message⟩ }) ∧
      (result = .ok .reload ∨ (∃ causes, result = .error (.fetch (.store causes))) ∨
        result = .error (.fetch .cancelled)) ∧
      (result = .error (.fetch .cancelled) →
        after = if slot.generation = g then { t.view with loading := false } else t.view) ∧
      (result ≠ .ok .reload → after.navigator = t.view.navigator)) ∧
    (∀ g, (t.handle (.expire g)).1.view = t.view) ∧ (t.handle .cancel).1.view = t.view := by
  intro whole t slot
  have accounts : t.desk.Accounts Sign whole.2 := run_accounts navigator deadline events
  have named : t.desk.Named "table" := run_named navigator deadline events
  refine ⟨⟨accounts.numbered, run_requests navigator deadline events, accounts.settled⟩,
    fun g pending => ?_, fun event g result told => ?_, fun g => (t.desk.expire_frame g).1, rfl⟩
  · have waits := accounts.pending_iff.mp pending
    exact ⟨putsIn_iff named waits, reply_finishes waits⟩
  · obtain ⟨waits, ends⟩ := (t.handle_turn event).finished named told
    refine ⟨accounts.pending_iff.mpr waits, ?_⟩
    rw [putsIn_iff named waits]
    rcases ends with ⟨page, rfl, live, rfl, view⟩ | ⟨causes, rfl, live, rfl, view⟩ | ⟨dead, rfl, view⟩
    · simp [slot, live]
    · simp [slot, live, view, View.failed]
    · simp [slot, dead, view, View.settled, apply_ite View.navigator]

/-- The page of a call that is superseded ends the call, and the view goes on loading. -/
example :
    let t := (controller.run (new default none) [.call .refresh, .call .refresh]).1
    let told := t.handle (.reply 1 (.ok .empty))
    told.2 = [.finished 1 (.error (.fetch .cancelled))] ∧ told.1.view = t.view ∧ t.view.loading = true :=
  ⟨rfl, rfl, rfl⟩

end RunQuery.Table
