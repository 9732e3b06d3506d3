import RunQuery.Proofs.Navigator.Moves
import RunQuery.Proofs.Table.Outcome

/-!
Edits that a table refuses. A path is of no use if there is no predicate, or if it leads to no node of the one that
stands; nothing else is refused. The call of such an edit is answered and leaves nothing behind, also while a page is on
its way. Main statement: a run goes on as if the edits that were refused in it had not been asked for.
-/
namespace RunQuery

/-- The notice that an edit was refused. -/
def Notice.isRefusal {κ : Type} : Notice κ Table.Result → Bool
  | .answered (.error (.edit _)) => true
  | _ => false

namespace Table

/-- The action of a call is refused. -/
def refuses (t : Table) : Event → Bool
  | .call action => !(t.view.navigator.apply action).isOk
  | _ => false

/-- The events of a run without the edits that are refused in it. -/
def heeded (t : Table) : List Event → List Event
  | [] => []
  | event :: rest => if t.refuses event then heeded t rest else event :: heeded (t.handle event).1 rest

section Turns

variable {t after : Table} {event : Event} {notices : List (Notice Nat Result)} {error : EditError}

theorem handle_refused {action : Navigator.Action} (applied : t.view.navigator.apply action = .error error) :
    t.handle (.call action) = (t, [.answered (.error (.edit error))]) := by
  show t.call action = _
  unfold call
  rw [step_refused applied, applied]

/-- An edit is refused by a call whose action fails, and by nothing else. -/
theorem Turn.refusal (turn : Turn t event after notices) (told : .answered (.error (.edit error)) ∈ notices) :
    ∃ action, event = .call action ∧ t.view.navigator.apply action = .error error := by
  cases turn with
  | refused applied =>
    cases List.mem_singleton.mp told
    exact ⟨_, rfl, applied⟩
  | moved _ => simp at told
  | asked _ => cases deadline : t.deadline <;> simp [deadline] at told
  | unheard _ => simp at told
  | asleep _ => simp at told
  | loaded _ => simp at told
  | failed _ => simp at told
  | dropped _ _ _ => simp at told
  | expired => simp at told
  | cancelled => simp at told

theorem refusal_mem_iff {action : Navigator.Action} :
    .answered (.error (.edit error)) ∈ (t.handle (.call action)).2 ↔ t.view.navigator.apply action = .error error := by
  constructor
  · intro told
    obtain ⟨_, same, applied⟩ := (t.handle_turn _).refusal told
    cases same
    exact applied
  · intro applied
    rw [handle_refused applied]
    exact List.mem_singleton_self _

theorem handle_of_refuses (refuses : t.refuses event = true) :
    ∃ error, t.handle event = (t, [.answered (.error (.edit error))]) := by
  cases event with
  | call action =>
    cases applied : t.view.navigator.apply action with
    | error error => exact ⟨error, handle_refused applied⟩
    | ok moved => simp [Table.refuses, applied, Except.isOk, Except.toBool] at refuses
  | _ => cases refuses

/-- A step that is heeded says nothing of refused edits. -/
theorem handle_of_heeded (heeds : t.refuses event = false) : ∀ n ∈ (t.handle event).2, n.isRefusal = false := by
  intro n told
  match n with
  | .answered (.error (.edit error)) =>
    obtain ⟨action, rfl, applied⟩ := (t.handle_turn event).refusal told
    simp [Table.refuses, applied, Except.isOk, Except.toBool] at heeds
  | .answered (.error (.fetch _)) => rfl
  | .answered (.ok _) => rfl
  | .started _ => rfl
  | .alarm _ _ => rfl
  | .asked _ _ => rfl
  | .finished _ _ => rfl

end Turns

/-- Edits that are refused can be left out of a run: the table is the same in the end, and nothing else is said. -/
theorem run_heeded (t : Table) (events : List Event) :
    controller.run t (t.heeded events) =
      ((controller.run t events).1, (controller.run t events).2.filter fun n => !n.isRefusal) := by
  induction events generalizing t with
  | nil => rfl
  | cons event rest ih =>
    cases refuses : t.refuses event with
    | true =>
      obtain ⟨error, handled⟩ := handle_of_refuses refuses
      have handled : controller.handle t event = (t, [.answered (.error (.edit error))]) := handled
      simp [heeded, refuses, ih, Controller.run, handled, Notice.isRefusal]
    | false =>
      have silent : (controller.handle t event).2.filter (fun n => !n.isRefusal) = (controller.handle t event).2 :=
        List.filter_eq_self.mpr fun n told => by simp [handle_of_heeded refuses n told]
      have later := ih (controller.handle t event).1
      simp only [heeded, refuses, Bool.false_eq_true, if_false, Controller.run, List.filter_append, silent]
      exact congrArg (fun told => (told.1, (controller.handle t event).2 ++ told.2)) later

/-- An edit of the filter that is refused leaves no trace, whatever calls, replies, cancellations and deadlines came
before and come later. It is refused if and only if no predicate stands or an edit of the one that stands fails, with
its error, and so exactly if the path leads to no node of it. The call is answered at once and that is all: the view,
the generation, the flag, the tickets and the requests that wait are what they were, no request is made, and the page of
a call that waits is put in exactly if its ticket was live. The run goes on as if there had been no such call; and all
refused edits together can be left out of a run. -/
theorem refused_edit_leaves_no_trace (navigator : Navigator) (deadline : Option Nat) (events : List Event) (path : Path)
    (replacement : Option Predicate) :
    let begun := new navigator deadline
    let told := controller.run begun events
    let t := told.1
    let edit : Event := .call (.editFilter path replacement)
    let standing := t.view.navigator.standing?
    (∀ error, .answered (.error (.edit error)) ∈ (t.handle edit).2 ↔
      standing = none ∧ error = .invalidPath path ∨
      ∃ root, standing = some root ∧ root.replaceAt path replacement = .error error) ∧
    ((∃ error, .answered (.error (.edit error)) ∈ (t.handle edit).2) ↔
      ∀ root, standing = some root → root.at? path = none) ∧
    (∀ error, .answered (.error (.edit error)) ∈ (t.handle edit).2 →
      t.handle edit = (t, [.answered (.error (.edit error))]) ∧
      (∀ g, Notice.Pending told.2 g → ((t.handle edit).1.PutsIn g ↔ t.desk.slot.IsLive ⟨"table", g⟩)) ∧
      ∀ later, controller.run begun (events ++ edit :: later) =
        ((controller.run begun (events ++ later)).1,
          told.2 ++ .answered (.error (.edit error)) :: (controller.run t later).2)) ∧
    controller.run begun (begun.heeded events) = (t, told.2.filter fun n => !n.isRefusal) := by
  intro begun told t edit standing
  have named : t.desk.Named "table" := run_named navigator deadline events
  have accounts : t.desk.Accounts Sign told.2 := run_accounts navigator deadline events
  refine ⟨fun error => ?_, ?_, fun error refused => ?_, run_heeded begun events⟩
  · rw [refusal_mem_iff, Navigator.apply_edit_eq_error_iff]
    exact Navigator.editFilter_eq_error_iff
  · simp only [edit, refusal_mem_iff, Navigator.apply_edit_eq_error_iff]
    exact Navigator.exists_editFilter_error_iff
  · have handled := handle_refused (refusal_mem_iff.mp refused)
    refine ⟨handled, fun g pending => ?_, fun later => ?_⟩
    · rw [handled]
      exact putsIn_iff named (accounts.pending_iff.mp pending)
    · have handled : controller.handle told.1 edit = (told.1, [.answered (.error (.edit error))]) := handled
      rw [Controller.run_append, Controller.run_append, Controller.run, handled]
      rfl

/-- An edit below a comparison while the first page is on its way. -/
theorem refused_edit_leaves_no_trace_of_reload :
    let standing : Filter := ⟨some (.compare ⟨"status", .eq, .literal (.text "ok")⟩), .empty⟩
    let begun := new { Navigator.new default with filter := some standing } (some 5)
    let t := (controller.run begun [.call .refresh]).1
    let edit : Event := .call (.editFilter [0] none)
    .answered (.error (.edit (.invalidPath [0]))) ∈ (t.handle edit).2 ∧ t.desk.slot.inFlight = true ∧
    t.handle edit = (t, [.answered (.error (.edit (.invalidPath [0])))]) ∧ (t.handle edit).1.PutsIn 1 := by
  intro standing begun t edit
  have refused : .answered (.error (.edit (.invalidPath [0]))) ∈ (t.handle edit).2 := List.mem_singleton_self _
  have pending : Notice.Pending (controller.run begun [.call .refresh]).2 1 := ⟨List.mem_cons_self, List.not_mem_nil⟩
  obtain ⟨-, -, unchanged, -⟩ := refused_edit_leaves_no_trace { Navigator.new default with filter := some standing }
    (some 5) [.call .refresh] [0] none
  obtain ⟨same, puts, -⟩ := unchanged (.invalidPath [0]) refused
  exact ⟨refused, rfl, same, (puts 1 pending).mpr ⟨rfl, rfl⟩⟩

end Table

end RunQuery
