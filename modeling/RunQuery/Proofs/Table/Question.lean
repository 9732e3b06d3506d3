import RunQuery.Proofs.Navigator.Moves
import RunQuery.Proofs.Table.Turn

/-!
The page shown answers the question shown. A table makes a request whenever the request of its navigator
changes, so that the latest request is always the one that the navigator would send now, and the page that
is put in is the answer to it.
-/
namespace RunQuery

namespace Navigator

/-- An action that asks for no page does not change what would be asked for. -/
theorem apply_none {nav next : Navigator} {action : Action}
    (applied : nav.apply action = .ok (next, .none)) : next.toRequest = nav.toRequest := by
  cases action with
  | nextPage => rw [nav.reloadOr_request _ (Except.ok.inj applied) rfl]
  | previousPage => rw [nav.reloadOr_request _ (Except.ok.inj applied) rfl]
  | toggleRow id => cases applied; rfl
  | toggleAll => cases applied; rfl
  | editFilter path replacement =>
    obtain ⟨after, -, same⟩ := map_eq_ok applied
    cases same
  | _ => simp [apply] at applied

/-- An action that changes what would be asked for asks for it. -/
theorem apply_reload {nav next : Navigator} {action : Action} {effect : Effect}
    (applied : nav.apply action = .ok (next, effect)) (changed : next.toRequest ≠ nav.toRequest) :
    effect = .reload := by
  cases effect with
  | reload => rfl
  | none => exact absurd (apply_none applied) changed

end Navigator

namespace Table

/-- The reply to the request of a generation is put in as the page, and its call ends well. -/
def Installs (t : Table) (generation : Nat) (page : Page) : Prop :=
  (t.handle (.reply generation (.ok page))).2 = [.finished generation (.ok .reload)]

/-- What a table has asked for, and what it shows. -/
structure Asking (t : Table) (requests : List (Nat × Request)) : Prop where
  /-- The latest request is the one that the navigator would send now. -/
  latest : ∀ last, requests.getLast? = some last →
    last = (t.desk.slot.generation, t.view.navigator.toRequest)
  /-- No request is on its way that was not made. -/
  made : t.desk.slot.inFlight = true → requests ≠ []
  waiting : ∀ w ∈ t.desk.waiting, (w.ticket.generation, w.work) ∈ requests

/-- A step that makes no request and leaves the question as it is. -/
theorem Asking.still {t after : Table} {requests : List (Nat × Request)} (asking : Asking t requests)
    (generation : after.desk.slot.generation = t.desk.slot.generation)
    (question : after.view.navigator.toRequest = t.view.navigator.toRequest)
    (flying : after.desk.slot.inFlight = true → t.desk.slot.inFlight = true)
    (waiting : after.desk.waiting ⊆ t.desk.waiting) : Asking after (requests ++ []) := by
  rw [List.append_nil]
  refine ⟨fun last newest => ?_, fun on => asking.made (flying on),
    fun w member => asking.waiting w (waiting member)⟩
  rw [generation, question]
  exact asking.latest last newest

theorem Turn.asking {t after : Table} {event : Event} {notices : List (Notice Nat Result)}
    {requests : List (Nat × Request)} (turn : Turn t event after notices) (asking : Asking t requests) :
    Asking after (requests ++ Notice.requests notices) := by
  cases turn with
  | refused _ => exact asking.still rfl rfl id (List.Subset.refl _)
  | moved applied => exact asking.still rfl (Navigator.apply_none applied) id (List.Subset.refl _)
  | @asked action next applied =>
    have one : Notice.requests (ρ := Result) ([.started (t.desk.slot.generation + 1)] ++
        (t.deadline.map (Notice.alarm (t.desk.slot.generation + 1))).toList ++
        [.asked (t.desk.slot.generation + 1) next.toRequest]) =
          [(t.desk.slot.generation + 1, next.toRequest)] := by
      cases t.deadline <;> rfl
    rw [one]
    refine ⟨fun last newest => ?_, fun _ => by simp, fun w member => ?_⟩
    · rw [List.getLast?_concat, Option.some.injEq] at newest
      exact newest.symm
    · rcases List.mem_append.mp member with before | new
      · exact List.mem_append_left _ (asking.waiting w before)
      · rw [List.mem_singleton.mp new]
        exact List.mem_append_right _ List.mem_cons_self
  | unheard _ => exact asking.still rfl rfl id (List.Subset.refl _)
  | asleep _ => exact asking.still rfl rfl id (List.Subset.refl _)
  | loaded _ => exact asking.still rfl rfl (fun on => by cases on) fun _ => Desk.mem_waiting_ended
  | failed _ => exact asking.still rfl rfl (fun on => by cases on) fun _ => Desk.mem_waiting_ended
  | @dropped w _ _ _ _ =>
    exact asking.still (t.desk.settledSlot_generation View.settled w) (congrArg _ (t.settled_navigator w))
      Desk.settledSlot_inFlight fun _ => Desk.mem_waiting_ended
  | @expired g =>
    obtain ⟨state, generation, inFlight, waiting⟩ := t.desk.expire_frame g
    exact asking.still generation (congrArg (fun view => view.navigator.toRequest) state)
      (fun on => inFlight ▸ on) fun w member => waiting ▸ member
  | cancelled => exact asking.still rfl rfl id (List.Subset.refl _)

theorem run_asking (navigator : Navigator) (deadline : Option Nat) (events : List Event) :
    let told := controller.run (new navigator deadline) events
    Asking told.1 (Notice.requests told.2) := by
  induction events using List.reverseRecOn with
  | nil => exact ⟨fun last newest => (by cases newest), fun on => (by cases on), fun w member => (by cases member)⟩
  | append_singleton events event ih =>
    simp only [run_concat, Notice.requests_append]
    exact (handle_turn _ event).asking ih

theorem Installs.loaded {t : Table} {g : Nat} {page : Page} (installs : t.Installs g page) :
    ∃ w, t.desk.live? = some w ∧ w.ticket.generation = g ∧
      (t.handle (.reply g (.ok page))).1 = t.ended w (t.desk.slot.finish (View.loaded page)) := by
  have turn := t.handle_turn (.reply g (.ok page))
  unfold Installs at installs
  rw [installs] at turn
  generalize (t.handle (.reply g (.ok page))).1 = after at turn
  cases turn with
  | loaded live => exact ⟨_, live, rfl, rfl⟩

/-- A page comes by a reply that is put in, and by nothing else. -/
theorem handle_page {t : Table} {event : Event}
    (changed : (t.handle event).1.view.navigator.page ≠ t.view.navigator.page) :
    ∃ g page, event = .reply g (.ok page) ∧ t.Installs g page := by
  have turn := t.handle_turn event
  generalize same : (t.handle event).2 = notices at turn
  generalize (t.handle event).1 = after at turn changed
  cases turn with
  | loaded live => exact ⟨_, _, rfl, same⟩
  | moved applied => exact absurd (Navigator.apply_page applied) changed
  | asked applied => exact absurd (Navigator.apply_page applied) changed
  | @dropped w _ _ _ _ => exact absurd (congrArg Navigator.page (t.settled_navigator w)) changed
  | @expired g =>
    exact absurd (congrArg (fun view => view.navigator.page) (t.desk.expire_frame g).1) changed
  | _ => exact absurd rfl changed

/-- While a page is loaded the latest request is that of the navigator; a page that is put in answers the
request of the navigator that shows it; and an action asks for a page whenever it changes the request. -/
theorem page_answers_request (navigator : Navigator) (deadline : Option Nat) (events : List Event) :
    let told := controller.run (new navigator deadline) events
    let t := told.1
    let requests := Notice.requests told.2
    (t.desk.slot.inFlight = true → t.view.loading = true →
      requests.getLast? = some (t.desk.slot.generation, t.view.navigator.toRequest)) ∧
    (∀ g page, t.Installs g page →
      let after := (t.handle (.reply g (.ok page))).1
      after.view.navigator.page = page ∧
      (∃ request, (g, request) ∈ requests) ∧
      ∀ request, (g, request) ∈ requests → request = after.view.navigator.toRequest) ∧
    (∀ event, (t.handle event).1.view.navigator.page ≠ t.view.navigator.page →
      ∃ g page, event = .reply g (.ok page) ∧ t.Installs g page) ∧
    (∀ (nav next : Navigator) (action : Navigator.Action) (effect : Effect),
      nav.apply action = .ok (next, effect) →
      (effect = .none → next.toRequest = nav.toRequest) ∧
      (next.toRequest ≠ nav.toRequest → effect = .reload)) := by
  intro told t requests
  have asking : Asking t requests := run_asking navigator deadline events
  have numbers : requests.map Prod.fst = List.range' 1 t.desk.slot.generation :=
    run_requests navigator deadline events
  refine ⟨fun flying _ => ?_, fun g page installs => ?_, fun event changed => handle_page changed, ?_⟩
  · cases newest : requests.getLast? with
    | none => exact absurd (List.getLast?_eq_none_iff.mp newest) (asking.made flying)
    | some last => rw [asking.latest last newest]
  · obtain ⟨w, live, rfl, same⟩ := installs.loaded
    obtain ⟨found, alive⟩ := Desk.live?_eq_some_iff.mp live
    have member := asking.waiting w (Desk.find?_some found).1
    simp only [same]
    refine ⟨rfl, ⟨w.work, member⟩, fun request asked => ?_⟩
    -- one request has this number, and the latest request has it
    have unique : (requests.map Prod.fst).Nodup := numbers ▸ List.nodup_range'
    cases newest : requests.getLast? with
    | none => simp [List.getLast?_eq_none_iff.mp newest] at asked
    | some last =>
      have latest := asking.latest last newest
      have key : w.ticket.generation = last.1 := by
        rw [latest]
        exact (Slot.isLive_iff.mp alive).1.symm
      have pair := List.inj_on_of_nodup_map unique asked (List.mem_of_getLast? newest) key
      exact congrArg Prod.snd (pair.trans latest)
  · rintro nav next action effect applied
    refine ⟨?_, Navigator.apply_reload applied⟩
    rintro rfl
    exact Navigator.apply_none applied

/-- The reply to a first request is put in. -/
example : ((controller.run (new default none) [.call .refresh]).1).Installs 1 Page.empty := rfl

end Table

end RunQuery
