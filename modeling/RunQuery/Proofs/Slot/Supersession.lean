import RunQuery.Proofs.Slot.Basic
import RunQuery.Slot.Operation
import Mathlib.Data.List.Basic

/-!
A ticket loses its power when a newer request takes its place. `log` writes down what a run of operations
does, and which of them were given a superseded ticket. The run without these ends in the same slot, up to
cancellations that nothing reads any more, and all other operations have the same answers.
-/
namespace RunQuery.Slot

variable {σ α : Type}

/-- Every request before the latest is cancelled. -/
def Superseding (slot : Slot σ) : Prop := ∀ g < slot.generation, g ∈ slot.cancelled

theorem new_superseding (name : String) (state : σ) : Superseding (new name state) := by
  intro g older
  simp [new] at older

def Answer.ticket? : Answer σ → Option Ticket
  | .issued ticket _ => some ticket
  | _ => none

/-- Tickets in the order in which they were handed out. -/
def issued (answers : List (Answer σ)) : List Ticket := answers.filterMap Answer.ticket?

/-- What an operation can do to generation and cancellations, whatever it does to the state. -/
inductive Turn (slot after : Slot σ) (handed : Option Ticket) : Prop where
  | stays (generation : after.generation = slot.generation)
      (cancelled : slot.cancelled ⊆ after.cancelled) (nothing : handed = none)
  | issues (generation : after.generation = slot.generation + 1)
      (cancelled : after.cancelled = slot.generation :: slot.cancelled)
      (ticket : handed = some ⟨slot.name, slot.generation + 1⟩)

theorem complete_turn (slot : Slot σ) (ticket : Ticket) (change : σ → σ) :
    Turn slot (slot.complete ticket change).1 none := by
  unfold complete
  split <;> exact .stays rfl (List.Subset.refl _) rfl

theorem settle_turn (slot : Slot σ) (ticket : Ticket) (change : σ → σ) :
    Turn slot (slot.settle ticket change).1 none := by
  unfold settle
  split <;> exact .stays rfl (List.Subset.refl _) rfl

theorem completeOrSettle_turn (slot : Slot σ) (ticket : Ticket) (apply settle : σ → σ) :
    Turn slot (slot.completeOrSettle ticket apply settle).1 none := by
  unfold completeOrSettle
  split <;> exact .stays rfl (List.Subset.refl _) rfl

theorem perform_turn (slot : Slot σ) (operation : Operation σ) :
    Turn slot (slot.perform operation).1 (slot.perform operation).2.ticket? := by
  cases operation with
  | begin change => exact .issues rfl rfl rfl
  | step change request =>
    cases request
    · exact .stays rfl (List.Subset.refl _) rfl
    · exact .issues rfl rfl rfl
  | update change => exact .stays rfl (List.Subset.refl _) rfl
  | complete ticket change => exact complete_turn slot ticket change
  | settle ticket change => exact settle_turn slot ticket change
  | completeOrSettle ticket apply settle => exact completeOrSettle_turn slot ticket apply settle
  | cancel => exact .stays rfl (List.subset_cons_self ..) rfl
  | cancelTicket ticket => exact .stays rfl (List.subset_cons_self ..) rfl

theorem Turn.superseding {slot after : Slot σ} {handed : Option Ticket}
    (turn : Turn slot after handed) (before : Superseding slot) : Superseding after := by
  intro g older
  cases turn with
  | stays same subset _ => exact subset (before g (same ▸ older))
  | issues next equal _ =>
    rw [equal]
    by_cases latest : g = slot.generation
    · exact latest ▸ List.mem_cons_self
    · exact List.mem_cons_of_mem _ (before g (by omega))

theorem run_superseding (slot : Slot σ) (operations : List (Operation σ)) (before : Superseding slot) :
    Superseding (slot.run operations).1 := by
  induction operations generalizing slot with
  | nil => exact before
  | cons operation rest ih => exact ih _ ((perform_turn slot operation).superseding before)

/-- A run hands out the next generations, one after another. -/
theorem run_issued (slot : Slot σ) (operations : List (Operation σ)) :
    (slot.run operations).1.generation = slot.generation + (issued (slot.run operations).2).length ∧
    (issued (slot.run operations).2).map Ticket.generation =
      List.range' (slot.generation + 1) (issued (slot.run operations).2).length := by
  induction operations generalizing slot with
  | nil => exact ⟨rfl, rfl⟩
  | cons operation rest ih =>
    obtain ⟨count, numbers⟩ := ih (slot.perform operation).1
    cases perform_turn slot operation with
    | stays same _ nothing =>
      rw [same] at count numbers
      simp only [run, issued, List.filterMap_cons, nothing]
      exact ⟨count, numbers⟩
    | issues next _ ticket =>
      rw [next] at count numbers
      simp only [run, issued, List.filterMap_cons, ticket, List.length_cons, List.map_cons,
        List.range'_succ]
      exact ⟨count.trans (by simp only [issued]; omega), congrArg (_ :: ·) numbers⟩

/-- Slots that differ at most in cancellations of superseded requests. -/
structure Agree (a b : Slot σ) : Prop where
  name : a.name = b.name
  state : a.state = b.state
  generation : a.generation = b.generation
  inFlight : a.inFlight = b.inFlight
  cancelled : ∀ g, a.generation ≤ g → (g ∈ a.cancelled ↔ g ∈ b.cancelled)

theorem Agree.refl (slot : Slot σ) : Agree slot slot := ⟨rfl, rfl, rfl, rfl, fun _ _ => Iff.rfl⟩

theorem Agree.symm {a b : Slot σ} (agree : Agree a b) : Agree b a :=
  ⟨agree.name.symm, agree.state.symm, agree.generation.symm, agree.inFlight.symm,
    fun g newer => (agree.cancelled g (agree.generation ▸ newer)).symm⟩

theorem Agree.trans {a b c : Slot σ} (first : Agree a b) (second : Agree b c) : Agree a c :=
  ⟨first.name.trans second.name, first.state.trans second.state,
    first.generation.trans second.generation, first.inFlight.trans second.inFlight,
    fun g newer => (first.cancelled g newer).trans (second.cancelled g (first.generation ▸ newer))⟩

theorem Agree.isCurrent {a b : Slot σ} (agree : Agree a b) (ticket : Ticket) :
    a.isCurrent ticket = b.isCurrent ticket := by
  simp [Slot.isCurrent, agree.generation]

theorem Agree.isCancelled {a b : Slot σ} (agree : Agree a b) {ticket : Ticket}
    (current : a.isCurrent ticket = true) : a.isCancelled ticket = b.isCancelled ticket := by
  have newest := isCurrent_iff.mp current
  have same := agree.cancelled ticket.generation (Nat.le_of_eq newest)
  simp [Slot.isCancelled, same]

theorem Agree.update {a b : Slot σ} (agree : Agree a b) (change : σ → σ) :
    Agree (a.update change) (b.update change) :=
  ⟨agree.name, congrArg change agree.state, agree.generation, agree.inFlight, agree.cancelled⟩

theorem Agree.finish {a b : Slot σ} (agree : Agree a b) (change : σ → σ) :
    Agree (a.finish change) (b.finish change) :=
  ⟨agree.name, congrArg change agree.state, agree.generation, rfl, agree.cancelled⟩

theorem Agree.cancelGeneration {a b : Slot σ} (agree : Agree a b) (g : Nat) :
    Agree (a.cancelGeneration g) (b.cancelGeneration g) :=
  ⟨agree.name, agree.state, agree.generation, agree.inFlight, fun k newer => by
    simp only [Slot.cancelGeneration, List.mem_cons]
    exact or_congr_right (agree.cancelled k newer)⟩

theorem Agree.issue {a b : Slot σ} (agree : Agree a b) :
    Agree a.issue.1 b.issue.1 ∧ a.issue.2 = b.issue.2 := by
  refine ⟨⟨agree.name, agree.state, congrArg (· + 1) agree.generation, rfl, fun g newer => ?_⟩, ?_⟩
  · have older : a.generation ≤ g := Nat.le_of_succ_le newer
    simp only [Slot.issue, Slot.cancel, Slot.cancelGeneration, List.mem_cons, agree.generation]
    exact or_congr_right (agree.cancelled g older)
  · simp [Slot.issue, agree.name, agree.generation]

/-- Slots in agreement answer an operation alike, whatever ticket it is given. -/
theorem Agree.perform {a b : Slot σ} (agree : Agree a b) (operation : Operation σ) :
    Agree (a.perform operation).1 (b.perform operation).1 ∧
    (a.perform operation).2 = (b.perform operation).2 := by
  have same := agree.isCurrent
  cases operation with
  | begin change =>
    obtain ⟨issued, ticket⟩ := (agree.update change).issue
    simp only [Slot.perform, Slot.begin]
    exact ⟨issued, by rw [ticket, agree.state]⟩
  | step change request =>
    obtain ⟨issued, ticket⟩ := (agree.update change).issue
    cases request with
    | false => exact ⟨agree.update change, rfl⟩
    | true =>
      refine ⟨issued, ?_⟩
      simp only [Slot.perform, Slot.step, agree.state, if_true, Option.elim_some]
      exact congrArg (Answer.issued · b.state) ticket
  | update change => exact ⟨agree.update change, rfl⟩
  | complete ticket change =>
    simp only [Slot.perform, Slot.complete, ← same ticket]
    cases current : a.isCurrent ticket with
    | false => simpa using agree
    | true =>
      rw [← agree.isCancelled current]
      cases a.isCancelled ticket with
      | false => exact ⟨agree.finish change, rfl⟩
      | true => exact ⟨agree, rfl⟩
  | settle ticket change =>
    simp only [Slot.perform, Slot.settle, ← same ticket]
    cases a.isCurrent ticket with
    | false => exact ⟨agree, rfl⟩
    | true => exact ⟨agree.finish change, rfl⟩
  | completeOrSettle ticket apply settle =>
    simp only [Slot.perform, Slot.completeOrSettle, ← same ticket]
    cases current : a.isCurrent ticket with
    | false => exact ⟨agree, rfl⟩
    | true =>
      rw [← agree.isCancelled current]
      exact ⟨agree.finish _, rfl⟩
  | cancel =>
    refine ⟨?_, rfl⟩
    simp only [Slot.perform, Slot.cancel, ← agree.generation]
    exact agree.cancelGeneration _
  | cancelTicket ticket => exact ⟨agree.cancelGeneration _, rfl⟩

/-- The operation is given the ticket of a request that a newer one has taken the place of. -/
def isStale (slot : Slot σ) (operation : Operation σ) : Bool :=
  operation.ticket?.any fun ticket => ticket.generation < slot.generation

def Operation.isCompletion : Operation σ → Bool
  | .complete _ _ => true
  | .settle _ _ => true
  | .completeOrSettle _ _ _ => true
  | _ => false

/-- A stale operation changes nothing that counts, and a stale completion says so. -/
theorem perform_stale {slot : Slot σ} {operation : Operation σ} (stale : slot.isStale operation = true) :
    Agree slot (slot.perform operation).1 ∧
    (operation.isCompletion = true → (slot.perform operation).2 = .applied false) := by
  have past (ticket : Ticket) (older : ticket.generation < slot.generation) :
      slot.isCurrent ticket = false := by
    simp only [isCurrent, decide_eq_false_iff_not]; omega
  cases operation with
  | begin change => simp [isStale, Operation.ticket?] at stale
  | step change request => simp [isStale, Operation.ticket?] at stale
  | update change => simp [isStale, Operation.ticket?] at stale
  | cancel => simp [isStale, Operation.ticket?] at stale
  | complete ticket change =>
    have older : ticket.generation < slot.generation := by simpa [isStale, Operation.ticket?] using stale
    simp [perform, complete, past ticket older, Agree.refl]
  | settle ticket change =>
    have older : ticket.generation < slot.generation := by simpa [isStale, Operation.ticket?] using stale
    simp [perform, settle, past ticket older, Agree.refl]
  | completeOrSettle ticket apply settle =>
    have older : ticket.generation < slot.generation := by simpa [isStale, Operation.ticket?] using stale
    simp [perform, completeOrSettle, past ticket older, Agree.refl]
  | cancelTicket ticket =>
    have older : ticket.generation < slot.generation := by simpa [isStale, Operation.ticket?] using stale
    refine ⟨⟨rfl, rfl, rfl, rfl, fun g newer => ?_⟩, by simp [Operation.isCompletion]⟩
    have other : g ≠ ticket.generation := by omega
    simp [perform, cancelTicket, cancelGeneration, other]

structure Entry (σ : Type) where
  operation : Operation σ
  /-- The operation was stale when its turn came. -/
  stale : Bool
  answer : Answer σ

/-- What a run does, operation by operation. -/
def log (slot : Slot σ) : List (Operation σ) → List (Entry σ)
  | [] => []
  | operation :: rest =>
    let done := slot.perform operation
    ⟨operation, slot.isStale operation, done.2⟩ :: log done.1 rest

theorem log_operations (slot : Slot σ) (operations : List (Operation σ)) :
    (slot.log operations).map Entry.operation = operations := by
  induction operations generalizing slot with
  | nil => rfl
  | cons operation rest ih => exact congrArg (operation :: ·) (ih _)

theorem log_answers (slot : Slot σ) (operations : List (Operation σ)) :
    (slot.log operations).map Entry.answer = (slot.run operations).2 := by
  induction operations generalizing slot with
  | nil => rfl
  | cons operation rest ih => exact congrArg (_ :: ·) (ih _)

theorem log_stale (slot : Slot σ) (operations : List (Operation σ)) (entry : Entry σ)
    (member : entry ∈ slot.log operations) (stale : entry.stale = true)
    (completion : entry.operation.isCompletion = true) : entry.answer = .applied false := by
  induction operations generalizing slot with
  | nil => simp [log] at member
  | cons operation rest ih =>
    rcases List.mem_cons.mp member with rfl | later
    · exact (perform_stale stale).2 completion
    · exact ih _ later

/-- What is left of a log without the stale operations. -/
def kept (log : List (Entry σ)) : List (Entry σ) := log.filter fun entry => !entry.stale

/-- Without its stale operations a run goes through slots in agreement, with the same answers. -/
theorem run_kept {a b : Slot σ} (agree : Agree a b) (operations : List (Operation σ)) :
    Agree (a.run operations).1 (b.run ((kept (a.log operations)).map Entry.operation)).1 ∧
    (b.run ((kept (a.log operations)).map Entry.operation)).2 =
      (kept (a.log operations)).map Entry.answer := by
  induction operations generalizing a b with
  | nil => exact ⟨agree, rfl⟩
  | cons operation rest ih =>
    cases stale : a.isStale operation with
    | true =>
      -- the run without the operation stays where it is
      have still : Agree (a.perform operation).1 b := (perform_stale stale).1.symm.trans agree
      simpa only [run, log, kept, List.filter_cons, stale, Bool.not_true, Bool.false_eq_true,
        if_false] using ih still
    | false =>
      obtain ⟨after, answer⟩ := agree.perform operation
      obtain ⟨end_, answers⟩ := ih after
      simp only [run, log, kept, List.filter_cons, stale, Bool.not_false, if_true, List.map_cons]
      exact ⟨end_, by rw [answer]; exact congrArg (_ :: ·) answers⟩

theorem outcome_of_ne_cancelled {slot : Slot σ} {ticket : Ticket} {reply : Reply α}
    (told : slot.outcome ticket reply ≠ .error .cancelled) :
    slot.isCurrent ticket = true ∧ slot.isCancelled ticket = false ∧
      slot.outcome ticket reply = reply.mapError .store := by
  unfold outcome at told ⊢
  cases cancelled : slot.isCancelled ticket <;> cases current : slot.isCurrent ticket <;>
    simp_all

/-- For every run of operations on a new slot, whatever tickets they are given. Generations count the
requests from one, so that they stay below any bound that the number of requests stays below. -/
theorem superseded_tickets_powerless (name : String) (state : σ) (operations : List (Operation σ)) :
    let slot := new name state
    let log := slot.log operations
    let whole := slot.run operations
    let rest := slot.run ((kept log).map Entry.operation)
    -- the log is that of the run
    (log.map Entry.operation = operations ∧ log.map Entry.answer = whole.2) ∧
    -- the run without the stale operations
    (rest.1.state = whole.1.state ∧ rest.1.generation = whole.1.generation ∧
      rest.1.inFlight = whole.1.inFlight) ∧
    (∀ ticket, whole.1.isCurrent ticket = true →
      rest.1.isCancelled ticket = whole.1.isCancelled ticket) ∧
    rest.2 = (kept log).map Entry.answer ∧
    (∀ entry ∈ log, entry.stale = true → entry.operation.isCompletion = true →
      entry.answer = .applied false) ∧
    -- tickets of the run
    (issued whole.2).map Ticket.generation = List.range' 1 whole.1.generation ∧
    (∀ ticket ∈ issued whole.2, whole.1.isCurrent ticket = false → whole.1.isCancelled ticket = true) ∧
    (∀ (ticket : Ticket) (reply : Reply α), whole.1.outcome ticket reply ≠ .error .cancelled →
      whole.1.isCurrent ticket = true ∧ whole.1.isCancelled ticket = false ∧
      whole.1.outcome ticket reply = reply.mapError .store) := by
  intro slot log whole rest
  obtain ⟨agree, answers⟩ := run_kept (Agree.refl slot) operations
  obtain ⟨count, numbers⟩ := run_issued slot operations
  have superseding : Superseding whole.1 :=
    run_superseding slot operations (new_superseding name state)
  have total : whole.1.generation = (issued whole.2).length := count.trans (Nat.zero_add _)
  refine ⟨⟨log_operations .., log_answers ..⟩,
    ⟨agree.state.symm, agree.generation.symm, agree.inFlight.symm⟩,
    fun ticket current => (agree.isCancelled current).symm, answers, ?_, ?_, ?_, ?_⟩
  · exact fun entry member stale completion => log_stale slot operations entry member stale completion
  · rw [total]
    exact numbers
  · intro ticket member older
    have number : ticket.generation ∈ List.range' 1 whole.1.generation := by
      rw [total]
      exact numbers ▸ List.mem_map_of_mem member
    have bound := (List.mem_range'_1.mp number).2
    have other : whole.1.generation ≠ ticket.generation := by simpa [isCurrent] using older
    exact isCancelled_iff.mpr (superseding _ (by omega))
  · exact fun ticket reply told => outcome_of_ne_cancelled told

end RunQuery.Slot
