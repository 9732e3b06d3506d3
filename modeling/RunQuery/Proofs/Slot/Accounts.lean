import RunQuery.Proofs.Controller
import RunQuery.Proofs.Slot.Desk

/-!
The calls of a controller that has a desk, and the sign by which it shows that it is busy. `Step` tells a step
by the calls that are started and done in it. A call that was started is done once, or its request waits; and
the sign is up exactly while the request of the latest call waits.
-/
namespace RunQuery.Desk

variable {σ ω κ ρ : Type}

/-- One step of a controller at its desk. `Sign slot up` holds if the slot shows that it is busy, or that
it is not. -/
inductive Step (Sign : Slot σ → Bool → Prop) (d : Desk σ ω) : Desk σ ω → List (Notice κ ρ) → Prop where
  | kept {after : Desk σ ω} {notices : List (Notice κ ρ)}
      (generation : after.slot.generation = d.slot.generation) (waiting : after.generations = d.generations)
      (sign : ∀ up, Sign d.slot up → Sign after.slot up)
      (calls : Notice.calls notices = []) (ended : Notice.ended notices = []) : Step Sign d after notices
  /-- A call is started that has to wait. -/
  | begun {after : Desk σ ω} {notices : List (Notice κ ρ)}
      (generation : after.slot.generation = d.slot.generation + 1)
      (waiting : after.generations = d.generations ++ [d.slot.generation + 1])
      (sign : Sign after.slot true)
      (calls : Notice.calls notices = [d.slot.generation + 1]) (ended : Notice.ended notices = []) :
      Step Sign d after notices
  /-- A call is started and done at once. -/
  | passed {after : Desk σ ω} {notices : List (Notice κ ρ)}
      (generation : after.slot.generation = d.slot.generation + 1) (waiting : after.generations = d.generations)
      (sign : Sign after.slot false)
      (calls : Notice.calls notices = [d.slot.generation + 1])
      (ended : Notice.ended notices = [d.slot.generation + 1]) : Step Sign d after notices
  /-- A request ends. Only the latest one can take the sign down. -/
  | done {after : Desk σ ω} {notices : List (Notice κ ρ)} {g : Nat} (waits : g ∈ d.generations)
      (generation : after.slot.generation = d.slot.generation)
      (waiting : after.generations = d.generations.filter (· ≠ g))
      (latest : d.slot.generation = g → Sign after.slot false)
      (older : d.slot.generation ≠ g → ∀ up, Sign d.slot up → Sign after.slot up)
      (calls : Notice.calls notices = []) (ended : Notice.ended notices = [g]) : Step Sign d after notices

section Ends

variable {Sign : Slot σ → Bool → Prop} {d : Desk σ ω} {w : Waiting ω}

theorem Step.finished (live : d.live? = some w) {change : σ → σ} (sign : Sign (d.slot.finish change) false)
    (result : ρ) :
    d.Step Sign (d.ended w (d.slot.finish change)) ([.finished w.ticket.generation result] : List (Notice κ ρ)) :=
  .done (live?_generation live ▸ mem_of_live? live) rfl (generations_drop ..) (fun _ => sign)
    (fun older => absurd (live?_generation live) older) rfl rfl

theorem Step.dropped (found : d.find? w.ticket.generation = some w) {settled : σ → σ}
    (sign : Sign (d.slot.finish settled) false) (result : ρ) :
    d.Step Sign (d.ended w (d.settledSlot settled w))
      ([.finished w.ticket.generation result] : List (Notice κ ρ)) := by
  refine .done (List.mem_map_of_mem (find?_some found).1) (settledSlot_generation ..) (generations_drop ..)
    (fun latest => ?_) (fun older up shown => ?_) rfl rfl
  · show Sign (d.settledSlot settled w) false
    rw [settledSlot, if_pos (Slot.isCurrent_iff.mpr latest)]
    exact sign
  · show Sign (d.settledSlot settled w) up
    rw [settledSlot, if_neg fun current => older (Slot.isCurrent_iff.mp current)]
    exact shown

end Ends

/-- What is known of a desk and of all that was said at it. -/
structure Accounts (Sign : Slot σ → Bool → Prop) (d : Desk σ ω) (notices : List (Notice κ ρ)) : Prop where
  numbered : Notice.calls notices = List.range' 1 d.slot.generation
  settled : (Notice.calls notices).Perm (Notice.ended notices ++ d.generations)
  sign : Sign d.slot (d.slot.generation ∈ d.generations)

variable {Sign : Slot σ → Bool → Prop} {d after : Desk σ ω} {earlier notices : List (Notice κ ρ)}

/-- What waits after a step waited before or was started in it, and has not ended in it. -/
theorem Step.waits (step : d.Step Sign after notices) (sound : d.Sound) {g : Nat}
    (waits : g ∈ after.generations) :
    g ∉ Notice.ended notices ∧ (g ∈ d.generations ∨ g ∈ Notice.calls notices) := by
  cases step with
  | kept generation waiting sign calls ended =>
    rw [waiting] at waits
    simp [ended, waits]
  | begun generation waiting sign calls ended =>
    rw [waiting, List.mem_append] at waits
    simpa [ended, calls] using waits
  | passed generation waiting sign calls ended =>
    rw [waiting] at waits
    have other : g ≠ d.slot.generation + 1 := fun newest => sound.fresh (newest ▸ waits)
    simp [ended, waits, other]
  | done _ generation waiting latest older calls ended =>
    rw [waiting, List.mem_filter, decide_eq_true_eq] at waits
    simp [ended, waits]

/-- A step starts one call at most. -/
theorem Step.calls_eq (step : d.Step Sign after notices) {g : Nat} (started : g ∈ Notice.calls notices) :
    Notice.calls notices = [g] := by
  cases step with
  | kept _ _ _ calls _ => simp [calls] at started
  | begun _ _ _ calls _ => simp_all
  | passed _ _ _ calls _ => simp_all
  | done _ _ _ _ _ calls _ => simp [calls] at started

theorem new_accounts (name : String) {state : σ} (sign : Sign (Slot.new name state) false) :
    (new name state : Desk σ ω).Accounts Sign ([] : List (Notice κ ρ)) :=
  ⟨rfl, .nil, sign⟩

theorem perm_filter_ne {l : List Nat} {g : Nat} (unique : l.Nodup) (member : g ∈ l) :
    l.Perm (g :: l.filter (· ≠ g)) := by
  have erased := List.perm_cons_erase member
  rw [unique.erase_eq_filter] at erased
  exact erased.trans (.of_eq (congrArg (g :: ·) (List.filter_congr fun k _ => Bool.eq_iff_iff.mpr (by simp))))

/-- Calls are numbered from one. -/
theorem Step.numbered (step : d.Step Sign after notices) :
    List.range' 1 d.slot.generation ++ Notice.calls notices = List.range' 1 after.slot.generation := by
  cases step with
  | kept generation _ _ calls _ => rw [calls, generation, List.append_nil]
  | begun generation _ _ calls _ => rw [calls, generation, List.range'_concat, Nat.one_mul, Nat.add_comm]
  | passed generation _ _ calls _ => rw [calls, generation, List.range'_concat, Nat.one_mul, Nat.add_comm]
  | done _ generation _ _ _ calls _ => rw [calls, generation, List.append_nil]

/-- What waited before a step or was started in it has ended in it or still waits. -/
theorem Step.perm (step : d.Step Sign after notices) (sound : d.Sound) :
    (d.generations ++ Notice.calls notices).Perm (Notice.ended notices ++ after.generations) := by
  cases step with
  | kept _ waiting _ calls ended => rw [calls, ended, waiting, List.append_nil, List.nil_append]
  | begun _ waiting _ calls ended => rw [calls, ended, waiting, List.nil_append]
  | passed _ waiting _ calls ended =>
    rw [calls, ended, waiting]
    exact List.perm_append_comm
  | done waits _ waiting _ _ calls ended =>
    rw [calls, ended, waiting, List.append_nil]
    exact perm_filter_ne sound.unique waits

theorem Step.shows (step : d.Step Sign after notices) (sound : d.Sound)
    (sign : Sign d.slot (d.slot.generation ∈ d.generations)) :
    Sign after.slot (after.slot.generation ∈ after.generations) := by
  cases step with
  | kept generation waiting same _ _ =>
    rw [generation, waiting]
    exact same _ sign
  | begun generation waiting up _ _ =>
    rw [generation, waiting, decide_eq_true (by simp)]
    exact up
  | passed generation waiting down _ _ =>
    rw [generation, waiting, decide_eq_false sound.fresh]
    exact down
  | @done g waits generation waiting latest older _ _ =>
    rw [generation, waiting]
    by_cases newest : d.slot.generation = g
    · rw [decide_eq_false (by simp [newest])]
      exact latest newest
    · have still : d.slot.generation ∈ d.generations.filter (· ≠ g) ↔ d.slot.generation ∈ d.generations := by
        simp [newest]
      rw [decide_eq_decide.mpr still]
      exact older newest _ sign

theorem Step.accounts (step : d.Step Sign after notices) (sound : d.Sound)
    (accounts : d.Accounts Sign earlier) : after.Accounts Sign (earlier ++ notices) where
  numbered := by rw [Notice.calls_append, accounts.numbered, step.numbered]
  settled := by
    have grown := accounts.settled.append_right (Notice.calls notices)
    rw [List.append_assoc] at grown
    rw [Notice.calls_append, Notice.ended_append, List.append_assoc]
    exact grown.trans ((step.perm sound).append_left _)
  sign := step.shows sound accounts.sign

namespace Accounts

theorem unique (accounts : d.Accounts Sign notices) : (Notice.calls notices).Nodup :=
  accounts.numbered ▸ List.nodup_range'

/-- A call is pending while its request waits. -/
theorem pending_iff (accounts : d.Accounts Sign notices) {g : Nat} :
    Notice.Pending notices g ↔ g ∈ d.generations :=
  Notice.pending_iff accounts.unique accounts.settled

end Accounts

end RunQuery.Desk
