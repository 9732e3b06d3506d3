import RunQuery.Controller

/-!
Runs of controllers, taken apart: a run of one list of events after another is one run, and what a
controller asks for in it stands in order.
-/
namespace RunQuery

variable {σ ε κ ρ : Type}

namespace Notice

def asked? : Notice κ ρ → Option (κ × Request)
  | .asked key request => some (key, request)
  | _ => none

/-- The requests that are made, the first one first. -/
def requests (notices : List (Notice κ ρ)) : List (κ × Request) := notices.filterMap asked?

@[simp] theorem requests_append (early late : List (Notice κ ρ)) :
    requests (early ++ late) = requests early ++ requests late :=
  List.filterMap_append

def started? : Notice κ ρ → Option Nat
  | .started call => some call
  | _ => none

/-- The calls that are started, the first one first. -/
def calls (notices : List (Notice κ ρ)) : List Nat := notices.filterMap started?

@[simp] theorem calls_append (early late : List (Notice κ ρ)) :
    calls (early ++ late) = calls early ++ calls late :=
  List.filterMap_append

@[simp] theorem calls_started (call : Nat) (rest : List (Notice κ ρ)) :
    calls (.started call :: rest) = call :: calls rest := rfl

def finished? : Notice κ ρ → Option (Nat × ρ)
  | .finished call result => some (call, result)
  | _ => none

/-- The calls that are done with what they came to, the first one first. -/
def outcomes (notices : List (Notice κ ρ)) : List (Nat × ρ) := notices.filterMap finished?

def ended (notices : List (Notice κ ρ)) : List Nat := (outcomes notices).map Prod.fst

@[simp] theorem outcomes_append (early late : List (Notice κ ρ)) :
    outcomes (early ++ late) = outcomes early ++ outcomes late :=
  List.filterMap_append

@[simp] theorem ended_append (early late : List (Notice κ ρ)) :
    ended (early ++ late) = ended early ++ ended late := by
  simp [ended]

@[simp] theorem outcomes_started (call : Nat) (rest : List (Notice κ ρ)) :
    outcomes (.started call :: rest) = outcomes rest := rfl

def answered? : Notice κ ρ → Option ρ
  | .answered result => some result
  | _ => none

/-- What the calls came to that were done at once. -/
def answers (notices : List (Notice κ ρ)) : List ρ := notices.filterMap answered?

@[simp] theorem answers_append (early late : List (Notice κ ρ)) :
    answers (early ++ late) = answers early ++ answers late :=
  List.filterMap_append

@[simp] theorem answers_started (call : Nat) (rest : List (Notice κ ρ)) :
    answers (.started call :: rest) = answers rest := rfl

/-- It neither starts a call nor says that one is done. -/
def Passing : Notice κ ρ → Prop
  | .alarm _ _ => True
  | .asked _ _ => True
  | _ => False

section Passing

variable {notices : List (Notice κ ρ)} (passing : ∀ n ∈ notices, n.Passing)

include passing

theorem calls_passing : calls notices = [] := by
  refine List.filterMap_eq_nil_iff.mpr fun n member => ?_
  have only := passing n member
  cases n <;> first | rfl | exact only.elim

theorem outcomes_passing : outcomes notices = [] := by
  refine List.filterMap_eq_nil_iff.mpr fun n member => ?_
  have only := passing n member
  cases n <;> first | rfl | exact only.elim

theorem answers_passing : answers notices = [] := by
  refine List.filterMap_eq_nil_iff.mpr fun n member => ?_
  have only := passing n member
  cases n <;> first | rfl | exact only.elim

end Passing

/-- A call that is started and not done. -/
def Pending (notices : List (Notice κ ρ)) (call : Nat) : Prop :=
  call ∈ calls notices ∧ call ∉ ended notices

/-- If each call is done once or left over, the pending calls are those left over. -/
theorem pending_iff {notices : List (Notice κ ρ)} {left : List Nat} (unique : (calls notices).Nodup)
    (settled : (calls notices).Perm (ended notices ++ left)) {g : Nat} : Pending notices g ↔ g ∈ left := by
  have apart := (List.nodup_append.mp (settled.nodup_iff.mp unique)).2.2
  rw [Pending, settled.mem_iff, List.mem_append]
  constructor
  · rintro ⟨done | waits, other⟩
    · exact absurd done other
    · exact waits
  · exact fun waits => ⟨.inr waits, fun done => apart g done g waits rfl⟩

end Notice

namespace Controller

variable (c : Controller σ ε κ ρ)

theorem run_append (state : σ) (early late : List ε) :
    c.run state (early ++ late) =
      ((c.run (c.run state early).1 late).1,
        (c.run state early).2 ++ (c.run (c.run state early).1 late).2) := by
  induction early generalizing state with
  | nil => rfl
  | cons event rest ih => simp [run, ih]

theorem run_concat (state : σ) (events : List ε) (event : ε) :
    c.run state (events ++ [event]) =
      ((c.handle (c.run state events).1 event).1,
        (c.run state events).2 ++ (c.handle (c.run state events).1 event).2) := by
  rw [run_append]
  simp [run]

/-- What `tell` says of every event at the state in which it comes. -/
def collect {α : Type} (tell : σ → ε → List α) (state : σ) : List ε → List α
  | [] => []
  | event :: rest => tell state event ++ collect tell (c.handle state event).1 rest

theorem collect_concat {α : Type} (tell : σ → ε → List α) (state : σ) (events : List ε) (event : ε) :
    c.collect tell state (events ++ [event]) =
      c.collect tell state events ++ tell (c.run state events).1 event := by
  induction events generalizing state with
  | nil => exact List.append_nil _
  | cons first rest ih => simp only [List.cons_append, collect, ih, run, List.append_assoc]

theorem run_keeps {P : σ → Prop} (keeps : ∀ state event, P state → P (c.handle state event).1)
    {state : σ} (start : P state) (events : List ε) : P (c.run state events).1 := by
  induction events generalizing state with
  | nil => exact start
  | cons event rest ih => exact ih (keeps state event start)

end Controller

end RunQuery
