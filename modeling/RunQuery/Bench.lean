import RunQuery.Controller
import RunQuery.Store.Memory

/-!
A bench runs one controller over a memory store on a clock of its own. Its store answers at once, or holds
its queries until they are released one by one. After every step, calls whose time is up are cancelled
and cancelled calls end, so that nothing is left to do but what waits for a reply.
-/
namespace RunQuery

structure HeldQuery (κ : Type) where
  number : Nat
  key : κ
  request : Request

structure Alarm where
  due : Nat
  call : Nat

structure Bench (σ κ : Type) where
  state : σ
  memory : Memory
  holding : Bool
  held : List (HeldQuery κ)
  /-- Number of queries held so far. -/
  heldCount : Nat
  now : Nat
  alarms : List Alarm
  /-- The numbers of the calls that wait, by their names. -/
  numbers : List (Nat × Nat)
  /-- Number of calls so far. -/
  callCount : Nat

/-- What happened in a step. -/
structure Report (ρ : Type) where
  requests : List Request
  /-- Results of calls by their numbers. -/
  done : List (Nat × ρ)

namespace Report

variable {ρ : Type}

def empty : Report ρ := ⟨[], []⟩

def append (r s : Report ρ) : Report ρ := ⟨r.requests ++ s.requests, r.done ++ s.done⟩

end Report

inductive Step (ε : Type) where
  /-- A call, which gets the next number. -/
  | call (event : ε)
  | act (event : ε)
  | upsert (record : Record)
  | fail (message : String)
  | hold (on : Bool)
  /-- Answers a held query, or lets the store answer it. -/
  | release (number : Nat) (reply : Option (Reply Page))
  | advance (milliseconds : Nat)

namespace Bench

variable {σ ε κ ρ : Type}

def new (state : σ) (records : List Record) : Bench σ κ :=
  ⟨state, Memory.ofRecords records, false, [], 0, 0, [], [], 0⟩

/-- The store's answer to a request. -/
def ask (b : Bench σ κ) (request : Request) : Reply Page × Bench σ κ :=
  let answered := b.memory.query request
  (answered.1.mapError StoreError.causes, { b with memory := answered.2 })

def hold (b : Bench σ κ) (key : κ) (request : Request) : Bench σ κ :=
  { b with held := b.held ++ [⟨b.heldCount, key, request⟩], heldCount := b.heldCount + 1 }

/-- Takes down the number of a call that waits. -/
def expect (b : Bench σ κ) (call : Nat) : Bench σ κ :=
  { b with numbers := (call, b.callCount) :: b.numbers }

def numberOf (b : Bench σ κ) (call : Nat) : Nat := (b.numbers.lookup call).getD b.callCount

/-- Hands an event to the controller, and then everything that follows from it at once. `fuel` bounds
how many replies may follow from each other. -/
def feed (c : Controller σ ε κ ρ) : (fuel : Nat) → ε → Bench σ κ → Bench σ κ × Report ρ
  | 0, _, b => (b, .empty)
  | fuel + 1, event, b =>
    let handled := c.handle b.state event
    handled.2.foldl
      (fun (b, report) notice =>
        match notice with
        | .started call => (b.expect call, report)
        | .answered result => (b, report.append ⟨[], [(b.callCount, result)]⟩)
        | .alarm call milliseconds =>
          ({ b with alarms := ⟨b.now + milliseconds, call⟩ :: b.alarms }, report)
        | .finished call result => (b, report.append ⟨[], [(b.numberOf call, result)]⟩)
        | .asked key request =>
          let report := report.append ⟨[request], []⟩
          if b.holding then (b.hold key request, report)
          else
            let answered := b.ask request
            let after := feed c fuel (c.reply key answered.1) answered.2
            (after.1, report.append after.2))
      ({ b with state := handled.1 }, Report.empty)

/-- Hands an event to the controller, with as much fuel as it can use. -/
def tell (c : Controller σ ε κ ρ) (event : ε) (b : Bench σ κ) : Bench σ κ × Report ρ :=
  feed c (c.patience b.state + 2) event b

def tellAll (c : Controller σ ε κ ρ) (events : List ε) (b : Bench σ κ) : Bench σ κ × Report ρ :=
  events.foldl
    (fun (b, report) event =>
      let told := tell c event b
      (told.1, report.append told.2))
    (b, Report.empty)

/-- Cancels the calls whose time is up, and ends what is cancelled. -/
def settle (c : Controller σ ε κ ρ) (b : Bench σ κ) : Bench σ κ × Report ρ :=
  let due := b.alarms.filter fun alarm => alarm.due ≤ b.now
  let rung := tellAll c (due.map fun alarm => c.expire alarm.call)
    { b with alarms := b.alarms.filter fun alarm => b.now < alarm.due }
  let woken := tellAll c ((c.waiting rung.1.state).map c.wake) rung.1
  (woken.1, rung.2.append woken.2)

/-- Answers a held query if it is still waiting; says whether it was. -/
def release [DecidableEq κ] (c : Controller σ ε κ ρ) (number : Nat) (reply : Option (Reply Page))
    (b : Bench σ κ) : Bench σ κ × Report ρ × Bool :=
  match b.held.find? fun query => query.number = number with
  | none => (b, .empty, false)
  | some query =>
    let b := { b with held := b.held.filter fun query => query.number ≠ number }
    if query.key ∈ c.waiting b.state then
      let answered := match reply with
        | some reply => (reply, b)
        | none => b.ask query.request
      let told := tell c (c.reply query.key answered.1) answered.2
      (told.1, told.2, true)
    else (b, .empty, false)

def begin [DecidableEq κ] (c : Controller σ ε κ ρ) (b : Bench σ κ) :
    Step ε → Bench σ κ × Report ρ × Bool
  | .call event =>
    let told := tell c event b
    ({ told.1 with callCount := b.callCount + 1 }, told.2, false)
  | .act event =>
    let told := tell c event b
    (told.1, ⟨told.2.requests, []⟩, false)
  | .upsert record => ({ b with memory := b.memory.upsert record }, .empty, false)
  | .fail message => ({ b with memory := b.memory.failNext message }, .empty, false)
  | .hold on => ({ b with holding := on }, .empty, false)
  | .release number reply => release c number reply b
  | .advance milliseconds => ({ b with now := b.now + milliseconds }, .empty, false)

/-- Does a step, and then everything that can be done. Says whether a release was delivered. -/
def step [DecidableEq κ] (c : Controller σ ε κ ρ) (b : Bench σ κ) (s : Step ε) :
    Bench σ κ × Report ρ × Bool :=
  let begun := b.begin c s
  let settled := settle c begun.1
  let report := begun.2.1.append settled.2
  (settled.1, { report with done := report.done.mergeSort fun a b => a.1 ≤ b.1 }, begun.2.2)

end Bench

end RunQuery
