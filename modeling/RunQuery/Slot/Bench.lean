import RunQuery.Slot.Operation

/-!
A bench for one slot whose state is text. Beside the operations of the slot it runs calls: a call waits for
a reply under a ticket, and ends at once when its ticket is cancelled. A reply may come with an intrusion,
which happens to the slot just before the reply is there.
-/
namespace RunQuery.Slot

inductive Intrusion where
  | cancel
  | update (text : String)
  | begin (text : String)

/-- A call that waits for its reply at a gate. -/
structure GatedCall where
  gate : Nat
  call : Nat
  ticket : Ticket
  intrusion : Option Intrusion

structure Bench where
  slot : Slot String
  /-- Every ticket, in the order in which they were issued. -/
  tickets : List Ticket
  waiting : List GatedCall
  /-- Number of gates so far. -/
  gates : Nat
  /-- Number of calls so far. -/
  calls : Nat
  now : Nat
  alarms : List (Nat × Ticket)

/-- What a call comes to. -/
abbrev CallResult := Nat × Except FetchError String

inductive BenchStep where
  | operate (operation : Operation String)
  | cancelAfter (ticket : Ticket) (milliseconds : Nat)
  | advance (milliseconds : Nat)
  /-- A call that has its reply, or waits for it. -/
  | run (ticket : Ticket) (reply : Option (Reply String)) (intrusion : Option Intrusion)
  | release (gate : Nat) (reply : Reply String)

namespace Bench

def new : Bench := ⟨Slot.new "probe" "s", [], [], 0, 0, 0, []⟩

def operate (b : Bench) (operation : Operation String) : Bench × Answer String :=
  let done := b.slot.perform operation
  let tickets := match done.2 with
    | .issued ticket _ => b.tickets ++ [ticket]
    | _ => b.tickets
  ({ b with slot := done.1, tickets }, done.2)

def intrude (b : Bench) : Option Intrusion → Bench
  | none => b
  | some .cancel => (b.operate .cancel).1
  | some (.update text) => (b.operate (.update (· ++ text))).1
  | some (.begin text) => (b.operate (.begin (· ++ text))).1

/-- The end of a call whose reply is there. -/
def arrive (b : Bench) (call : Nat) (ticket : Ticket) (reply : Reply String)
    (intrusion : Option Intrusion) : Bench × List CallResult :=
  let b := b.intrude intrusion
  (b, [(call, b.slot.outcome ticket reply)])

def run (b : Bench) (ticket : Ticket) (reply : Option (Reply String))
    (intrusion : Option Intrusion) : Bench × List CallResult :=
  let call := b.calls
  let b := { b with calls := call + 1, gates := b.gates + if reply.isNone then 1 else 0 }
  if b.slot.isCancelled ticket then (b, [(call, .error .cancelled)])
  else
    match reply with
    | some reply => b.arrive call ticket reply intrusion
    | none => ({ b with waiting := b.waiting ++ [⟨b.gates - 1, call, ticket, intrusion⟩] }, [])

/-- Lets a reply through a gate; says whether something waited for it. -/
def release (b : Bench) (gate : Nat) (reply : Reply String) : Bench × List CallResult × Bool :=
  match b.waiting.find? fun w => w.gate = gate with
  | none => (b, [], false)
  | some w =>
    let b := { b with waiting := b.waiting.filter fun w => w.gate ≠ gate }
    let arrived := b.arrive w.call w.ticket reply w.intrusion
    (arrived.1, arrived.2, true)

/-- Cancels the tickets whose time is up, and ends the calls whose ticket is cancelled. -/
def settle (b : Bench) : Bench × List CallResult :=
  let due := b.alarms.filter fun alarm => alarm.1 ≤ b.now
  let slot := due.foldl (fun (slot : Slot String) alarm => slot.cancelTicket alarm.2) b.slot
  let ended := b.waiting.filter fun w => slot.isCancelled w.ticket
  ({ b with
      slot
      alarms := b.alarms.filter fun alarm => b.now < alarm.1
      waiting := b.waiting.filter fun w => !slot.isCancelled w.ticket },
    ended.map fun w => (w.call, .error .cancelled))

/-- Does a step and everything that follows: its answer, and the calls that ended in it. -/
def step (b : Bench) (s : BenchStep) : Bench × Answer String × List CallResult :=
  let begun : Bench × Answer String × List CallResult :=
    match s with
    | .operate operation =>
      let done := b.operate operation
      (done.1, done.2, [])
    | .cancelAfter ticket milliseconds =>
      ({ b with alarms := (b.now + milliseconds, ticket) :: b.alarms }, .nothing, [])
    | .advance milliseconds => ({ b with now := b.now + milliseconds }, .nothing, [])
    | .run ticket reply intrusion =>
      let done := b.run ticket reply intrusion
      (done.1, .nothing, done.2)
    | .release gate reply =>
      let done := b.release gate reply
      (done.1, .applied done.2.2, done.2.1)
  let settled := begun.1.settle
  (settled.1, begun.2.1, (begun.2.2 ++ settled.2).mergeSort fun a b => a.1 ≤ b.1)

end Bench

end RunQuery.Slot
