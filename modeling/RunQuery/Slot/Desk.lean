import RunQuery.Query
import RunQuery.Slot.Basic

/-!
A desk is a slot together with the requests that still wait for a reply, each with the work that goes on
when the reply comes. A request is addressed by its generation. A reply to a request that does not wait
is of no consequence, and a cancelled request ends without its reply.
-/
namespace RunQuery

/-- What a controller has to say in a step. `κ` addresses its requests, `ρ` is the result of a call. -/
inductive Notice (κ ρ : Type) where
  /-- A call was made that has to wait; `call` names it from now on. -/
  | started (call : Nat)
  /-- A call was made that is done at once. -/
  | answered (result : ρ)
  /-- A call has so many milliseconds from now. -/
  | alarm (call : Nat) (milliseconds : Nat)
  | asked (key : κ) (request : Request)
  | finished (call : Nat) (result : ρ)

/-- A request that waits for its reply. -/
structure Waiting (ω : Type) where
  ticket : Ticket
  work : ω

structure Desk (σ ω : Type) where
  slot : Slot σ
  waiting : List (Waiting ω)

namespace Slot

variable {σ α : Type}

/-- Ends a request with what it came to. A failure that is not recorded, since the request was
cancelled meanwhile, is settled. -/
def conclude (slot : Slot σ) (ticket : Ticket) (outcome : Except FetchError α)
    (apply : α → σ → σ) (fail : FetchError → σ → σ) (settled : σ → σ) : Slot σ :=
  match outcome with
  | .ok a => (slot.completeOrSettle ticket (apply a) settled).1
  | .error .cancelled => (slot.settle ticket settled).1
  | .error e => (slot.completeOrSettle ticket (fail e) settled).1

end Slot

namespace Desk

variable {σ ω : Type}

def new (name : String) (state : σ) : Desk σ ω := ⟨Slot.new name state, []⟩

def state (d : Desk σ ω) : σ := d.slot.state

/-- The waiting request of a generation. -/
def find? (d : Desk σ ω) (generation : Nat) : Option (Waiting ω) :=
  d.waiting.find? fun w => w.ticket.generation = generation

def drop (d : Desk σ ω) (generation : Nat) : Desk σ ω :=
  { d with waiting := d.waiting.filter fun w => w.ticket.generation ≠ generation }

def await (d : Desk σ ω) (ticket : Ticket) (work : ω) : Desk σ ω :=
  { d with waiting := d.waiting ++ [⟨ticket, work⟩] }

/-- Gives a waiting request other work. -/
def resume (d : Desk σ ω) (generation : Nat) (work : ω) : Desk σ ω :=
  { d with
    waiting := d.waiting.map fun w => if w.ticket.generation = generation then { w with work } else w }

def generations (d : Desk σ ω) : List Nat := d.waiting.map fun w => w.ticket.generation

/-- Cancels the latest request. -/
def cancel (d : Desk σ ω) : Desk σ ω := { d with slot := d.slot.cancel }

/-- The time of a request is up. -/
def expire (d : Desk σ ω) (generation : Nat) : Desk σ ω :=
  match d.find? generation with
  | some w => { d with slot := d.slot.cancelTicket w.ticket }
  | none => d

end Desk

end RunQuery
