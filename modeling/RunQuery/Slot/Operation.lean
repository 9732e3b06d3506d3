import RunQuery.Slot.Basic

/-!
What can be done to a slot, as data. `perform` does one operation and gives its answer; `run` does one
after another.
-/
namespace RunQuery.Slot

variable {σ : Type}

inductive Operation (σ : Type) where
  | begin (change : σ → σ)
  | step (change : σ → σ) (request : Bool)
  | update (change : σ → σ)
  | complete (ticket : Ticket) (change : σ → σ)
  | settle (ticket : Ticket) (change : σ → σ)
  | completeOrSettle (ticket : Ticket) (apply settle : σ → σ)
  | cancel
  | cancelTicket (ticket : Ticket)

inductive Answer (σ : Type) where
  | nothing
  /-- The ticket of a new request and the state before it. -/
  | issued (ticket : Ticket) (before : σ)
  | applied (applied : Bool)

/-- The ticket that an operation is given. -/
def Operation.ticket? : Operation σ → Option Ticket
  | .complete ticket _ => some ticket
  | .settle ticket _ => some ticket
  | .completeOrSettle ticket _ _ => some ticket
  | .cancelTicket ticket => some ticket
  | _ => none

def perform (slot : Slot σ) : Operation σ → Slot σ × Answer σ
  | .begin change =>
    let begun := slot.begin change
    (begun.1, .issued begun.2 slot.state)
  | .step change request =>
    let stepped := slot.step fun s => (change s, if request then some s else none)
    (stepped.1, stepped.2.elim .nothing fun made => .issued made.1 made.2)
  | .update change => (slot.update change, .nothing)
  | .complete ticket change =>
    let done := slot.complete ticket change
    (done.1, .applied done.2)
  | .settle ticket change =>
    let done := slot.settle ticket change
    (done.1, .applied done.2)
  | .completeOrSettle ticket apply settle =>
    let done := slot.completeOrSettle ticket apply settle
    (done.1, .applied done.2)
  | .cancel => (slot.cancel, .nothing)
  | .cancelTicket ticket => (slot.cancelTicket ticket, .nothing)

/-- Does operations in order and collects their answers. -/
def run (slot : Slot σ) : List (Operation σ) → Slot σ × List (Answer σ)
  | [] => (slot, [])
  | operation :: rest =>
    let done := slot.perform operation
    let later := run done.1 rest
    (later.1, done.2 :: later.2)

end RunQuery.Slot
