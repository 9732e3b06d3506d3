import RunQuery.Text.Parts

/-!
A slot holds one state and counts the requests made for it. Each request has a ticket with the number of
its generation. Only the latest generation may touch the state, and `complete` only while its ticket is
not cancelled; a new request cancels the one before. So the order in which replies come does not matter:
the latest request wins.
-/
namespace RunQuery

/-- Why a request brought nothing. -/
inductive FetchError where
  /-- A newer request took its place, or its time was up. -/
  | cancelled
  /-- The causes of a failure of the store, the outermost first. -/
  | store (causes : List String)
deriving DecidableEq

namespace FetchError

def message : FetchError → String
  | .cancelled => "request cancelled"
  | .store causes => "store request failed: " ++ Text.joined ": " causes

def isCancelled : FetchError → Bool
  | .cancelled => true
  | .store _ => false

end FetchError

/-- What a store has to say to a request. -/
abbrev Reply (α : Type) := Except (List String) α

structure Ticket where
  slot : String
  generation : Nat
deriving DecidableEq, Inhabited

/-- A failure to show beside the last good state. -/
structure Failure where
  slot : String
  message : String
deriving DecidableEq

def Failure.of (ticket : Ticket) (error : FetchError) : Failure := ⟨ticket.slot, error.message⟩

structure Slot (σ : Type) where
  name : String
  state : σ
  /-- The number of the latest request; the first request has number one. -/
  generation : Nat
  /-- Generations that are cancelled. -/
  cancelled : List Nat
  /-- The latest request is not settled. -/
  inFlight : Bool

namespace Slot

variable {σ ρ α : Type}

def new (name : String) (state : σ) : Slot σ := ⟨name, state, 0, [], false⟩

def isCurrent (slot : Slot σ) (ticket : Ticket) : Bool := slot.generation = ticket.generation

def isCancelled (slot : Slot σ) (ticket : Ticket) : Bool := ticket.generation ∈ slot.cancelled

/-- Cancels one generation. -/
def cancelGeneration (slot : Slot σ) (generation : Nat) : Slot σ :=
  { slot with cancelled := generation :: slot.cancelled }

/-- Cancels the latest request. -/
def cancel (slot : Slot σ) : Slot σ := slot.cancelGeneration slot.generation

def cancelTicket (slot : Slot σ) (ticket : Ticket) : Slot σ :=
  slot.cancelGeneration ticket.generation

/-- Changes the state beside the request. -/
def update (slot : Slot σ) (change : σ → σ) : Slot σ := { slot with state := change slot.state }

/-- Changes the state as the end of the latest request. -/
def finish (slot : Slot σ) (change : σ → σ) : Slot σ :=
  { slot with state := change slot.state, inFlight := false }

/-- Makes a new request in place of the latest one. -/
def issue (slot : Slot σ) : Slot σ × Ticket :=
  let next := slot.generation + 1
  ({ slot.cancel with generation := next, inFlight := true }, ⟨slot.name, next⟩)

/-- Changes the state and makes a request. -/
def begin (slot : Slot σ) (change : σ → σ) : Slot σ × Ticket := (slot.update change).issue

/-- Changes the state, and makes a request if the change asks for one. -/
def step (slot : Slot σ) (change : σ → σ × Option ρ) : Slot σ × Option (Ticket × ρ) :=
  let after := change slot.state
  let changed := slot.update fun _ => after.1
  match after.2 with
  | none => (changed, none)
  | some asked =>
    let issued := changed.issue
    (issued.1, some (issued.2, asked))

/-- What a request comes to when its reply is there. -/
def outcome (slot : Slot σ) (ticket : Ticket) (reply : Reply α) : Except FetchError α :=
  if slot.isCancelled ticket || !slot.isCurrent ticket then .error .cancelled
  else reply.mapError .store

/-- Ends a request that is the latest and not cancelled; says whether it was. -/
def complete (slot : Slot σ) (ticket : Ticket) (change : σ → σ) : Slot σ × Bool :=
  if !slot.isCurrent ticket || slot.isCancelled ticket then (slot, false)
  else (slot.finish change, true)

/-- Ends a cancelled request if it is the latest; says whether it was. -/
def settle (slot : Slot σ) (ticket : Ticket) (change : σ → σ) : Slot σ × Bool :=
  if slot.isCurrent ticket then (slot.finish change, true) else (slot, false)

/-- Ends the latest request either way; says whether it was not cancelled. -/
def completeOrSettle (slot : Slot σ) (ticket : Ticket) (apply settle : σ → σ) : Slot σ × Bool :=
  if slot.isCurrent ticket then
    let applied := !slot.isCancelled ticket
    (slot.finish (if applied then apply else settle), applied)
  else (slot, false)

end Slot

end RunQuery
