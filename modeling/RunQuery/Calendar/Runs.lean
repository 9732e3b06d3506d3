import RunQuery.Calendar.Timed
import RunQuery.Calendar.Walk
import RunQuery.Slot.Desk

/-!
The records of a calendar. A fetch walks through the pages of its query and, when the walk has ended, puts
all its records in at once. A walk that fails or is cancelled changes no record. Without sources there is
nothing to ask, and the calendar is empty at once.
-/
namespace RunQuery

namespace Runs

structure State where
  sources : List String
  span : Option Span
  records : List TimedRecord
  loading : Bool
  failure : Option Failure

namespace State

def empty : State := ⟨[], none, [], false, none⟩

def loaded (records : List TimedRecord) (s : State) : State :=
  { s with records, loading := false, failure := none }

def failed (failure : Failure) (s : State) : State :=
  { s with loading := false, failure := some failure }

def settled (s : State) : State := { s with loading := false }

end State

inductive Event where
  | fetch (sources : List String) (span : Span)
  /-- The reply to the page that the fetch of a generation waits for. -/
  | reply (generation : Nat) (reply : Reply Page)
  | wake (generation : Nat)
  | expire (generation : Nat)
  | cancel

/-- A walk, and the span of its fetch. -/
structure Work where
  walk : Walk
  span : Span

end Runs

structure Runs where
  desk : Desk Runs.State Runs.Work
  config : CalendarConfig
  deadline : Option Nat

namespace Runs

abbrev Result := Except FetchError Unit

def new (config : CalendarConfig) (deadline : Option Nat) : Runs :=
  ⟨Desk.new "executions" .empty, config, deadline⟩

def state (r : Runs) : State := r.desk.state

/-- Ends a fetch with what its walk came to. -/
def conclude (r : Runs) (ticket : Ticket) (span : Span)
    (outcome : Except FetchError (List Record)) : Runs × List (Notice Nat Result) :=
  let slot := r.desk.slot.conclude ticket outcome
    (fun records => State.loaded (Calendar.timed r.config.timestampFields span records))
    (fun e => State.failed (Failure.of ticket e)) State.settled
  let desk := { r.desk.drop ticket.generation with slot }
  ({ r with desk }, [.finished ticket.generation (outcome.map fun _ => ())])

/-- Starts a fetch in place of the one on its way. Sources are a set: their order and repetitions do not
count. -/
def fetch (r : Runs) (sources : List String) (span : Span) : Runs × List (Notice Nat Result) :=
  let sources := sortedTexts sources
  let filter := Calendar.sourceFilter? r.config sources
  let begun := r.desk.slot.begin fun s =>
    { s with sources, span := some span, loading := filter.isSome }
  let ticket := begun.2
  let key := ticket.generation
  let desk := { r.desk with slot := begun.1 }
  match filter with
  | none =>
    let slot := (desk.slot.complete ticket (State.loaded [])).1
    ({ r with desk := { desk with slot } }, [.started key, .finished key (.ok ())])
  | some filter =>
    let walk := Walk.start r.config filter
    let alarm := (r.deadline.map (Notice.alarm key)).toList
    if walk.pagesLeft = 0 then
      let ended := { r with desk }.conclude ticket span (desk.slot.outcome ticket (.ok []))
      (ended.1, [.started key] ++ alarm ++ ended.2)
    else
      ({ r with desk := desk.await ticket ⟨walk, span⟩ },
        [.started key] ++ alarm ++ [.asked key walk.request])

/-- Goes on with a walk when a reply has come. -/
def reply (r : Runs) (w : Waiting Work) (reply : Reply Page) : Runs × List (Notice Nat Result) :=
  match r.desk.slot.outcome w.ticket reply with
  | .error e => r.conclude w.ticket w.work.span (.error e)
  | .ok page =>
    match w.work.walk.advance page with
    | .inl walk =>
      let key := w.ticket.generation
      ({ r with desk := r.desk.resume key { w.work with walk } }, [.asked key walk.request])
    | .inr records => r.conclude w.ticket w.work.span (.ok records)

def handle (r : Runs) : Event → Runs × List (Notice Nat Result)
  | .fetch sources span => r.fetch sources span
  | .reply generation reply =>
    match r.desk.find? generation with
    | none => (r, [])
    | some w => r.reply w reply
  | .wake generation =>
    match r.desk.find? generation with
    | none => (r, [])
    | some w =>
      if r.desk.slot.isCancelled w.ticket then r.conclude w.ticket w.work.span (.error .cancelled)
      else (r, [])
  | .expire generation => ({ r with desk := r.desk.expire generation }, [])
  | .cancel => ({ r with desk := r.desk.cancel }, [])

end Runs

end RunQuery
