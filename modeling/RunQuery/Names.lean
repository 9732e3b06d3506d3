import RunQuery.Config
import RunQuery.Slot.Desk

/-!
Names of sources, from one listing of a store's records. A listing replaces all names at once; until a new
one is there the old names stay. A source without a name is shown by the first characters of its id.
-/
namespace RunQuery

namespace Names

inductive Status where
  | notLoaded | loading | loaded | failed
deriving DecidableEq

def Status.name : Status → String
  | .notLoaded => "NotLoaded"
  | .loading => "Loading"
  | .loaded => "Loaded"
  | .failed => "Failed"

structure State where
  status : Status
  names : Dict String

/-- What stands for a name that is not known. -/
def placeholder (id : String) : String := String.ofList ('#' :: id.toList.take 8)

namespace State

def name? (s : State) (id : String) : Option String := s.names.get? id

def label (s : State) (id : String) : String := (s.name? id).getD (placeholder id)

def loading (s : State) : State := { s with status := .loading }

/-- The state when a load was given up: the names stay, and nothing is on its way. -/
def settled (s : State) : State :=
  { s with status := if s.names.isEmpty then .notLoaded else .loaded }

def failed (_ : State) : State := ⟨.failed, .empty⟩

end State

/-- The names that a listing gives; of a repeated id the last name stays. -/
def ofPage (config : NamesConfig) (page : Page) : Dict String :=
  Dict.ofList (page.records.filterMap fun r =>
    ((r.field? config.nameField).bind Value.asText?).map fun name => (r.id, name))

/-- The request for a listing. -/
def listing (config : NamesConfig) : Request :=
  ⟨some (Filter.ofPredicate (.compare ⟨"$type", .eq, .literal (.text config.recordType)⟩)), [],
    some config.limit, none⟩

inductive Event where
  /-- Loads the names if that has not been done. -/
  | ensure
  /-- Loads the names again. -/
  | refresh
  | reply (generation : Nat) (reply : Reply Page)
  | wake (generation : Nat)

end Names

structure Names where
  desk : Desk Names.State Unit
  config : NamesConfig

namespace Names

/-- A load that fails is no failure of the call, only one that is cancelled. -/
abbrev Result := Except FetchError Unit

def new (config : NamesConfig) : Names := ⟨Desk.new "references" ⟨.notLoaded, .empty⟩, config⟩

def state (n : Names) : State := n.desk.state

/-- Asks for a listing under a new ticket. -/
def load (n : Names) (issued : Slot State × Ticket) : Names × List (Notice Nat Result) :=
  let key := issued.2.generation
  let desk := { n.desk with slot := issued.1 }
  ({ n with desk := desk.await issued.2 () }, [.started key, .asked key (listing n.config)])

def ensure (n : Names) : Names × List (Notice Nat Result) :=
  let stepped := n.desk.slot.step fun s =>
    if s.status = .notLoaded then (s.loading, some ()) else (s, none)
  match stepped.2 with
  | none => ({ n with desk := { n.desk with slot := stepped.1 } }, [.answered (.ok ())])
  | some (ticket, ()) => n.load (stepped.1, ticket)

def refresh (n : Names) : Names × List (Notice Nat Result) :=
  n.load (n.desk.slot.begin State.loading)

def conclude (n : Names) (ticket : Ticket) (outcome : Except FetchError Page) :
    Names × List (Notice Nat Result) :=
  let slot := n.desk.slot.conclude ticket outcome
    (fun page _ => ⟨.loaded, ofPage n.config page⟩) (fun _ => State.failed) State.settled
  let desk := { n.desk.drop ticket.generation with slot }
  let result := match outcome with
    | .error .cancelled => .error .cancelled
    | _ => .ok ()
  ({ n with desk }, [.finished ticket.generation result])

def handle (n : Names) : Event → Names × List (Notice Nat Result)
  | .ensure => n.ensure
  | .refresh => n.refresh
  | .reply generation reply =>
    match n.desk.find? generation with
    | none => (n, [])
    | some w => n.conclude w.ticket (n.desk.slot.outcome w.ticket reply)
  | .wake generation =>
    match n.desk.find? generation with
    | none => (n, [])
    | some w =>
      if n.desk.slot.isCancelled w.ticket then n.conclude w.ticket (.error .cancelled) else (n, [])

end Names

end RunQuery
