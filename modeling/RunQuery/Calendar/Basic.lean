import RunQuery.Calendar.Runs
import RunQuery.Names
import RunQuery.Wire.Encode

/-!
A calendar joins the runs of several sources with the names of the sources. Each call fetches the runs and
loads the names beside them, and is done when both are. Names have no part in what a call comes to: a
name that is missing when the entries are read is replaced by a placeholder.
-/
namespace RunQuery

namespace Calendar

inductive Key where
  | runs (generation : Nat)
  | names (generation : Nat)
deriving DecidableEq

/-- A call that is not done, under the generation of its fetch. -/
structure Joined where
  call : Nat
  /-- What the fetch came to. -/
  result : Option Runs.Result
  /-- The load of names that the call waits for. -/
  listing : Option Nat

inductive Event where
  | fetch (sources : List String) (span : Span)
  | reload
  | reply (key : Key) (reply : Reply Page)
  | wake (key : Key)
  /-- The time of a fetch is up. -/
  | expire (generation : Nat)
  | cancel

/-- One run to show. -/
structure Entry where
  id : String
  time : Int
  source : Option String
  /-- The name of the source, or what stands for it. -/
  label : Option String
  kind : Option String
  record : Record

def Entry.toWire (e : Entry) : Wire :=
  .record ([("id", .text e.id), ("timestampMs", .int e.time)] ++
    optionalField "sourceId" (e.source.map .text) ++
    optionalField "sourceLabel" (e.label.map .text) ++
    optionalField "kind" (e.kind.map .text) ++ [("record", e.record.toWire)])

end Calendar

structure Calendar where
  runs : Runs
  names : Names
  joined : List Calendar.Joined

namespace Calendar

abbrev Notices := List (Notice Key Runs.Result)

def new (config : CalendarConfig) (deadline : Option Nat) : Calendar :=
  ⟨Runs.new config deadline, Names.new config.names, []⟩

def state (c : Calendar) : Runs.State := c.runs.state

def config (c : Calendar) : CalendarConfig := c.runs.config

/-- A text of the payload; no field has an empty name. -/
def textField? (r : Record) (field : String) : Option String :=
  if field.isEmpty then none else (r.field? field).bind Value.asText?

def entry (c : Calendar) (t : TimedRecord) : Entry :=
  let source := textField? t.record c.config.sourceField
  ⟨t.record.id, t.time, source, source.map c.names.state.label,
    textField? t.record c.config.kindField, t.record⟩

def entries (c : Calendar) : List Entry := c.state.records.map c.entry

/-- Passes on what the runs say, and takes down what their fetches come to. -/
def hearRuns : List (Notice Nat Runs.Result) → Calendar → Calendar × Notices
  | [], c => (c, [])
  | notice :: rest, c =>
    match notice with
    | .alarm call milliseconds =>
      let later := hearRuns rest c
      (later.1, .alarm call milliseconds :: later.2)
    | .asked key request =>
      let later := hearRuns rest c
      (later.1, .asked (.runs key) request :: later.2)
    | .finished call result =>
      hearRuns rest { c with
        joined := c.joined.map fun j => if j.call = call then { j with result := some result } else j }
    | _ => hearRuns rest c

/-- Passes on what the names say, and takes down which loads are done. -/
def hearNames : List (Notice Nat Names.Result) → Calendar → Calendar × Notices
  | [], c => (c, [])
  | notice :: rest, c =>
    match notice with
    | .asked key request =>
      let later := hearNames rest c
      (later.1, .asked (.names key) request :: later.2)
    | .finished load _ =>
      hearNames rest { c with
        joined := c.joined.map fun j => if j.listing = some load then { j with listing := none } else j }
    | _ => hearNames rest c

/-- What a call came to, if nothing of it is outstanding. -/
def Joined.done? (j : Joined) : Option Runs.Result := if j.listing.isNone then j.result else none

/-- Lets go of the calls that are done. -/
def release (c : Calendar) : Calendar × Notices :=
  ({ c with joined := c.joined.filter fun j => j.done?.isNone },
    c.joined.filterMap fun j => j.done?.map (Notice.finished j.call))

def afterRuns (c : Calendar) (told : Runs × List (Notice Nat Runs.Result)) : Calendar × Notices :=
  let heard := hearRuns told.2 { c with runs := told.1 }
  let released := heard.1.release
  (released.1, heard.2 ++ released.2)

def afterNames (c : Calendar) (told : Names × List (Notice Nat Names.Result)) : Calendar × Notices :=
  let heard := hearNames told.2 { c with names := told.1 }
  let released := heard.1.release
  (released.1, heard.2 ++ released.2)

/-- The load of names that a call starts and has to wait for. -/
def startedLoad? (notices : List (Notice Nat Names.Result)) : Option Nat :=
  notices.findSome? fun notice =>
    match notice with
    | .started load => some load
    | _ => none

/-- Fetches runs and, beside them, does with the names what `load` says. -/
def begin (c : Calendar) (sources : List String) (span : Span)
    (load : Names → Names × List (Notice Nat Names.Result)) : Calendar × Notices :=
  let fetched := c.runs.fetch sources span
  let named := load c.names
  let call := fetched.1.desk.slot.generation
  let calling : Calendar :=
    ⟨fetched.1, named.1, c.joined ++ [⟨call, none, startedLoad? named.2⟩]⟩
  let heard := hearRuns fetched.2 calling
  let named := hearNames named.2 heard.1
  let released := named.1.release
  (released.1, .started call :: heard.2 ++ named.2 ++ released.2)

/-- Names are loaded with the first fetch that has sources. -/
def fetch (c : Calendar) (sources : List String) (span : Span) : Calendar × Notices :=
  c.begin sources span fun names => if sources.isEmpty then (names, []) else names.ensure

/-- Fetches once more what was fetched last, and the names with it. -/
def reload (c : Calendar) : Calendar × Notices :=
  match c.state.span with
  | none => (c, [.answered (.ok ())])
  | some span => c.begin c.state.sources span Names.refresh

def handle (c : Calendar) : Event → Calendar × Notices
  | .fetch sources span => c.fetch sources span
  | .reload => c.reload
  | .reply (.runs generation) reply => c.afterRuns (c.runs.handle (.reply generation reply))
  | .reply (.names generation) reply => c.afterNames (c.names.handle (.reply generation reply))
  | .wake (.runs generation) => c.afterRuns (c.runs.handle (.wake generation))
  | .wake (.names generation) => c.afterNames (c.names.handle (.wake generation))
  | .expire generation => c.afterRuns (c.runs.handle (.expire generation))
  | .cancel => c.afterRuns (c.runs.handle .cancel)

end Calendar

end RunQuery
