import RunQuery.Bench
import RunQuery.CommandLine.Arguments
import RunQuery.CommandLine.Query
import RunQuery.Json.Writer

/-!
The two commands of the program. `runs` walks through pages of records and prints each; `calendar` prints
the runs of some sources in a span of time. What they need from outside is `Surroundings`: a store to
ask, a place to print to, and a clock. A program ends at its first failure.
-/
namespace RunQuery.CommandLine

structure Surroundings (m : Type → Type) where
  /-- Milliseconds that have passed. -/
  now : m Nat
  /-- Asks the store, for no longer than some milliseconds; there is no reply if time is up first. -/
  ask : Option Nat → Request → m (Option (Reply Page))
  print : String → m Unit

inductive ProgramError where
  | pageSize
  | config (error : ConfigError)
  | filter (error : FilterTextError)
  | span (error : SpanError)
  | edit (error : EditError)
  | fetch (error : FetchError)
deriving DecidableEq

def ProgramError.message : ProgramError → String
  | .pageSize => "--page-size must be at least 1"
  | .config error => error.message
  | .filter error => error.message
  | .span error => error.message
  | .edit error => error.message
  | .fetch error => error.message

/-- What an error message starts with; its causes may follow on further lines. -/
def ProgramError.firstLine (e : ProgramError) : String :=
  "Error: " ++ String.ofList (e.message.toList.takeWhile (· ≠ '\n'))

/-- What is behind an error, the outermost cause first. -/
def ProgramError.causes : ProgramError → List String
  | .fetch (.store causes) => causes
  | _ => []

/-- The whole error message: several causes are numbered. -/
def ProgramError.report (e : ProgramError) : String :=
  let listed := match e.causes with
    | [] => ""
    | [cause] => "\n\nCaused by:\n    " ++ cause
    | causes =>
      "\n\nCaused by:\n" ++ Text.joined "\n" (causes.mapIdx fun index cause =>
        "    " ++ toString index ++ ": " ++ cause)
  "Error: " ++ e.message ++ listed

/-- A controller at work: its state, when its calls have to be done, and what they came to. -/
structure Session (σ ρ : Type) where
  state : σ
  alarms : List Alarm
  results : List ρ

section Drive

variable {m : Type → Type} [Monad m] {σ ε κ ρ : Type}

/-- Hands an event to a controller and does what it asks for, until nothing is left to ask. `callOf` is
the call whose time a request takes; `fuel` bounds how many replies may follow from each other. -/
def drive (s : Surroundings m) (c : Controller σ ε κ ρ) (callOf : κ → Option Nat) :
    (fuel : Nat) → ε → Session σ ρ → m (Session σ ρ)
  | 0, _, session => pure session
  | fuel + 1, event, session =>
    let handled := c.handle session.state event
    handled.2.foldlM
      (fun session notice =>
        match notice with
        | .started _ => pure session
        | .answered result => pure { session with results := result :: session.results }
        | .finished _ result => pure { session with results := result :: session.results }
        | .alarm call milliseconds => do
          let now ← s.now
          pure { session with alarms := ⟨now + milliseconds, call⟩ :: session.alarms }
        | .asked key request => do
          let now ← s.now
          let alarm := (callOf key).bind fun call => session.alarms.find? fun a => a.call = call
          match ← s.ask (alarm.map fun a => a.due - now) request, alarm with
          | some reply, _ => drive s c callOf fuel (c.reply key reply) session
          | none, some alarm =>
            let expired := c.handle session.state (c.expire alarm.call)
            drive s c callOf fuel (c.wake key) { session with state := expired.1 }
          | none, none => pure session)
      { session with state := handled.1 }

/-- Makes one call and gives what it came to. -/
def callOnce (s : Surroundings m) (c : Controller σ ε κ ρ) (callOf : κ → Option Nat) (event : ε)
    (state : σ) : m (σ × Option ρ) := do
  let session ← drive s c callOf (c.patience state + 2) event ⟨state, [], []⟩
  return (session.state, session.results.head?)

end Drive

section Programs

variable {m : Type → Type} [Monad m]

def tableError : Table.CallError → ProgramError
  | .edit error => .edit error
  | .fetch error => .fetch error

def printed (w : Wire) : String := (Json.indented? w).getD ""

/-- Makes one call of a table; it fails if the call does. -/
def callTable (s : Surroundings m) (action : Navigator.Action) (table : Table) :
    ExceptT ProgramError m Table := do
  let called ← ExceptT.lift (callOnce s Table.controller some (.call action) table)
  match called.2 with
  | some (.error e) => throw (tableError e)
  | _ => return called.1

/-- Prints the page that a table shows, and then the next ones. -/
def printPages (s : Surroundings m) : (pages : Nat) → Table → ExceptT ProgramError m Unit
  | 0, _ => return ()
  | pages + 1, table => do
    let nav := table.view.navigator
    s.print (printed (.list (nav.page.records.map Record.toWire)))
    if pages = 0 || !nav.hasNext then return ()
    let table ← callTable s .nextPage table
    printPages s pages table

/-- The program `runs`. -/
def runRuns (s : Surroundings m) (config : Config) (filters sorts : List String)
    (pageSize pages : Nat) : ExceptT ProgramError m Unit := do
  let some size := PageSize.ofCount? (UInt32.ofNat pageSize) | throw .pageSize
  let config := { config with pageSize := size }
  ExceptT.mk (pure (config.validate.mapError .config))
  let nav ← ExceptT.mk (pure ((navigator size filters sorts).mapError .filter))
  let table ← callTable s .refresh (Table.new nav config.deadline)
  printPages s pages table

/-- The deadline of a calendar holds for its runs and not for its names. -/
def calendarCallOf : Calendar.Key → Option Nat
  | .runs generation => some generation
  | .names _ => none

/-- The program `calendar`. -/
def runCalendar (s : Surroundings m) (config : Config) (sources : List String) (start stop : Int)
    (kinds : List String) : ExceptT ProgramError m Unit := do
  let calendarConfig :=
    if kinds.isEmpty then config.calendar else { config.calendar with kinds }
  let config := { config with calendar := calendarConfig }
  ExceptT.mk (pure (config.validate.mapError .config))
  let span ← ExceptT.mk (pure ((Span.of start stop).mapError .span))
  let calendar := Calendar.new config.calendar config.deadline
  let called ← ExceptT.lift (callOnce s Calendar.controller calendarCallOf
    (.fetch sources span) calendar)
  match called.2 with
  | some (.error e) => throw (.fetch e)
  | _ => s.print (printed (.list (called.1.entries.map Calendar.Entry.toWire)))

/-- The settings that arguments ask for. -/
def Arguments.config (arguments : Arguments) : Config :=
  { (default : Config) with baseUrl := arguments.storeUrl, deadline := arguments.deadline }

/-- The program that arguments ask for. -/
def runProgram (s : Surroundings m) (arguments : Arguments) : ExceptT ProgramError m Unit :=
  match arguments.command with
  | .runs filters sorts pageSize pages => runRuns s arguments.config filters sorts pageSize pages
  | .calendar sources start stop kinds => runCalendar s arguments.config sources start stop kinds

end Programs

end RunQuery.CommandLine
