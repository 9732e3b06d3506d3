import RunQuery.Calendar.Basic
import RunQuery.Table

/-!
What tables, names and calendars have in common. A controller handles one event at a time and says what it
asks of the store and which calls are done; `run` hands it one event after another. The store, the clock
and the order of events are outside.
-/
namespace RunQuery

/-- A controller with states `σ`, events `ε`, addresses `κ` of its requests and results `ρ` of its calls. -/
structure Controller (σ ε κ ρ : Type) where
  handle : σ → ε → σ × List (Notice κ ρ)
  reply : κ → Reply Page → ε
  wake : κ → ε
  expire : Nat → ε
  /-- Requests that wait for a reply. -/
  waiting : σ → List κ
  /-- Bounds the requests that one call can make. -/
  patience : σ → Nat

namespace Controller

variable {σ ε κ ρ : Type}

/-- Handles events in order and collects what is said. -/
def run (c : Controller σ ε κ ρ) (state : σ) : List ε → σ × List (Notice κ ρ)
  | [] => (state, [])
  | event :: rest =>
    let handled := c.handle state event
    let later := run c handled.1 rest
    (later.1, handled.2 ++ later.2)

end Controller

def Table.controller : Controller Table Table.Event Nat Table.Result where
  handle := Table.handle
  reply := .reply
  wake := .wake
  expire := .expire
  waiting := fun t => t.desk.generations
  patience := fun _ => 1

def Names.controller : Controller Names Names.Event Nat Names.Result where
  handle := Names.handle
  reply := .reply
  wake := .wake
  expire := .wake
  waiting := fun n => n.desk.generations
  patience := fun _ => 1

def Calendar.controller : Controller Calendar Calendar.Event Calendar.Key Runs.Result where
  handle := Calendar.handle
  reply := .reply
  wake := .wake
  expire := .expire
  waiting := fun c =>
    c.runs.desk.generations.map .runs ++ c.names.desk.generations.map .names
  patience := fun c => c.config.maxPages.toNat + 1

end RunQuery
