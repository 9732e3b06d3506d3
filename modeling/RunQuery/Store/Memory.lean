import RunQuery.Store.Order
import RunQuery.Store.Window

/-!
A record store that holds its records in a list, in the order in which their ids first came. A query
is answered with the oldest failure that waits, or else with a page of the selected and sorted
records. A filter with a placeholder that has no value is refused before any record is looked at.
-/
namespace RunQuery

inductive StoreError where
  /-- A failure that was asked for. -/
  | injected (message : String)
  | filter (error : FilterError)
  | evaluation (error : EvalError)
  | token (error : TokenError)
deriving DecidableEq

/-- The causes of an error, the outermost first. -/
def StoreError.causes : StoreError → List String
  | .injected message => [message]
  | .filter error => [error.message]
  | .evaluation error => [error.message]
  | .token error => error.causes

def StoreError.message (e : StoreError) : String := Text.joined ": " e.causes

structure Memory where
  records : List Record
  /-- Messages of the failures that the next queries meet. -/
  failures : List String
  /-- Number of queries so far. -/
  queries : Nat
deriving Inhabited

namespace Memory

def empty : Memory := ⟨[], [], 0⟩

/-- Puts a record in the place of the one with its id, or at the end. -/
def upsertInto (record : Record) : List Record → List Record
  | [] => [record]
  | first :: rest =>
    if first.id = record.id then record :: rest else first :: upsertInto record rest

def upsert (m : Memory) (record : Record) : Memory :=
  { m with records := upsertInto record m.records }

def ofRecords (records : List Record) : Memory := records.foldl upsert empty

def size (m : Memory) : Nat := m.records.length

def isEmpty (m : Memory) : Bool := m.records.isEmpty

/-- Lets a coming query fail, after those that are to fail already. -/
def failNext (m : Memory) (message : String) : Memory :=
  { m with failures := m.failures ++ [message] }

/-- All records that a filter selects, sorted. -/
def result (records : List Record) (request : Request) : Except StoreError (List Record) := do
  let filter := request.filter.getD ⟨none, .empty⟩
  filter.validate.mapError .filter
  let selected ← (selectRecords filter.predicate filter.params records).mapError .evaluation
  return sortRecords request.sort selected

/-- The page that a request asks for. -/
def answer (records : List Record) (request : Request) : Except StoreError Page := do
  let sorted ← result records request
  let limit := request.limit.elim sorted.length UInt32.toNat
  let window ← (Window.of sorted.length limit request.cursor).mapError .token
  return window.page sorted

/-- Answers a query, with a waiting failure if there is one. -/
def query (m : Memory) (request : Request) : Except StoreError Page × Memory :=
  match m.failures with
  | message :: failures =>
    (.error (.injected message), { m with failures, queries := m.queries + 1 })
  | [] => (answer m.records request, { m with queries := m.queries + 1 })

end Memory

end RunQuery
