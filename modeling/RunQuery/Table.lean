import RunQuery.Navigator
import RunQuery.Slot.Desk

/-!
A table shows one page of a store's records. A call applies an action to the navigator of the view and, if
the action asks for it, requests the page. The page that is put in is always the answer to the latest
request; a failure stands beside the last good page until a page comes.
-/
namespace RunQuery

namespace Table

structure View where
  navigator : Navigator
  loading : Bool
  failure : Option Failure

namespace View

/-- The view after an action, and the request that the action asks for. -/
def transition (navigator : Navigator) (effect : Effect) (view : View) : View × Option Request :=
  match effect with
  | .reload => ({ view with navigator, loading := true }, some navigator.toRequest)
  | .none => ({ view with navigator }, none)

/-- What an action does to the view, and the request that it asks for. A refused action asks for nothing and leaves the
view. -/
def act (action : Navigator.Action) (view : View) : View × Option Request :=
  match view.navigator.apply action with
  | .ok (navigator, effect) => transition navigator effect view
  | .error _ => (view, none)

def loaded (page : Page) (view : View) : View := ⟨view.navigator.withPage page, false, none⟩

def failed (failure : Failure) (view : View) : View :=
  { view with loading := false, failure := some failure }

def settled (view : View) : View := { view with loading := false }

end View

inductive CallError where
  | edit (error : EditError)
  | fetch (error : FetchError)
deriving DecidableEq

/-- What a call comes to. -/
abbrev Result := Except CallError Effect

inductive Event where
  | call (action : Navigator.Action)
  /-- The reply to the request of a generation. -/
  | reply (generation : Nat) (reply : Reply Page)
  /-- A request notices that it is cancelled. -/
  | wake (generation : Nat)
  /-- The time of a request is up. -/
  | expire (generation : Nat)
  | cancel

end Table

structure Table where
  desk : Desk Table.View Request
  /-- Milliseconds after which a request is cancelled. -/
  deadline : Option Nat

namespace Table

def new (navigator : Navigator) (deadline : Option Nat) : Table :=
  ⟨Desk.new "table" ⟨navigator, false, none⟩, deadline⟩

def view (t : Table) : View := t.desk.state

def call (t : Table) (action : Navigator.Action) : Table × List (Notice Nat Result) :=
  let stepped := t.desk.slot.step (View.act action)
  let desk := { t.desk with slot := stepped.1 }
  match t.view.navigator.apply action, stepped.2 with
  | .error e, _ => ({ t with desk }, [.answered (.error (.edit e))])
  | .ok _, none => ({ t with desk }, [.answered (.ok .none)])
  | .ok _, some (ticket, request) =>
    let key := ticket.generation
    ({ t with desk := desk.await ticket request },
      [.started key] ++ (t.deadline.map (Notice.alarm key)).toList ++ [.asked key request])

/-- Ends a waiting request with what it came to. -/
def conclude (t : Table) (ticket : Ticket) (outcome : Except FetchError Page) :
    Table × List (Notice Nat Result) :=
  let slot := t.desk.slot.conclude ticket outcome View.loaded
    (fun e => View.failed (Failure.of ticket e)) View.settled
  let desk := { t.desk.drop ticket.generation with slot }
  let result := match outcome with
    | .ok _ => .ok .reload
    | .error e => .error (.fetch e)
  ({ t with desk }, [.finished ticket.generation result])

def handle (t : Table) : Event → Table × List (Notice Nat Result)
  | .call action => t.call action
  | .reply generation reply =>
    match t.desk.find? generation with
    | none => (t, [])
    | some w => t.conclude w.ticket (t.desk.slot.outcome w.ticket reply)
  | .wake generation =>
    match t.desk.find? generation with
    | none => (t, [])
    | some w =>
      if t.desk.slot.isCancelled w.ticket then t.conclude w.ticket (.error .cancelled) else (t, [])
  | .expire generation => ({ t with desk := t.desk.expire generation }, [])
  | .cancel => ({ t with desk := t.desk.cancel }, [])

end Table

end RunQuery
