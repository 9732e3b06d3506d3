import RunQuery.Query

/-!
Which records a predicate selects. Three locations name the envelope of a record, all others a path
of its payload; what is not there counts as absent. A conjunction stops at its first false child and a
disjunction at its first true one, so that a placeholder without a value, or a node of an unknown
kind, is an error only where it is reached.
-/
namespace RunQuery

inductive EvalError where
  | unbound (name : String)
  | unsupported (kind : String)
deriving DecidableEq

def EvalError.message : EvalError → String
  | .unbound name => "no value bound for parameter \x60" ++ name ++ "\x60"
  | .unsupported kind => "unsupported predicate kind " ++ Text.quoted kind

/-- The value at a location of a record. -/
def Record.locate (r : Record) (location : String) : Value :=
  if location = "$id" then .text r.id
  else if location = "$type" then .text r.type
  else if location = "$version" then Value.ofInt r.version.toNat
  else (r.field? location).getD .none

/-- Equality holds or not for any two values, an order only between comparable ones. -/
def Operation.holds (operation : Operation) (left right : Value) : Bool :=
  match operation with
  | .eq => left == right
  | .neq => !(left == right)
  | .lt => left.compare? right = some .lt
  | .lte => left.compare? right = some .lt || left.compare? right = some .eq
  | .gt => left.compare? right = some .gt
  | .gte => left.compare? right = some .gt || left.compare? right = some .eq

/-- The value that an operand stands for. -/
def Operand.resolve (params : Dict Value) (r : Record) : Operand → Except EvalError Value
  | .bind name =>
    match params.get? name with
    | some value => .ok value
    | none => .error (.unbound name)
  | .literal value => .ok value
  | .field path => .ok (r.locate path)

def Comparison.evaluate (params : Dict Value) (r : Record) (c : Comparison) :
    Except EvalError Bool :=
  (c.operand.resolve params r).map (c.operation.holds (r.locate c.location))

namespace Predicate

mutual

/-- Whether a predicate holds of a record. -/
def evaluate (params : Dict Value) (r : Record) : Predicate → Except EvalError Bool
  | .and children => evaluateAll params r children
  | .or children => evaluateAny params r children
  | .not child => (evaluate params r child).map (!·)
  | .compare c => c.evaluate params r
  | .unknown kind _ => .error (.unsupported kind)

/-- Whether all children hold, up to the first that does not. -/
def evaluateAll (params : Dict Value) (r : Record) : List Predicate → Except EvalError Bool
  | [] => .ok true
  | child :: rest =>
    match evaluate params r child with
    | .ok true => evaluateAll params r rest
    | other => other

/-- Whether a child holds, up to the first that does. -/
def evaluateAny (params : Dict Value) (r : Record) : List Predicate → Except EvalError Bool
  | [] => .ok false
  | child :: rest =>
    match evaluate params r child with
    | .ok false => evaluateAny params r rest
    | other => other

end

end Predicate

/-- The records that a predicate selects, in their order. -/
def selectRecords (predicate : Option Predicate) (params : Dict Value) :
    List Record → Except EvalError (List Record)
  | [] => .ok []
  | r :: rest =>
    match predicate.elim (.ok true) (Predicate.evaluate params r) with
    | .error e => .error e
    | .ok keep => (selectRecords predicate params rest).map fun rest => if keep then r :: rest else rest

end RunQuery
