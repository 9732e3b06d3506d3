import RunQuery.Calendar.Span
import RunQuery.Config
import RunQuery.Number.Reading
import RunQuery.Query

/-!
Records in time. The time of a record is what the first of some fields gives that gives one: a finite
number without its fraction, or a text that is an integer. `timed` makes a calendar of records: each
id once, only times in a span, in the order of time and then of ids.
-/
namespace RunQuery

structure TimedRecord where
  record : Record
  time : Int
deriving BEq

namespace Calendar

/-- Cut off at the bounds of signed 64-bit integers. -/
def clamped (i : Int) : Int := max (-0x8000000000000000) (min 0x7fffffffffffffff i)

/-- The time that a value stands for. -/
def timeOf? : Value → Option Int
  | .number n => if n.isFinite then some (clamped n.truncated) else none
  | .text s => Integer.parseSigned? (Text.trim s.toList)
  | _ => none

def timestamp? (fields : List String) (r : Record) : Option Int :=
  fields.findSome? fun field => (r.field? field).bind timeOf?

/-- The first record of each id. -/
def firstOfEach (seen : List String) : List Record → List Record
  | [] => []
  | r :: rest =>
    if r.id ∈ seen then firstOfEach seen rest else r :: firstOfEach (r.id :: seen) rest

/-- A record with its time, if that lies in the span. -/
def timedIn? (fields : List String) (span : Span) (r : Record) : Option TimedRecord :=
  ((timestamp? fields r).filter span.contains).map (TimedRecord.mk r)

/-- Earlier records first, and of one time those with the smaller id. -/
def inOrder (a b : TimedRecord) : Bool :=
  a.time < b.time || (a.time = b.time && a.record.id ≤ b.record.id)

def timed (fields : List String) (span : Span) (records : List Record) : List TimedRecord :=
  ((firstOfEach [] records).filterMap (timedIn? fields span)).mergeSort inOrder

end Calendar

end RunQuery
