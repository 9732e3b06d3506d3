import RunQuery.Wire

/-!
Spans of time: from a first millisecond, up to but without an end. A span is never empty.
-/
namespace RunQuery

structure SpanError where
  start : Int
  stop : Int
deriving DecidableEq

def SpanError.message (e : SpanError) : String :=
  "range start " ++ toString e.start ++ " must be before end " ++ toString e.stop

structure Span where
  start : Int
  stop : Int
  start_lt_stop : start < stop
deriving DecidableEq

namespace Span

def of (start stop : Int) : Except SpanError Span :=
  if h : start < stop then .ok ⟨start, stop, h⟩ else .error ⟨start, stop⟩

def contains (s : Span) (time : Int) : Bool := s.start ≤ time && time < s.stop

def toWire (s : Span) : Wire := .record [("startMs", .int s.start), ("endMs", .int s.stop)]

end Span

end RunQuery
