import RunQuery.Filter
import RunQuery.Sort

/-!
Requests to a record store and the pages it answers with.
-/
namespace RunQuery

/-- A token that marks a position in a result, and the direction to go from it. -/
inductive Cursor where
  | forward (token : String)
  | backward (token : String)
deriving DecidableEq

def Cursor.token : Cursor → String
  | .forward token => token
  | .backward token => token

structure Request where
  filter : Option Filter
  sort : List SortKey
  limit : Option UInt32
  cursor : Option Cursor
deriving Inhabited, BEq

structure Record where
  id : String
  type : String
  version : UInt64
  data : Value
deriving Inhabited, BEq

/-- The value at a dotted path of the payload. -/
def Record.field? (r : Record) (path : String) : Option Value := r.data.atPath? path

/-- One page of a result; a missing token means that the result ends there. -/
structure Page where
  records : List Record
  next : Option String
  previous : Option String
deriving Inhabited, BEq

def Page.empty : Page := ⟨[], none, none⟩

end RunQuery
