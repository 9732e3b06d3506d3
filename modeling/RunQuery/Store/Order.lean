import RunQuery.Store.Evaluate

/-!
Sorting records by several columns. Absent values come last in either direction, values that cannot be
compared count as equal, and records that no key tells apart keep their order.
-/
namespace RunQuery

/-- The order turned round for a descending column. -/
def Direction.orient : Direction → Ordering → Ordering
  | .ascending, o => o
  | .descending, o => o.swap

namespace SortKey

/-- How a key orders two values. -/
def orderValues (direction : Direction) (a b : Value) : Ordering :=
  match a.isNone, b.isNone with
  | true, true => .eq
  | true, false => .gt
  | false, true => .lt
  | false, false => direction.orient ((a.compare? b).getD .eq)

def order (key : SortKey) (a b : Record) : Ordering :=
  orderValues key.direction (a.locate key.column) (b.locate key.column)

/-- The verdict of the first key that tells two records apart. -/
def orderBy (keys : List SortKey) (a b : Record) : Ordering :=
  keys.foldr (fun key rest => (key.order a b).then rest) .eq

end SortKey

/-- The records in the order of the keys, earlier ones first among equals. -/
def sortRecords (keys : List SortKey) (records : List Record) : List Record :=
  records.mergeSort fun a b => SortKey.orderBy keys a b ≠ .gt

end RunQuery
