/-!
Sort specifications: columns with directions, the first being the primary key. A column that is not
listed is unset. `toggle` goes from unset to ascending, to descending, and back to unset.
-/
namespace RunQuery

inductive Direction where
  | ascending
  | descending
deriving DecidableEq

def Direction.name : Direction → String
  | .ascending => "asc"
  | .descending => "desc"

/-- Unset, ascending, descending, and again. -/
def Direction.cycle : Option Direction → Option Direction
  | none => some .ascending
  | some .ascending => some .descending
  | some .descending => none

structure SortKey where
  column : String
  direction : Direction
deriving DecidableEq

structure SortSpec where
  keys : List SortKey
deriving DecidableEq, Inhabited

namespace SortSpec

def empty : SortSpec := ⟨[]⟩

/-- Gives the first key of a column a new direction, or removes it. -/
def change (column : String) (direction : Option Direction) : List SortKey → List SortKey
  | [] => []
  | key :: rest =>
    if key.column = column then (direction.map (SortKey.mk column)).toList ++ rest
    else key :: change column direction rest

def direction? (spec : SortSpec) (column : String) : Option Direction :=
  (spec.keys.find? fun key => key.column = column).map SortKey.direction

/-- Position of a column among the keys. -/
def precedence? (spec : SortSpec) (column : String) : Option Nat :=
  spec.keys.findIdx? fun key => key.column = column

/-- Takes a column one step around its cycle. It keeps its place when it turns to descending, and
gets the last place when it is set again. -/
def toggle (spec : SortSpec) (column : String) : SortSpec :=
  match spec.direction? column with
  | none => ⟨spec.keys ++ [⟨column, .ascending⟩]⟩
  | some d => ⟨change column (Direction.cycle (some d)) spec.keys⟩

/-- Sets a column, at its place if it has one. -/
def set (spec : SortSpec) (key : SortKey) : SortSpec :=
  if (spec.direction? key.column).isSome then
    ⟨change key.column (some key.direction) spec.keys⟩
  else ⟨spec.keys ++ [key]⟩

/-- A repeated column keeps its first place and takes its last direction. -/
def ofList (keys : List SortKey) : SortSpec := keys.foldl set empty

def isEmpty (spec : SortSpec) : Bool := spec.keys.isEmpty

end SortSpec

end RunQuery
