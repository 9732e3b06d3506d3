import RunQuery.Dict
import RunQuery.Number.Decimal
import RunQuery.Text.Quoted
import RunQuery.Text.Parts

/-!
Values of schemaless records. A map's entries stand in key order; `WellFormed` says so, and the
operations that build maps keep it. `compare?` orders values of one kind; filters compare with `==`,
for which a NaN differs from itself.
-/
namespace RunQuery

inductive Value where
  | none
  | text (s : String)
  | number (n : Number)
  | bool (b : Bool)
  | binary (bytes : List UInt8)
  | list (items : List Value)
  | map (entries : List (String × Value))
deriving Inhabited

namespace Value

inductive Kind where
  | none | text | number | bool | binary | list | map
deriving DecidableEq

def Kind.name : Kind → String
  | .none => "none"
  | .text => "string"
  | .number => "number"
  | .bool => "bool"
  | .binary => "binary"
  | .list => "list"
  | .map => "map"

def kind : Value → Kind
  | .none => .none
  | .text _ => .text
  | .number _ => .number
  | .bool _ => .bool
  | .binary _ => .binary
  | .list _ => .list
  | .map _ => .map

def isNone : Value → Bool
  | .none => true
  | _ => false

def asText? : Value → Option String
  | .text s => some s
  | _ => Option.none

def asNumber? : Value → Option Number
  | .number n => some n
  | _ => Option.none

def asMap? : Value → Option (List (String × Value))
  | .map entries => some entries
  | _ => Option.none

/-- An integer as a value, rounded to a number. -/
def ofInt (i : Int) : Value := .number (Number.ofInt i)

/-- The map of a list of pairs; of a repeated key the last value stays. -/
def ofPairs (pairs : List (String × Value)) : Value := .map (Entries.ofPairs pairs)

mutual

/-- The keys of every map in a value strictly increase. -/
def WellFormed : Value → Prop
  | .list items => AllWellFormed items
  | .map entries => Entries.Sorted entries ∧ EntriesWellFormed entries
  | _ => True

def AllWellFormed : List Value → Prop
  | [] => True
  | item :: rest => item.WellFormed ∧ AllWellFormed rest

def EntriesWellFormed : List (String × Value) → Prop
  | [] => True
  | (_, value) :: rest => value.WellFormed ∧ EntriesWellFormed rest

end

/-- Follows the names of a path through nested maps. -/
def follow : List String → Value → Option Value
  | [], value => some value
  | name :: rest, .map entries => (Entries.get? name entries).bind (follow rest)
  | _ :: _, _ => Option.none

/-- The value at a dotted path; the empty path is the value itself. -/
def atPath? (value : Value) (path : String) : Option Value :=
  if path = "" then some value
  else value.follow ((Text.segments '.' path.toList).map String.ofList)

def compareBytes (a b : List UInt8) : Ordering :=
  if a < b then .lt else if a = b then .eq else .gt

/-- Order of two values of one kind that has an order. -/
def compare? : Value → Value → Option Ordering
  | .number a, .number b => a.compare? b
  | .text a, .text b => some (compare a b)
  | .bool a, .bool b => some (compare a b)
  | .binary a, .binary b => some (compareBytes a b)
  | _, _ => Option.none

mutual

/-- Equality as filters see it, number by number. -/
def same : Value → Value → Bool
  | .none, .none => true
  | .text a, .text b => a = b
  | .number a, .number b => a == b
  | .bool a, .bool b => a = b
  | .binary a, .binary b => a = b
  | .list a, .list b => sameItems a b
  | .map a, .map b => sameEntries a b
  | _, _ => false

def sameItems : List Value → List Value → Bool
  | [], [] => true
  | a :: as, b :: bs => same a b && sameItems as bs
  | _, _ => false

def sameEntries : List (String × Value) → List (String × Value) → Bool
  | [], [] => true
  | (k, a) :: as, (l, b) :: bs => k = l && same a b && sameEntries as bs
  | _, _ => false

end

instance : BEq Value := ⟨same⟩

mutual

/-- Readable text of a value. -/
def display : Value → String
  | .none => "none"
  | .text s => Text.quoted s
  | .number n => String.ofList n.plain
  | .bool b => if b then "true" else "false"
  | .binary bytes => "<" ++ toString bytes.length ++ " bytes>"
  | .list items => "[" ++ Text.joined ", " (displayItems items) ++ "]"
  | .map entries => "\x7b" ++ Text.joined ", " (displayEntries entries) ++ "\x7d"

def displayItems : List Value → List String
  | [] => []
  | item :: rest => display item :: displayItems rest

def displayEntries : List (String × Value) → List String
  | [] => []
  | (key, value) :: rest => (key ++ ": " ++ display value) :: displayEntries rest

end

end Value

end RunQuery
