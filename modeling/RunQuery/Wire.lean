import RunQuery.Number.Basic

/-!
The data that both wire formats carry. A `Wire` tree is what was sent, with the kind of every number
and the order of every map. A `Scan` tree is what a reader has found before it is known what is
expected there: it also has places that hold no value.
-/
namespace RunQuery

inductive Wire where
  | null
  | bool (b : Bool)
  | int (i : Int)
  | single (word : UInt32)
  | double (n : Number)
  | text (s : String)
  | bytes (b : List UInt8)
  | list (items : List Wire)
  | map (entries : List (Wire × Wire))
deriving Inhabited

namespace Wire

/-- A map whose keys are texts. -/
def record (fields : List (String × Wire)) : Wire :=
  .map (fields.map fun field => (.text field.1, field.2))

def asText? : Wire → Option String
  | .text s => some s
  | _ => none

/-- The value of the first entry with a given text as its key. -/
def field? (name : String) : List (Wire × Wire) → Option Wire
  | [] => none
  | (key, value) :: rest => if key.asText? = some name then some value else field? name rest

mutual

/-- Equality as filters see it, number by number. -/
def same : Wire → Wire → Bool
  | .null, .null => true
  | .bool a, .bool b => a = b
  | .int a, .int b => a = b
  | .single a, .single b => Number.ofSingle a == Number.ofSingle b
  | .double a, .double b => a == b
  | .text a, .text b => a = b
  | .bytes a, .bytes b => a = b
  | .list a, .list b => sameItems a b
  | .map a, .map b => sameEntries a b
  | _, _ => false

def sameItems : List Wire → List Wire → Bool
  | [], [] => true
  | a :: as, b :: bs => same a b && sameItems as bs
  | _, _ => false

def sameEntries : List (Wire × Wire) → List (Wire × Wire) → Bool
  | [], [] => true
  | (k, a) :: as, (l, b) :: bs => same k l && same a b && sameEntries as bs
  | _, _ => false

end

instance : BEq Wire := ⟨same⟩

end Wire

/-- Why input is not what was expected. -/
inductive DecodeError where
  /-- The input breaks off or does not follow its format. -/
  | malformed
  /-- A place that can be skipped but holds no value. -/
  | noValue
  | tooDeep
  | unexpected (wanted : String)
  | missingField (name : String)
  | duplicateField (name : String)
  | unknownName (wanted : String)
  | untaggedPredicate
deriving DecidableEq

/-- A scanned tree. `flawed` stands for what is well formed but has no value, `broken` for the place
where the input stops to follow its format; nothing after it is scanned. -/
inductive Scan where
  | leaf (value : Wire)
  | list (items : List Scan)
  | map (entries : List (Scan × Scan))
  | flawed
  | broken
deriving Inhabited

namespace Scan

mutual

/-- The value of a scanned tree with at most `room` containers inside each other. -/
def read (room : Nat) : Scan → Except DecodeError Wire
  | .leaf value => .ok value
  | .list items =>
    if room = 0 then .error .tooDeep else (readItems (room - 1) items).map .list
  | .map entries =>
    if room = 0 then .error .tooDeep else (readEntries (room - 1) entries).map .map
  | .flawed => .error .noValue
  | .broken => .error .malformed

def readItems (room : Nat) : List Scan → Except DecodeError (List Wire)
  | [] => .ok []
  | item :: rest => do
    let value ← read room item
    let values ← readItems room rest
    return value :: values

def readEntries (room : Nat) : List (Scan × Scan) → Except DecodeError (List (Wire × Wire))
  | [] => .ok []
  | (key, value) :: rest => do
    let key ← read room key
    let value ← read room value
    let entries ← readEntries room rest
    return (key, value) :: entries

end

mutual

/-- What can be passed over; `room` bounds the containers inside each other, if anything does. -/
def skip (room : Option Nat) : Scan → Except DecodeError Unit
  | .leaf _ => .ok ()
  | .list items =>
    if room = some 0 then .error .tooDeep else skipItems (room.map (· - 1)) items
  | .map entries =>
    if room = some 0 then .error .tooDeep else skipEntries (room.map (· - 1)) entries
  | .flawed => .ok ()
  | .broken => .error .malformed

def skipItems (room : Option Nat) : List Scan → Except DecodeError Unit
  | [] => .ok ()
  | item :: rest => do
    skip room item
    skipItems room rest

def skipEntries (room : Option Nat) : List (Scan × Scan) → Except DecodeError Unit
  | [] => .ok ()
  | (key, value) :: rest => do
    skip room key
    skip room value
    skipEntries room rest

end

mutual

/-- A value as a tree without flaws. -/
def ofWire : Wire → Scan
  | .list items => .list (ofItems items)
  | .map entries => .map (ofEntries entries)
  | scalar => .leaf scalar

def ofItems : List Wire → List Scan
  | [] => []
  | item :: rest => ofWire item :: ofItems rest

def ofEntries : List (Wire × Wire) → List (Scan × Scan)
  | [] => []
  | (key, value) :: rest => (ofWire key, ofWire value) :: ofEntries rest

end

end Scan

end RunQuery
