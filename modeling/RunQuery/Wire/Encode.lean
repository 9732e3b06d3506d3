import RunQuery.Query

/-!
Wire form of values, filters and messages. Fields stand in one fixed order; those that are absent or
empty are left out where their reader supplies them.
-/
namespace RunQuery

namespace Value

mutual

def toWire : Value → Wire
  | .none => .null
  | .text s => .text s
  | .number n => .double n
  | .bool b => .bool b
  | .binary bytes => .bytes bytes
  | .list items => .list (itemsToWire items)
  | .map entries => .map (entriesToWire entries)

def itemsToWire : List Value → List Wire
  | [] => []
  | item :: rest => toWire item :: itemsToWire rest

def entriesToWire : List (String × Value) → List (Wire × Wire)
  | [] => []
  | (key, value) :: rest => (.text key, toWire value) :: entriesToWire rest

end

end Value

def Operand.toWire : Operand → Wire
  | .bind name => .record [("kind", .text "bindValue"), ("name", .text name)]
  | .literal value => .record [("kind", .text "literal"), ("value", value.toWire)]
  | .field path => .record [("kind", .text "locatable"), ("path", .text path)]

def Comparison.fields (c : Comparison) : List (String × Wire) :=
  [("location", .text c.location), ("operation", .text c.operation.name),
    ("value", c.operand.toWire)]

def Comparison.toWire (c : Comparison) : Wire := .record c.fields

namespace Predicate

mutual

/-- A node of an unknown kind is written as it was received. -/
def toWire : Predicate → Wire
  | .and children => .record [("kind", .text "and"), ("children", .list (childrenToWire children))]
  | .or children => .record [("kind", .text "or"), ("children", .list (childrenToWire children))]
  | .not child => .record [("kind", .text "not"), ("child", toWire child)]
  | .compare c => .record (("kind", .text "compare") :: c.fields)
  | .unknown _ raw => raw

def childrenToWire : List Predicate → List Wire
  | [] => []
  | child :: rest => toWire child :: childrenToWire rest

end

end Predicate

/-- A field that is written if it has a value. -/
def optionalField (name : String) : Option Wire → List (String × Wire)
  | none => []
  | some value => [(name, value)]

def Dict.toWire (params : Dict Value) : Wire := .map (Value.entriesToWire params.entries)

def Filter.toWire (f : Filter) : Wire :=
  .record (optionalField "predicate" (f.predicate.map Predicate.toWire) ++
    optionalField "params" (if f.params.isEmpty then none else some f.params.toWire))

def Direction.toWire (d : Direction) : Wire := .text d.name

def SortKey.toWire (key : SortKey) : Wire :=
  .record [("column", .text key.column), ("direction", key.direction.toWire)]

def SortSpec.toWire (spec : SortSpec) : Wire := .list (spec.keys.map SortKey.toWire)

def Cursor.toWire : Cursor → Wire
  | .forward token => .record [("direction", .text "forward"), ("token", .text token)]
  | .backward token => .record [("direction", .text "backward"), ("token", .text token)]

def Request.toWire (r : Request) : Wire :=
  .record (optionalField "where" (r.filter.map Filter.toWire) ++
    optionalField "sort" (if r.sort.isEmpty then none else some (.list (r.sort.map SortKey.toWire))) ++
    optionalField "limit" (r.limit.map fun n => .int n.toNat) ++
    optionalField "cursor" (r.cursor.map Cursor.toWire))

def Record.toWire (r : Record) : Wire :=
  .record [("id", .text r.id), ("type", .text r.type), ("version", .int r.version.toNat),
    ("data", r.data.toWire)]

def Page.toWire (p : Page) : Wire :=
  .record ([("records", .list (p.records.map Record.toWire))] ++
    optionalField "next" (p.next.map Wire.text) ++
    optionalField "previous" (p.previous.map Wire.text))

end RunQuery
