import RunQuery.Navigator
import RunQuery.Number.Reading

/-!
Filters and sort keys as words of a command line: `field=value`, `field!=value`, `column`, `column:desc`.
Every filter binds its value to a parameter of its own, so that filters on one field do not meet.
-/
namespace RunQuery.CommandLine

inductive FilterTextError where
  | noOperator (raw : String)
  | noField (raw : String)
deriving DecidableEq

def FilterTextError.message : FilterTextError → String
  | .noOperator raw => "filter " ++ Text.quoted raw ++ " must look like field=value or field!=value"
  | .noField raw => "filter " ++ Text.quoted raw ++ " has an empty field name"

/-- The value of a word: an integer, a finite number, a truth value, or else the word itself. -/
def literal (raw : String) : Value :=
  match Integer.parseSigned? raw.toList with
  | some i => Value.ofInt i
  | none =>
    match (Number.parse? raw.toList).filter Number.isFinite with
    | some n => .number n
    | none =>
      if raw = "true" then .bool true else if raw = "false" then .bool false else .text raw

/-- Field, operation and value of a filter; `!=` is looked for before `=`. -/
def filterParts? (raw : List Char) : Option (List Char × Operation × List Char) :=
  match Text.cut? ['!', '='] raw with
  | some (field, value) => some (field, .neq, value)
  | none => (Text.cut? ['='] raw).map fun (field, value) => (field, .eq, value)

/-- The parameter of the filter at an index. -/
def bindName (field : List Char) (index : Nat) : String :=
  String.ofList (field.map fun c => if c = '.' then '_' else c) ++ "_" ++ toString index

/-- The filter that a word at an index stands for. -/
def filterOf (raw : String) (index : Nat) : Except FilterTextError Filter :=
  match filterParts? raw.toList with
  | none => .error (.noOperator raw)
  | some (left, operation, right) =>
    let field := Text.trim left
    if field.isEmpty then .error (.noField raw)
    else
      let bind := bindName field index
      let comparison : Comparison := ⟨String.ofList field, operation, .bind bind⟩
      .ok ((Filter.ofPredicate (.compare comparison)).withParam bind
        (literal (String.ofList (Text.trim right))))

/-- Column and direction of a sort key; a word without a direction is a column. -/
def sortKeyOf (raw : String) : SortKey :=
  match Text.cutLast? ':' raw.toList with
  | some (column, direction) =>
    if direction = "desc".toList then ⟨String.ofList column, .descending⟩
    else if direction = "asc".toList then ⟨String.ofList column, .ascending⟩
    else ⟨raw, .ascending⟩
  | none => ⟨raw, .ascending⟩

/-- Adds the filters of words whose first has the index `index`. -/
def addFilters (index : Nat) (nav : Navigator) :
    List String → Except FilterTextError Navigator
  | [] => .ok nav
  | raw :: rest =>
    match filterOf raw index with
    | .error e => .error e
    | .ok filter => addFilters (index + 1) (nav.setFilter filter) rest

/-- Toggles a column once for an ascending key and twice for a descending one. -/
def addSort (nav : Navigator) (key : SortKey) : Navigator :=
  let once := nav.toggleSort key.column
  match key.direction with
  | .ascending => once
  | .descending => once.toggleSort key.column

/-- The navigator that filters and sort keys describe. -/
def navigator (pageSize : PageSize) (filters sorts : List String) :
    Except FilterTextError Navigator :=
  (addFilters 0 (Navigator.new pageSize) filters).map fun nav =>
    (sorts.map sortKeyOf).foldl addSort nav

end RunQuery.CommandLine
