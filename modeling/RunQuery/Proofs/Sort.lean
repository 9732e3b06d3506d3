import Mathlib.Data.List.Nodup
import RunQuery.Sort

/-!
Columns of a sort specification. To take a column around its cycle leaves the others where they are: it is put
behind them, it keeps its place, or it goes. So no column comes to stand twice.
-/
namespace RunQuery.SortSpec

def columns (spec : SortSpec) : List String := spec.keys.map SortKey.column

/-- No column stands twice. -/
def Distinct (spec : SortSpec) : Prop := spec.columns.Nodup

/-- A column that gets another direction keeps its place. -/
theorem columns_change_some (column : String) (direction : Direction) (keys : List SortKey) :
    (change column (some direction) keys).map SortKey.column = keys.map SortKey.column := by
  induction keys with
  | nil => rfl
  | cons key rest ih =>
    by_cases same : key.column = column
    · simp [change, same]
    · simp [change, same, ih]

/-- A column that is removed goes from its first place. -/
theorem columns_change_none (column : String) (keys : List SortKey) :
    (change column none keys).map SortKey.column = (keys.map SortKey.column).erase column := by
  induction keys with
  | nil => rfl
  | cons key rest ih =>
    by_cases same : key.column = column
    · simp [change, same]
    · simp [change, same, ih]

theorem direction?_eq_none_iff {spec : SortSpec} {column : String} :
    spec.direction? column = none ↔ column ∉ spec.columns := by
  simp [direction?, columns]

/-- An unset column goes to the end, an ascending one stays where it is, a descending one goes. -/
theorem columns_toggle (spec : SortSpec) (column : String) :
    (spec.toggle column).columns =
      match spec.direction? column with
      | none => spec.columns ++ [column]
      | some .ascending => spec.columns
      | some .descending => spec.columns.erase column := by
  unfold toggle
  cases spec.direction? column with
  | none => simp [columns]
  | some direction =>
    cases direction with
    | ascending => exact columns_change_some column .descending spec.keys
    | descending => exact columns_change_none column spec.keys

theorem Distinct.toggle {spec : SortSpec} (distinct : spec.Distinct) (column : String) :
    (spec.toggle column).Distinct := by
  unfold Distinct
  rw [columns_toggle]
  cases standing : spec.direction? column with
  | none =>
    have absent := direction?_eq_none_iff.mp standing
    simpa using List.Nodup.concat absent distinct
  | some direction =>
    cases direction with
    | ascending => exact distinct
    | descending => exact distinct.erase column

end RunQuery.SortSpec
