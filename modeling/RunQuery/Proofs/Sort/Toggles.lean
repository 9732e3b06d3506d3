import Mathlib.Data.List.Induction
import Mathlib.Logic.Function.Iterate
import RunQuery.Proofs.Sort

/-!
Runs of toggles. A toggle takes its own column one step around the cycle and leaves every other column as it was, so the
direction of a column is told by how often it was toggled. Its place is told by when it was last taken in: the columns
of a specification stand in the order of the toggles that took them in.
-/
namespace RunQuery.SortSpec

/-- What a sequence of toggles makes of a specification. -/
def after (spec : SortSpec) (toggles : List String) : SortSpec := toggles.foldl toggle spec

@[simp] theorem after_nil (spec : SortSpec) : spec.after [] = spec := rfl

@[simp] theorem after_cons (spec : SortSpec) (column : String) (toggles : List String) :
    spec.after (column :: toggles) = (spec.toggle column).after toggles := rfl

@[simp] theorem after_append (spec : SortSpec) (first second : List String) :
    spec.after (first ++ second) = (spec.after first).after second :=
  List.foldl_append

theorem distinct_empty : empty.Distinct := List.nodup_nil

theorem Distinct.after {spec : SortSpec} (distinct : spec.Distinct) (toggles : List String) :
    (spec.after toggles).Distinct := by
  induction toggles generalizing spec with
  | nil => exact distinct
  | cons column rest ih => exact ih (distinct.toggle column)

section Step

variable {spec : SortSpec} {column other : String} {direction : Direction}

theorem mem_columns_iff : column ∈ spec.columns ↔ ∃ direction, spec.direction? column = some direction := by
  rw [← Option.ne_none_iff_exists', ne_eq, direction?_eq_none_iff, not_not]

theorem toggle_of_unset (unset : spec.direction? column = none) :
    spec.toggle column = ⟨spec.keys ++ [⟨column, .ascending⟩]⟩ := by
  simp [toggle, unset]

theorem toggle_of_set (standing : spec.direction? column = some direction) :
    spec.toggle column = ⟨change column (Direction.cycle (some direction)) spec.keys⟩ := by
  simp [toggle, standing]

theorem direction?_concat (key : SortKey) (column : String) :
    direction? ⟨spec.keys ++ [key]⟩ column =
      (spec.direction? column).or (if key.column = column then some key.direction else none) := by
  by_cases same : key.column = column <;> simp [direction?, List.find?_append, same]

/-- The keys of other columns are found as they were. -/
theorem direction?_change_of_ne (apart : column ≠ other) (new : Option Direction) (keys : List SortKey) :
    direction? ⟨change column new keys⟩ other = direction? ⟨keys⟩ other := by
  induction keys with
  | nil => rfl
  | cons key rest ih =>
    by_cases own : key.column = column
    · cases new <;> simp [change, direction?, own, apart]
    · by_cases found : key.column = other
      · simp [change, direction?, found, Ne.symm apart]
      · simpa [change, direction?, own, found] using ih

theorem direction?_change_self (present : column ∈ spec.columns) (new : Direction) :
    direction? ⟨change column (some new) spec.keys⟩ column = some new := by
  obtain ⟨keys⟩ := spec
  induction keys with
  | nil => cases present
  | cons key rest ih =>
    by_cases own : key.column = column
    · simp [change, direction?, own]
    · have later : column ∈ columns ⟨rest⟩ := by simpa [columns, Ne.symm own] using present
      simpa [change, direction?, own] using ih later

/-- A toggle is no concern of other columns. -/
theorem direction?_toggle_of_ne (apart : column ≠ other) :
    (spec.toggle column).direction? other = spec.direction? other := by
  cases standing : spec.direction? column with
  | none => simp [toggle_of_unset standing, direction?_concat, apart]
  | some direction => simpa [toggle_of_set standing] using direction?_change_of_ne apart ..

/-- A column that stands once goes one step around its cycle. -/
theorem Distinct.direction?_toggle (distinct : spec.Distinct) (column : String) :
    (spec.toggle column).direction? column = Direction.cycle (spec.direction? column) := by
  cases standing : spec.direction? column with
  | none => simp [toggle_of_unset standing, direction?_concat, standing, Direction.cycle]
  | some direction =>
    cases direction with
    | ascending =>
      have present : column ∈ spec.columns := mem_columns_iff.mpr ⟨_, standing⟩
      simpa [toggle_of_set standing, Direction.cycle] using direction?_change_self present .descending
    | descending =>
      have columns := columns_toggle spec column
      rw [standing] at columns
      rw [Direction.cycle, direction?_eq_none_iff, columns]
      exact List.Nodup.not_mem_erase distinct

theorem Distinct.mem_keys_iff (distinct : spec.Distinct) :
    SortKey.mk column direction ∈ spec.keys ↔ spec.direction? column = some direction := by
  obtain ⟨keys⟩ := spec
  induction keys with
  | nil => simp [direction?]
  | cons key rest ih =>
    obtain ⟨first, others⟩ := List.nodup_cons.mp distinct
    by_cases own : key.column = column
    · have gone : SortKey.mk column direction ∉ rest := by
        intro member
        exact first (own ▸ List.mem_map_of_mem member)
      obtain ⟨named, standing⟩ := key
      obtain rfl : named = column := own
      simp [direction?, gone, eq_comm]
    · have apart : SortKey.mk column direction ≠ key := by
        rintro rfl
        exact own rfl
      simpa [direction?, own, apart] using ih others

/-- The place of a column is its place among the columns. -/
theorem precedence?_eq (spec : SortSpec) (column : String) :
    spec.precedence? column = spec.columns.findIdx? (· = column) := by
  simp [precedence?, columns, List.findIdx?_map, Function.comp_def]

/-- Where no column stands twice, a column is found at each of its places. -/
theorem Distinct.precedence?_eq_some_iff (distinct : spec.Distinct) {i : Nat} :
    spec.precedence? column = some i ↔ spec.columns[i]? = some column := by
  rw [precedence?_eq, List.findIdx?_eq_some_iff_getElem, List.getElem?_eq_some_iff]
  refine exists_congr fun inside => ?_
  simp only [decide_eq_true_eq, and_iff_left_iff_imp]
  intro here j before there
  exact List.pairwise_iff_getElem.mp distinct j i (by omega) inside before (there.trans here.symm)

/-- A column that is taken out and in again goes to the end. -/
theorem columns_toggle_toggle (distinct : spec.Distinct) (last : spec.direction? column = some .descending) :
    (spec.toggle column).columns = spec.columns.erase column ∧
      ((spec.toggle column).toggle column).columns = spec.columns.erase column ++ [column] := by
  have removed : (spec.toggle column).columns = spec.columns.erase column := by
    rw [columns_toggle, last]
  have unset : (spec.toggle column).direction? column = none := by
    rw [distinct.direction?_toggle, last]
    rfl
  refine ⟨removed, ?_⟩
  rw [columns_toggle, unset, removed]

end Step

/-- Each toggle of a column takes it one step on, whatever toggles of other columns come between. -/
theorem Distinct.direction?_after {spec : SortSpec} (distinct : spec.Distinct) (toggles : List String)
    (column : String) :
    (spec.after toggles).direction? column =
      Nat.iterate Direction.cycle (toggles.count column) (spec.direction? column) := by
  induction toggles generalizing spec with
  | nil => rfl
  | cons toggled rest ih =>
    rw [after_cons, ih (distinct.toggle toggled)]
    by_cases own : toggled = column
    · subst own
      rw [distinct.direction?_toggle, List.count_cons_self, Function.iterate_succ_apply]
    · rw [direction?_toggle_of_ne own, List.count_cons_of_ne own]

theorem iterate_cycle_add_three (n : Nat) (direction : Option Direction) :
    Nat.iterate Direction.cycle (n + 3) direction = Nat.iterate Direction.cycle n direction := by
  rcases direction with _ | _ | _ <;> rfl

/-- The cycle has three steps. -/
theorem iterate_cycle (n : Nat) :
    Nat.iterate Direction.cycle n none =
      match n % 3 with
      | 0 => none
      | 1 => some .ascending
      | _ => some .descending := by
  match n with
  | 0 => rfl
  | 1 => rfl
  | 2 => rfl
  | n + 3 => rw [iterate_cycle_add_three, Nat.add_mod_right, iterate_cycle n]

section Order

variable {toggles : List String} {column other : String} {i j : Nat}

/-- The toggle at a position takes a column in: the column is unset before it and set after it. -/
def Enters (toggles : List String) (column : String) (i : Nat) : Prop :=
  column ∉ (empty.after (toggles.take i)).columns ∧ column ∈ (empty.after (toggles.take (i + 1))).columns

/-- The last toggle that takes a column in. -/
def EntersLast (toggles : List String) (column : String) (i : Nat) : Prop :=
  Enters toggles column i ∧ ∀ j, Enters toggles column j → j ≤ i

theorem Enters.lt (enters : Enters toggles column i) : i < toggles.length := by
  by_contra beyond
  obtain ⟨before, behind⟩ := enters
  rw [List.take_of_length_le (by omega)] at before behind
  exact before behind

theorem Enters.le_length (enters : Enters (toggles ++ [other]) column i) : i ≤ toggles.length := by
  have inside := enters.lt
  rw [List.length_append, List.length_singleton] at inside
  omega

theorem EntersLast.unique (enters : EntersLast toggles column i) (again : EntersLast toggles column j) : i = j :=
  Nat.le_antisymm (again.2 i enters.1) (enters.2 j again.1)

/-- A column enters by its own toggle. -/
theorem Enters.getElem? (enters : Enters toggles column i) : toggles[i]? = some column := by
  have inside := enters.lt
  obtain ⟨before, behind⟩ := enters
  rw [List.take_add_one, List.getElem?_eq_getElem inside, Option.toList_some, after_append, mem_columns_iff] at behind
  obtain ⟨direction, standing⟩ := behind
  rw [List.getElem?_eq_getElem inside]
  by_contra apart
  rw [after_cons, after_nil, direction?_toggle_of_ne (fun own => apart (congrArg some own))] at standing
  exact before (mem_columns_iff.mpr ⟨direction, standing⟩)

/-- A further toggle leaves the positions before it as they were. -/
theorem enters_concat_of_lt (inside : i < toggles.length) :
    Enters (toggles ++ [other]) column i ↔ Enters toggles column i := by
  unfold Enters
  rw [List.take_append_of_le_length (by omega), List.take_append_of_le_length (by omega)]

theorem enters_concat_length :
    Enters (toggles ++ [other]) column toggles.length ↔
      column ∉ (empty.after toggles).columns ∧ column ∈ ((empty.after toggles).toggle other).columns := by
  have whole : (toggles ++ [other]).take (toggles.length + 1) = toggles ++ [other] :=
    List.take_of_length_le (by simp)
  simp [Enters, whole]

/-- A column that is set does not enter by the next toggle. -/
theorem entersLast_concat_of_mem (present : column ∈ (empty.after toggles).columns) :
    EntersLast (toggles ++ [other]) column i ↔ EntersLast toggles column i := by
  have same (j : Nat) : Enters (toggles ++ [other]) column j ↔ Enters toggles column j := by
    rcases Nat.lt_trichotomy j toggles.length with inside | rfl | beyond
    · exact enters_concat_of_lt inside
    · apply iff_of_false
      · exact fun enters => (enters_concat_length.mp enters).1 present
      · exact fun enters => Nat.lt_irrefl _ enters.lt
    · apply iff_of_false
      · exact fun enters => Nat.not_le_of_lt beyond enters.le_length
      · exact fun enters => Nat.lt_asymm beyond enters.lt
  simp only [EntersLast, same]

theorem entersLast_concat_self (absent : column ∉ (empty.after toggles).columns) :
    EntersLast (toggles ++ [column]) column toggles.length := by
  constructor
  · apply enters_concat_length.mpr
    refine ⟨absent, ?_⟩
    rw [columns_toggle, direction?_eq_none_iff.mpr absent]
    exact List.mem_append_right _ (List.mem_singleton_self column)
  · exact fun j enters => enters.le_length

/-- The columns stand in the order of the toggles that last took them in. -/
structure InOrder (toggles : List String) : Prop where
  entered : ∀ column ∈ (empty.after toggles).columns, ∃ i, EntersLast toggles column i
  ordered : (empty.after toggles).columns.Pairwise fun a b =>
    ∀ i j, EntersLast toggles a i → EntersLast toggles b j → i < j

/-- What is set before a toggle has its position still, and stands in the same order. -/
theorem InOrder.kept (inOrder : InOrder toggles) (column : String) :
    (∀ other ∈ (empty.after toggles).columns, ∃ i, EntersLast (toggles ++ [column]) other i) ∧
    (empty.after toggles).columns.Pairwise fun a b =>
      ∀ i j, EntersLast (toggles ++ [column]) a i → EntersLast (toggles ++ [column]) b j → i < j := by
  obtain ⟨entered, ordered⟩ := inOrder
  constructor
  · intro other present
    obtain ⟨i, last⟩ := entered other present
    exact ⟨i, (entersLast_concat_of_mem present).mpr last⟩
  · refine ordered.imp_of_mem fun {a b} first second before i j => ?_
    rw [entersLast_concat_of_mem first, entersLast_concat_of_mem second]
    exact before i j

theorem InOrder.concat (inOrder : InOrder toggles) (column : String) : InOrder (toggles ++ [column]) := by
  obtain ⟨old, kept⟩ := inOrder.kept column
  have columns : (empty.after (toggles ++ [column])).columns = _ :=
    (congrArg _ (after_append ..)).trans (columns_toggle (empty.after toggles) column)
  cases standing : (empty.after toggles).direction? column with
  | none =>
    rw [standing] at columns
    have absent := direction?_eq_none_iff.mp standing
    have last := entersLast_concat_self absent
    constructor
    · intro other member
      rw [columns, List.mem_append, List.mem_singleton] at member
      rcases member with present | rfl
      · exact old other present
      · exact ⟨_, last⟩
    · rw [columns]
      apply List.pairwise_append.mpr
      refine ⟨kept, List.pairwise_singleton .., ?_⟩
      intro a present b new i j first second
      rw [List.mem_singleton] at new
      subst new
      rw [second.unique last]
      exact ((entersLast_concat_of_mem present).mp first).1.lt
  | some direction =>
    cases direction with
    | ascending =>
      rw [standing] at columns
      exact ⟨columns ▸ old, columns ▸ kept⟩
    | descending =>
      rw [standing] at columns
      constructor
      · intro other member
        rw [columns] at member
        exact old other (List.mem_of_mem_erase member)
      · rw [columns]
        exact kept.sublist List.erase_sublist

theorem inOrder (toggles : List String) : InOrder toggles := by
  induction toggles using List.reverseRecOn with
  | nil => exact ⟨nofun, List.Pairwise.nil⟩
  | append_singleton toggles column ih => exact ih.concat column

end Order

/-- What any sequence of toggles makes of the empty specification. No column stands twice. A column is set exactly if it
was toggled a number of times that three does not divide, ascending where one is left over and descending where two are.
The columns stand in the order of the toggles that last took them in; so a column that turns to descending leaves every
column at its place, and one that is taken out and in again goes to the end. -/
theorem toggles_tell_keys (toggles : List String) :
    (empty.after toggles).Distinct ∧
    let spec := empty.after toggles
    (∀ column, (column ∈ spec.columns ↔ toggles.count column % 3 ≠ 0) ∧
      (SortKey.mk column .ascending ∈ spec.keys ↔ toggles.count column % 3 = 1) ∧
      (SortKey.mk column .descending ∈ spec.keys ↔ toggles.count column % 3 = 2)) ∧
    (∀ column direction, spec.direction? column = some direction ↔ SortKey.mk column direction ∈ spec.keys) ∧
    (∀ column i, spec.precedence? column = some i ↔ spec.columns[i]? = some column) ∧
    (∀ column ∈ spec.columns, ∃ i, EntersLast toggles column i ∧ toggles[i]? = some column) ∧
    (spec.columns.Pairwise fun a b => ∀ i j, EntersLast toggles a i → EntersLast toggles b j → i < j) ∧
    (∀ column, spec.direction? column = some .ascending →
      ∀ other, (spec.toggle column).precedence? other = spec.precedence? other) ∧
    (∀ column, spec.direction? column = some .descending →
      (spec.toggle column).columns = spec.columns.erase column ∧
        ((spec.toggle column).toggle column).columns = spec.columns.erase column ++ [column]) := by
  have distinct : (empty.after toggles).Distinct := distinct_empty.after toggles
  refine ⟨distinct, ?_⟩
  intro spec
  have direction (column : String) : spec.direction? column = _ :=
    (distinct_empty.direction?_after toggles column).trans (iterate_cycle _)
  obtain ⟨entered, ordered⟩ := inOrder toggles
  refine ⟨fun column => ⟨?_, ?_, ?_⟩, fun _ _ => distinct.mem_keys_iff.symm,
    fun _ _ => distinct.precedence?_eq_some_iff, ?_, ordered, ?_, ?_⟩
  · rw [mem_columns_iff, direction]
    split <;> simp_all
  · rw [distinct.mem_keys_iff, direction]
    split <;> simp_all
  · rw [distinct.mem_keys_iff, direction]
    split <;> simp_all
    omega
  · intro column present
    obtain ⟨i, last⟩ := entered column present
    exact ⟨i, last, last.1.getElem?⟩
  · intro column standing other
    rw [precedence?_eq, precedence?_eq, columns_toggle, standing]
  · intro column standing
    exact columns_toggle_toggle distinct standing

/-- Three columns in turn; the first one goes and comes back behind the others. -/
theorem toggles_tell_keys_interleaved :
    let toggles := ["a", "b", "a", "c", "a", "b", "a"]
    let spec := empty.after toggles
    spec.keys = [⟨"b", .descending⟩, ⟨"c", .ascending⟩, ⟨"a", .ascending⟩] ∧
    (∃ i, EntersLast toggles "b" i ∧ toggles[i]? = some "b") ∧ toggles.count "a" % 3 ≠ 0 ∧
    (∀ i j, EntersLast toggles "b" i → EntersLast toggles "a" j → i < j) ∧
    spec.direction? "c" = some .ascending ∧ (spec.toggle "c").precedence? "a" = spec.precedence? "a" ∧
    spec.direction? "b" = some .descending ∧ ((spec.toggle "b").toggle "b").columns = ["c", "a", "b"] := by
  intro toggles spec
  obtain ⟨-, counted, -, -, entered, ordered, flips, returns⟩ := toggles_tell_keys toggles
  have columns : (empty.after toggles).columns = ["b", "c", "a"] := rfl
  rw [columns] at entered ordered
  obtain ⟨first, -⟩ := List.pairwise_cons.mp ordered
  have often : toggles.count "a" % 3 ≠ 0 := (counted "a").1.mp (by simp [columns])
  exact ⟨rfl, entered "b" (by simp), often, first "a" (by simp), rfl, flips "c" rfl "a", rfl, (returns "b" rfl).2⟩

end RunQuery.SortSpec
