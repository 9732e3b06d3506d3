import RunQuery.Proofs.Sort.Toggles

/-!
Specifications of listed keys. A key that is set changes its column where it stands, or brings it behind all others, so
a repeated column keeps its first place and takes its last direction. An unset column is also set by toggles, one for
ascending and two for descending; where no column is repeated, the toggles of all keys set them all.
-/
namespace RunQuery

/-- The number of toggles that take an unset column to a direction. -/
def Direction.steps : Direction → Nat
  | .ascending => 1
  | .descending => 2

/-- The toggles that set the column of a key, if it is unset. -/
def SortKey.presses (key : SortKey) : List String := List.replicate key.direction.steps key.column

namespace SortSpec

/-- The toggles of all keys, one key after another. -/
def presses (keys : List SortKey) : List String := keys.flatMap SortKey.presses

section Set

variable {spec : SortSpec} {key : SortKey} {column : String}

/-- A key that is set changes its column where it stands, or brings it behind all others. -/
theorem columns_set (spec : SortSpec) (key : SortKey) :
    (spec.set key).columns =
      if key.column ∈ spec.columns then spec.columns else spec.columns ++ [key.column] := by
  unfold set
  by_cases present : key.column ∈ spec.columns
  · obtain ⟨direction, standing⟩ := mem_columns_iff.mp present
    simp only [standing, Option.isSome_some, if_pos, present]
    exact columns_change_some key.column key.direction spec.keys
  · rw [direction?_eq_none_iff.mpr present, if_neg present]
    simp [columns]

theorem set_of_unset (unset : spec.direction? key.column = none) : spec.set key = ⟨spec.keys ++ [key]⟩ := by
  simp [set, unset]

theorem direction?_set (spec : SortSpec) (key : SortKey) (column : String) :
    (spec.set key).direction? column = if key.column = column then some key.direction else spec.direction? column := by
  cases standing : spec.direction? key.column with
  | none =>
    rw [set_of_unset standing, direction?_concat]
    by_cases own : key.column = column
    · subst own
      simp [standing]
    · simp [own]
  | some direction =>
    have present : key.column ∈ spec.columns := mem_columns_iff.mpr ⟨direction, standing⟩
    rw [set, if_pos (by simp [standing])]
    split
    next own => exact own ▸ direction?_change_self present key.direction
    next apart => exact direction?_change_of_ne apart ..

theorem Distinct.set (distinct : spec.Distinct) (key : SortKey) : (spec.set key).Distinct := by
  unfold Distinct
  rw [columns_set]
  split
  next => exact distinct
  next absent => simpa using List.Nodup.concat absent distinct

theorem change_concat (absent : column ∉ spec.columns) (direction : Direction) (new : Option Direction) :
    change column new (spec.keys ++ [⟨column, direction⟩]) = spec.keys ++ (new.map (SortKey.mk column)).toList := by
  obtain ⟨keys⟩ := spec
  induction keys with
  | nil => simp [change]
  | cons key rest ih =>
    obtain ⟨apart, later⟩ : column ≠ key.column ∧ column ∉ columns ⟨rest⟩ := by simpa [columns] using absent
    simpa [change, Ne.symm apart] using ih later

/-- An unset column is set by toggles as by its key. -/
theorem after_presses_of_unset (unset : spec.direction? key.column = none) : spec.after key.presses = spec.set key := by
  obtain ⟨column, direction⟩ := key
  have first : spec.toggle column = ⟨spec.keys ++ [⟨column, .ascending⟩]⟩ := toggle_of_unset unset
  rw [set_of_unset unset]
  cases direction with
  | ascending => exact first
  | descending =>
    have standing : direction? ⟨spec.keys ++ [⟨column, .ascending⟩]⟩ column = some .ascending := by
      simp [direction?_concat, show spec.direction? column = none from unset]
    show (spec.toggle column).toggle column = _
    rw [first, toggle_of_set standing, change_concat (direction?_eq_none_iff.mp unset)]
    rfl

end Set

section Listed

variable {keys : List SortKey} {column : String}

theorem distinct_ofList (keys : List SortKey) : (ofList keys).Distinct := by
  have kept (spec : SortSpec) (distinct : spec.Distinct) : (keys.foldl SortSpec.set spec).Distinct := by
    induction keys generalizing spec with
    | nil => exact distinct
    | cons key rest ih => exact ih (spec.set key) (distinct.set key)
  exact kept empty distinct_empty

theorem direction?_foldl_set_of_notMem {spec : SortSpec} (absent : column ∉ keys.map SortKey.column) :
    (keys.foldl SortSpec.set spec).direction? column = spec.direction? column := by
  induction keys generalizing spec with
  | nil => rfl
  | cons key rest ih =>
    rw [List.map_cons, List.mem_cons, not_or] at absent
    rw [List.foldl_cons, ih absent.2, direction?_set, if_neg (Ne.symm absent.1)]

/-- A column has the direction of its last key. -/
theorem direction?_ofList {key : SortKey} {early late : List SortKey} (last : key.column ∉ late.map SortKey.column) :
    (ofList (early ++ key :: late)).direction? key.column = some key.direction := by
  rw [ofList, List.foldl_append, List.foldl_cons, direction?_foldl_set_of_notMem last, direction?_set, if_pos rfl]

/-- Keys of distinct unset columns are set one behind another, by their toggles too. -/
theorem after_presses_of_fresh {spec : SortSpec} (distinct : (keys.map SortKey.column).Nodup)
    (fresh : ∀ key ∈ keys, key.column ∉ spec.columns) :
    spec.after (presses keys) = keys.foldl SortSpec.set spec ∧
      (keys.foldl SortSpec.set spec).keys = spec.keys ++ keys := by
  induction keys generalizing spec with
  | nil => simp [presses]
  | cons key rest ih =>
    rw [List.map_cons, List.nodup_cons] at distinct
    have unset := direction?_eq_none_iff.mpr (fresh key List.mem_cons_self)
    have later : ∀ other ∈ rest, other.column ∉ (spec.set key).columns := by
      intro other member
      rw [columns_set, if_neg (fresh key List.mem_cons_self), List.mem_append, List.mem_singleton, not_or]
      refine ⟨fresh other (List.mem_cons_of_mem key member), fun own => distinct.1 ?_⟩
      exact own ▸ List.mem_map_of_mem member
    obtain ⟨pressed, listed⟩ := ih distinct.2 later
    rw [presses, List.flatMap_cons, after_append, ← presses, after_presses_of_unset unset, List.foldl_cons]
    refine ⟨pressed, ?_⟩
    rw [listed, set_of_unset unset, List.append_assoc, List.singleton_append]

theorem count_presses_of_notMem (absent : column ∉ keys.map SortKey.column) : (presses keys).count column = 0 := by
  refine List.count_eq_zero.mpr fun member => absent ?_
  obtain ⟨key, listed, pressed⟩ := List.mem_flatMap.mp member
  rw [(List.mem_replicate.mp pressed).2]
  exact List.mem_map_of_mem listed

theorem count_presses_of_last {key : SortKey} {early late : List SortKey}
    (last : key.column ∉ late.map SortKey.column) :
    (presses (early ++ key :: late)).count key.column = (presses early).count key.column + key.direction.steps := by
  have later := count_presses_of_notMem last
  rw [presses] at later ⊢
  rw [List.flatMap_append, List.flatMap_cons, List.count_append, List.count_append, later, SortKey.presses,
    List.count_replicate_self]
  rfl

/-- Toggles leave a column as it was exactly if they come round. -/
theorem iterate_cycle_eq_self_iff (n : Nat) (direction : Option Direction) :
    Nat.iterate Direction.cycle n direction = direction ↔ 3 ∣ n := by
  match n with
  | 0 => simp
  | 1 => rcases direction with _ | _ | _ <;> decide
  | 2 => rcases direction with _ | _ | _ <;> decide
  | n + 3 =>
    rw [iterate_cycle_add_three, iterate_cycle_eq_self_iff n direction]
    omega

/-- The toggles of a direction lead to it exactly if those before them come round. -/
theorem iterate_cycle_steps (n : Nat) (direction : Direction) :
    Nat.iterate Direction.cycle (n + direction.steps) none = some direction ↔ 3 ∣ n := by
  have reached : Nat.iterate Direction.cycle direction.steps none = some direction := by
    cases direction <;> rfl
  rw [Function.iterate_add_apply, reached, iterate_cycle_eq_self_iff]

end Listed

end SortSpec

end RunQuery
