import RunQuery.Proofs.Value
import RunQuery.Store.Order
import Mathlib.Data.List.Pairwise

/-!
What sorting by several columns comes to. Where the values of each column can be compared with one another, the keys
make a total order of the records, though of all records they make none; so the sorted records stand in the order of
the first key that tells them apart, and those that no key tells apart stand as they stood before.
-/
namespace RunQuery

namespace Direction

theorem orient_eq_lt_iff {direction : Direction} {o : Ordering} :
    direction.orient o = .lt ↔ o = direction.orient .lt := by
  cases direction <;> cases o <;> decide

theorem orient_eq_eq_iff {direction : Direction} {o : Ordering} : direction.orient o = .eq ↔ o = .eq := by
  cases direction <;> cases o <;> decide

instance {α : Type} {cmp : α → α → Ordering} [Std.TransCmp cmp] (direction : Direction) :
    Std.TransCmp fun a b => direction.orient (cmp a b) := by
  cases direction with
  | ascending => exact inferInstanceAs (Std.TransCmp cmp)
  | descending =>
    have turned : (fun a b => Direction.descending.orient (cmp a b)) = fun a b => cmp b a :=
      funext₂ fun a b => Std.OrientedCmp.eq_swap.symm
    rw [turned]
    infer_instance

end Direction

namespace SortKey

section Values

variable {direction : Direction} {v w : Value}

/-- In a column a value comes before an absent one, and before a greater one, or before a smaller one if the column
descends. -/
def Leads (direction : Direction) (v w : Value) : Prop :=
  v.isNone = false ∧ (w.isNone = true ∨ v.compare? w = some (direction.orient .lt))

/-- Two values tie if both are absent, or if they are compared as equal. -/
def Ties (v w : Value) : Prop := (v.isNone = true ∧ w.isNone = true) ∨ v.compare? w = some .eq

instance : Decidable (Ties v w) := inferInstanceAs (Decidable (_ ∨ _))

theorem orderValues_self (direction : Direction) (v : Value) : orderValues direction v v = .eq := by
  have self : (v.compare? v).getD .eq = .eq := by
    cases compared : v.compare? v with
    | none => rfl
    | some o => exact (Value.totalOrder_of_compare? compared).symm.trans Std.ReflCmp.compare_self
  rw [orderValues, self]
  cases v.isNone <;> cases direction <;> rfl

theorem orderValues_eq_lt_iff (comparable : v.Comparable w) :
    orderValues direction v w = .lt ↔ Leads direction v w := by
  rw [orderValues, Leads]
  cases first : v.isNone <;> cases second : w.isNone
  case false.false =>
    obtain ⟨o, compared⟩ := Option.isSome_iff_exists.mp (comparable first second)
    simp [compared, Direction.orient_eq_lt_iff]
  all_goals simp

theorem orderValues_eq_eq_iff (comparable : v.Comparable w) : orderValues direction v w = .eq ↔ Ties v w := by
  rw [orderValues, Ties]
  cases first : v.isNone <;> cases second : w.isNone
  case false.false =>
    obtain ⟨o, compared⟩ := Option.isSome_iff_exists.mp (comparable first second)
    simp [compared, Direction.orient_eq_eq_iff]
  case true.true => simp
  case false.true => simp [Value.eq_none_of_isNone second]
  case true.false => simp [Value.eq_none_of_isNone first]

theorem Ties.comparable (tied : Ties v w) : v.Comparable w := by
  intro first _
  rcases tied with ⟨absent, -⟩ | same
  · cases first.symm.trans absent
  · exact Option.isSome_of_eq_some same

/-- All values as a column has them, the absent ones last. -/
def columnOrder (direction : Direction) : Value → Value → Ordering :=
  compareLex (compareOn Value.isNone) fun v w => direction.orient (v.totalOrder w)

instance (direction : Direction) : Std.TransCmp (columnOrder direction) := by
  unfold columnOrder
  infer_instance

theorem orderValues_eq_columnOrder (comparable : v.Comparable w) :
    orderValues direction v w = columnOrder direction v w := by
  rw [orderValues, columnOrder, compareLex, compareOn]
  cases first : v.isNone <;> cases second : w.isNone
  case false.false =>
    obtain ⟨o, compared⟩ := Option.isSome_iff_exists.mp (comparable first second)
    rw [compared, Value.totalOrder_of_compare? compared]
    rfl
  case true.true =>
    rw [Value.eq_none_of_isNone first, Value.eq_none_of_isNone second]
    cases direction <;> rfl
  all_goals rfl

end Values

section Keys

variable {keys : List SortKey} {a b : Record}

/-- The values of two records can be compared in each column. -/
def Comparable (keys : List SortKey) (a b : Record) : Prop :=
  ∀ key ∈ keys, (a.locate key.column).Comparable (b.locate key.column)

/-- No key tells two records apart. -/
def Alike (keys : List SortKey) (a b : Record) : Prop :=
  ∀ key ∈ keys, Ties (a.locate key.column) (b.locate key.column)

/-- The first key that tells two records apart puts the one before the other. -/
def Precedes (keys : List SortKey) (a b : Record) : Prop :=
  ∃ earlier key later, keys = earlier ++ key :: later ∧ Alike earlier a b ∧
    Leads key.direction (a.locate key.column) (b.locate key.column)

instance : Decidable (Comparable keys a b) := inferInstanceAs (Decidable (∀ key ∈ keys, _))

instance : Decidable (Alike keys a b) := inferInstanceAs (Decidable (∀ key ∈ keys, _))

theorem Comparable.symm (comparable : Comparable keys a b) : Comparable keys b a :=
  fun key member => (comparable key member).symm

instance : Std.Symm (Comparable keys) where
  symm _ _ := Comparable.symm

theorem orderBy_self (keys : List SortKey) (r : Record) : orderBy keys r r = .eq := by
  induction keys with
  | nil => rfl
  | cons key rest ih =>
    show (orderValues ..).then (orderBy rest r r) = .eq
    rw [orderValues_self, ih]
    rfl

/-- Of two records whose values can be compared, one that does not come after the other precedes it or is like it. -/
theorem precedes_or_alike (comparable : Comparable keys a b) (le : (orderBy keys a b).isLE = true) :
    Precedes keys a b ∨ Alike keys a b := by
  induction keys with
  | nil => exact .inr nofun
  | cons key rest ih =>
    obtain ⟨first, others⟩ := List.forall_mem_cons.mp comparable
    replace le : ((orderValues key.direction _ _).then (orderBy rest a b)).isLE = true := le
    rw [Ordering.isLE_then_iff_or] at le
    rcases le with before | ⟨same, le⟩
    · exact .inl ⟨[], key, rest, rfl, nofun, (orderValues_eq_lt_iff first).mp before⟩
    · have tied := (orderValues_eq_eq_iff first).mp same
      rcases ih others le with ⟨earlier, decisive, later, rfl, alike, leads⟩ | alike
      · exact .inl ⟨key :: earlier, decisive, later, rfl, List.forall_mem_cons.mpr ⟨tied, alike⟩, leads⟩
      · exact .inr (List.forall_mem_cons.mpr ⟨tied, alike⟩)

theorem orderBy_of_alike (alike : Alike keys a b) : orderBy keys a b = .eq := by
  induction keys with
  | nil => rfl
  | cons key rest ih =>
    obtain ⟨tied, others⟩ := List.forall_mem_cons.mp alike
    show (orderValues ..).then (orderBy rest a b) = .eq
    rw [(orderValues_eq_eq_iff tied.comparable).mpr tied, ih others]
    rfl

/-- All records by one column after another. -/
def totalOrder : List SortKey → Record → Record → Ordering
  | [] => fun _ _ => .eq
  | key :: rest =>
    compareLex (fun a b => columnOrder key.direction (a.locate key.column) (b.locate key.column)) (totalOrder rest)

theorem transCmp_totalOrder (keys : List SortKey) : Std.TransCmp (totalOrder keys) := by
  induction keys with
  | nil => exact { eq_swap := rfl, isLE_trans := fun _ _ => rfl }
  | cons key rest ih =>
    have := transCmp_map (columnOrder key.direction) fun r : Record => r.locate key.column
    unfold totalOrder
    infer_instance

theorem orderBy_eq_totalOrder (comparable : Comparable keys a b) : orderBy keys a b = totalOrder keys a b := by
  induction keys with
  | nil => rfl
  | cons key rest ih =>
    obtain ⟨first, others⟩ := List.forall_mem_cons.mp comparable
    show (orderValues ..).then (orderBy rest a b) = _
    rw [orderValues_eq_columnOrder first, ih others]
    rfl

theorem totalOrder_of_alike (alike : Alike keys a b) : totalOrder keys a b = .eq := by
  rw [← orderBy_eq_totalOrder fun key member => (alike key member).comparable, orderBy_of_alike alike]

/-- Whether a record comes no later than another among all records. -/
def notAfter (keys : List SortKey) (a b : Record) : Bool := (totalOrder keys a b).isLE

theorem notAfter_trans (keys : List SortKey) (a b c : Record) (first : notAfter keys a b = true)
    (second : notAfter keys b c = true) : notAfter keys a c = true :=
  (transCmp_totalOrder keys).isLE_trans first second

theorem notAfter_total (keys : List SortKey) (a b : Record) : (notAfter keys a b || notAfter keys b a) = true := by
  rw [notAfter, notAfter, (transCmp_totalOrder keys).eq_swap (b := a)]
  cases totalOrder keys a b <;> rfl

end Keys

end SortKey

open SortKey

section Sorted

variable {keys : List SortKey} {records : List Record} (comparable : records.Pairwise (Comparable keys))

include comparable

/-- Among records whose values can be compared, sorting them is sorting by the total order. -/
theorem sortRecords_eq : sortRecords keys records = records.mergeSort (notAfter keys) := by
  have same : ∀ a ∈ records, ∀ b ∈ records, decide (orderBy keys a b ≠ .gt) = notAfter keys (id a) (id b) := by
    intro a first b second
    have order : orderBy keys a b = totalOrder keys a b := by
      by_cases equal : a = b
      · have := transCmp_totalOrder keys
        subst equal
        exact (orderBy_self keys a).trans Std.ReflCmp.compare_self.symm
      · exact orderBy_eq_totalOrder (comparable.forall first second equal)
    rw [order, id, id, notAfter]
    cases totalOrder keys a b <;> rfl
  have sorted := List.map_mergeSort same
  rwa [List.map_id, List.map_id] at sorted

theorem pairwise_sortRecords :
    (sortRecords keys records).Pairwise fun a b => Precedes keys a b ∨ Alike keys a b := by
  have ordered := List.pairwise_mergeSort (notAfter_trans keys) (notAfter_total keys) records
  have compared := comparable.perm (List.mergeSort_perm records (notAfter keys)).symm Comparable.symm
  rw [sortRecords_eq comparable]
  refine (ordered.and compared).imp fun ⟨le, comparable⟩ => precedes_or_alike comparable ?_
  rwa [orderBy_eq_totalOrder comparable]

theorem filter_sortRecords (r : Record) :
    (sortRecords keys records).filter (Alike keys r) = records.filter (Alike keys r) := by
  have := transCmp_totalOrder keys
  -- records that are like one record are like each other, so they are in order as they stand
  have ordered : (records.filter (Alike keys r)).Pairwise fun a b => notAfter keys a b = true := by
    refine List.pairwise_of_forall_mem_list fun a first b second => ?_
    have left := totalOrder_of_alike (of_decide_eq_true (List.mem_filter.mp first).2)
    have right := totalOrder_of_alike (of_decide_eq_true (List.mem_filter.mp second).2)
    have same := Std.TransCmp.eq_trans (Std.OrientedCmp.eq_symm left) right
    rw [notAfter, same]
    rfl
  have kept := List.sublist_mergeSort (notAfter_trans keys) (notAfter_total keys) ordered List.filter_sublist
  have whole := kept.filter fun a => decide (Alike keys r a)
  rw [List.filter_filter] at whole
  simp only [Bool.and_self] at whole
  have count := ((List.mergeSort_perm records (notAfter keys)).filter fun a => decide (Alike keys r a)).length_eq
  rw [sortRecords_eq comparable]
  exact (whole.eq_of_length count.symm).symm

end Sorted

/-- Where any two of the records have comparable values in each column, if they have any there, sorting keeps all of
the records and brings them into the order of the keys: of two records the first key that tells them apart puts the
earlier before the later, absent values being last in either direction. Those that no key tells apart, whichever they
are like, stand in the order in which they stood. -/
theorem records_sorted_stably {keys : List SortKey} {records : List Record}
    (comparable : records.Pairwise (Comparable keys)) :
    let sorted := sortRecords keys records
    sorted.Perm records ∧
    sorted.Pairwise (fun a b => Precedes keys a b ∨ Alike keys a b) ∧
    ∀ r, sorted.filter (Alike keys r) = records.filter (Alike keys r) :=
  ⟨List.mergeSort_perm .., pairwise_sortRecords comparable, filter_sortRecords comparable⟩

/-- Two columns, one of them descending. Two records have nothing in one of them, and two others tie. -/
theorem records_sorted_stably_of_two_columns :
    let run (id : String) (fields : List (String × Value)) : Record := ⟨id, "run", 1, .map fields⟩
    let status (s : String) : String × Value := ("status", .text s)
    let rank (n : Number) : String × Value := ("rank", .number n)
    let one : Number := ⟨0x3ff0000000000000⟩
    let two : Number := ⟨0x4000000000000000⟩
    let a := run "a" [rank one, status "ok"]
    let records := [run "b" [rank two], run "c" [status "ok"], a, run "d" [rank two, status "failed"],
      run "e" [rank one, status "ok"], run "f" [rank two, status "ok"]]
    let keys : List SortKey := [⟨"status", .ascending⟩, ⟨"rank", .descending⟩]
    let sorted := sortRecords keys records
    records.Pairwise (Comparable keys) ∧ sorted.Perm records ∧
    sorted.Pairwise (fun a b => Precedes keys a b ∨ Alike keys a b) ∧
    (sorted.filter (Alike keys a)).map Record.id = ["a", "e"] := by
  intro run status rank one two a records keys sorted
  have comparable : records.Pairwise (Comparable keys) := by decide +kernel
  obtain ⟨kept, ordered, stable⟩ := records_sorted_stably comparable
  refine ⟨comparable, kept, ordered, ?_⟩
  rw [stable a]
  decide +kernel

end RunQuery
