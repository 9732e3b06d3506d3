import Mathlib.Order.Compare
import RunQuery.Value

/-!
An order of all values. Comparing values gives an order only within one kind, and none where a number is a NaN.
Every kind is ordered by a part of its own, of which all others have the same default; so one order after the other
makes a total order of all values, which says the same wherever comparing them says anything. Whether it does is a
question of their scales: values on one scale can be compared, and no others.
-/
namespace RunQuery

/-- An order that is carried over to what is mapped into it. -/
theorem transCmp_map {α β : Type} (cmp : β → β → Ordering) [Std.TransCmp cmp] (f : α → β) :
    Std.TransCmp fun a b => cmp (f a) (f b) where
  eq_swap := Std.OrientedCmp.eq_swap
  isLE_trans := Std.TransCmp.isLE_trans

namespace Value

def position : Value → Int
  | .number n => n.position
  | _ => 0

def spelling : Value → String
  | .text s => s
  | _ => ""

def truth : Value → Bool
  | .bool b => b
  | _ => false

def bytes : Value → List UInt8
  | .binary bytes => bytes
  | _ => []

instance : Std.TransCmp compareBytes :=
  Std.TransCmp.compareOfLessAndEq_of_irrefl_of_trans_of_not_lt_of_antisymm List.lt_irrefl List.lt_trans
    List.not_lt.mp List.le_antisymm

/-- Values by their parts, one after another. -/
def totalOrder : Value → Value → Ordering :=
  compareLex (compareOn position) <| compareLex (compareOn spelling) <| compareLex (compareOn truth)
    fun a b => compareBytes a.bytes b.bytes

instance : Std.TransCmp totalOrder := by
  have := transCmp_map compareBytes bytes
  unfold totalOrder
  infer_instance

theorem eq_none_of_isNone {v : Value} (absent : v.isNone = true) : v = .none := by
  cases v with
  | none => rfl
  | _ => cases absent

/-- Where comparing two values gives an order, it is the one in which they stand among all values. -/
theorem totalOrder_of_compare? {a b : Value} {o : Ordering} (compared : a.compare? b = some o) :
    a.totalOrder b = o := by
  have alike : compareBytes [] [] = .eq := rfl
  unfold compare? at compared
  split at compared
  case h_1 x y =>
    rw [Number.compare?, Option.ite_none_left_eq_some] at compared
    obtain rfl := Option.some.inj compared.2
    simp [totalOrder, compareLex, compareOn, position, spelling, truth, bytes, alike]
  case h_5 => cases compared
  all_goals
    obtain rfl := Option.some.inj compared
    simp [totalOrder, compareLex, compareOn, position, spelling, truth, bytes, alike]

@[simp] theorem compare?_none (v : Value) : v.compare? .none = Option.none := by
  cases v <;> rfl

@[simp] theorem none_compare? (v : Value) : Value.none.compare? v = Option.none := by
  cases v <;> rfl

theorem compare?_swap (v w : Value) : w.compare? v = (v.compare? w).map Ordering.swap := by
  cases v <;> cases w <;> try rfl
  case number.number m n =>
    rw [compare?, compare?, Number.compare?, Number.compare?, Bool.or_comm]
    split
    · rfl
    · exact congrArg some Std.OrientedOrd.eq_swap
  case text.text => exact congrArg some Std.OrientedOrd.eq_swap
  case bool.bool => exact congrArg some Std.OrientedOrd.eq_swap
  case binary.binary =>
    have oriented : Std.OrientedCmp compareBytes := inferInstance
    exact congrArg some oriented.eq_swap

/-- The kind of a value that has a place among the values of its kind. -/
def scale? : Value → Option Kind
  | .number n => if n.isNaN then Option.none else some .number
  | .text _ => some .text
  | .bool _ => some .bool
  | .binary _ => some .binary
  | _ => Option.none

theorem isSome_compare?_iff {v w : Value} :
    (v.compare? w).isSome = true ↔ v.scale?.isSome = true ∧ v.scale? = w.scale? := by
  cases v <;> cases w <;> simp [compare?, scale?, Number.compare?]
  case number.number m n => cases m.isNaN <;> cases n.isNaN <;> simp

/-- Two values can be compared, if both are present. -/
def Comparable (v w : Value) : Prop := v.isNone = false → w.isNone = false → (v.compare? w).isSome = true

instance {v w : Value} : Decidable (v.Comparable w) := inferInstanceAs (Decidable (_ → _ → _))

theorem isSome_compare?_comm (a b : Value) : (a.compare? b).isSome = (b.compare? a).isSome := by
  rw [compare?_swap a b, Option.isSome_map]

theorem not_comparable_iff {v w : Value} :
    ¬ v.Comparable w ↔ v.isNone = false ∧ w.isNone = false ∧ v.compare? w = Option.none := by
  simp [Comparable]

theorem Comparable.symm {v w : Value} (comparable : v.Comparable w) : w.Comparable v :=
  fun second first => isSome_compare?_comm .. ▸ comparable first second

theorem Comparable.trans {v w x : Value} (present : w.isNone = false) (first : v.Comparable w)
    (second : w.Comparable x) : v.Comparable x := by
  intro left right
  obtain ⟨scaled, same⟩ := isSome_compare?_iff.mp (first left present)
  exact isSome_compare?_iff.mpr ⟨scaled, same.trans (isSome_compare?_iff.mp (second present right)).2⟩

end Value

end RunQuery
