import RunQuery.Proofs.Json.Token
import RunQuery.Proofs.Number.Decimal

/-!
Parts of numerals. The numeral of a decimal, positional or scientific, is taken apart into the parts it was put together
from, and these stand for the same decimal.
-/
namespace RunQuery.Json

namespace Numeral

def fractionText : Option (List Char) → List Char
  | none => []
  | some ds => '.' :: ds

def exponentText : Option (Bool × List Char) → List Char
  | none => []
  | some (negative, ds) => 'e' :: (if negative then '-' else '+') :: ds

/-- How a numeral stands after its sign. -/
def text (x : Numeral) : List Char := x.whole ++ (fractionText x.fraction ++ exponentText x.exponent)

structure Formed (x : Numeral) : Prop where
  whole : IsDigits x.whole
  lead : x.whole.head? ≠ some '0' ∨ x.whole.length = 1
  fraction : ∀ ds ∈ x.fraction, IsDigits ds
  exponent : ∀ e ∈ x.exponent, IsDigits e.2

theorem stops_exponentText (e : Option (Bool × List Char)) : Stops (exponentText e) := by
  cases e with
  | none => exact stops_nil
  | some e => exact stops_cons (by decide) _

theorem stops_fractionText (f : Option (List Char)) (e : Option (Bool × List Char)) :
    Stops (fractionText f ++ exponentText e) := by
  cases f with
  | none => exact stops_exponentText e
  | some ds => exact stops_cons (by decide) _

theorem fraction?_text {f : Option (List Char)} (digits : ∀ ds ∈ f, IsDigits ds) (e : Option (Bool × List Char)) :
    fraction? (fractionText f ++ exponentText e) = some (f, exponentText e) := by
  cases f with
  | none =>
    cases e with
    | none => rfl
    | some e => rfl
  | some ds =>
    rw [fractionText, List.cons_append, fraction?, digits?_of_stops (digits ds rfl) (stops_exponentText e)]
    rfl

theorem exponent?_text {e : Option (Bool × List Char)} (digits : ∀ sign ∈ e, IsDigits sign.2) :
    exponent? (exponentText e) = some (e, []) := by
  cases e with
  | none => rfl
  | some e =>
    obtain ⟨negative, ds⟩ := e
    have read := digits?_of_stops (digits _ rfl) stops_nil
    rw [List.append_nil] at read
    rw [exponentText, exponent?_cons, if_pos (.inl rfl)]
    cases negative with
    | false =>
      show (digits? ds).map _ = _
      rw [read]
      rfl
    | true =>
      show (digits? ds).map _ = _
      rw [read]
      rfl

/-- A numeral is taken apart as it was put together. -/
theorem unsigned?_text {x : Numeral} (formed : x.Formed) : unsigned? x.negative x.text = some (x, []) := by
  have whole : whole? x.text = some (x.whole, fractionText x.fraction ++ exponentText x.exponent) := by
    rw [whole?, text, digits?_of_stops formed.whole (stops_fractionText _ _), Option.filter_some]
    simp [formed.lead]
  rw [unsigned?, whole, Option.bind_eq_bind, Option.bind_some]
  dsimp only
  rw [fraction?_text formed.fraction, Option.bind_eq_bind, Option.bind_some]
  dsimp only
  rw [exponent?_text formed.exponent]
  rfl

def power (x : Numeral) : Int :=
  match x.exponent with
  | none => 0
  | some (negative, ds) => if negative then -(Digits.value ds : Int) else Digits.value ds

/-- The decimal that a numeral stands for. -/
def decimal (x : Numeral) : Decimal :=
  ⟨Digits.value (x.whole ++ x.fraction.getD []), x.power - (x.fraction.getD []).length⟩

section Parts

variable (negative : Bool) (x : Decimal)

/-- Where the point stands among the digits. -/
def point : Int := x.digits.length + x.exponent

def positionalParts : Numeral :=
  if 0 ≤ x.exponent then ⟨negative, x.digits ++ List.replicate x.exponent.toNat '0', some ['0'], none⟩
  else if 0 < point x then ⟨negative, x.digits.take (point x).toNat, some (x.digits.drop (point x).toNat), none⟩
  else ⟨negative, ['0'], some (List.replicate (-point x).toNat '0' ++ x.digits), none⟩

def scientificParts : Numeral :=
  ⟨negative, x.digits.take 1, if x.digits.length ≤ 1 then none else some (x.digits.drop 1),
    some (decide (point x - 1 < 0), Nat.toDigits 10 (point x - 1).natAbs)⟩

/-- The parts that the numeral of a decimal is put together from. -/
def ofDecimal (style : NumeralStyle) : Numeral :=
  if style.leastPlace ≤ point x - 1 ∧ point x - 1 ≤ style.greatestPlace then positionalParts negative x
  else scientificParts negative x

theorem text_positionalParts : (positionalParts negative x).text = x.positional := by
  unfold positionalParts Decimal.positional Decimal.plain point
  dsimp only
  split
  · simp [text, fractionText, exponentText]
  split
  · simp [text, fractionText, exponentText]
  · simp [text, fractionText, exponentText]

theorem text_scientificParts : (scientificParts negative x).text = x.scientific := by
  have sign : (if decide (point x - 1 < 0) then '-' else '+') = if 0 ≤ point x - 1 then '+' else '-' := by
    by_cases down : point x - 1 < 0
    · rw [decide_eq_true down, if_pos rfl, if_neg (not_le.mpr down)]
    · rw [decide_eq_false down, if_neg Bool.false_ne_true, if_pos (not_lt.mp down)]
  rw [text, scientificParts, Decimal.scientific, List.append_assoc]
  dsimp only [exponentText]
  rw [sign]
  split
  · rfl
  · rfl

theorem negative_ofDecimal (style : NumeralStyle) : (ofDecimal negative x style).negative = negative := by
  unfold ofDecimal positionalParts
  split
  · split
    · rfl
    split
    · rfl
    · rfl
  · rfl

theorem text_ofDecimal (style : NumeralStyle) : (ofDecimal negative x style).text = x.numeral style := by
  unfold ofDecimal Decimal.numeral
  by_cases near : style.leastPlace ≤ point x - 1 ∧ point x - 1 ≤ style.greatestPlace
  · rw [if_pos near, text_positionalParts]
    exact (if_pos near).symm
  · rw [if_neg near, text_scientificParts]
    exact (if_neg near).symm

end Parts

section Value

theorem value_append (ds others : List Char) :
    Digits.value (ds ++ others) = Nat.ofDigitChars 10 others (Digits.value ds) :=
  Nat.ofDigitChars_append 0

theorem value_digits (x : Decimal) : Digits.value x.digits = x.coefficient := Nat.ofDigitChars_ten_toDigits

theorem digit_bounds {c : Char} (digit : c.isDigit = true) : '0'.toNat ≤ c.toNat ∧ c.toNat ≤ '9'.toNat := by
  simpa [Char.isDigit, UInt32.le_iff_toNat_le] using digit

theorem isDigits_append_zeros {ds : List Char} (digits : IsDigits ds) (k : Nat) :
    IsDigits (ds ++ List.replicate k '0') := by
  refine ⟨fun none => digits.some (List.append_eq_nil_iff.mp none).1, ?_⟩
  rw [List.forall_mem_append]
  exact ⟨digits.all, fun c member => List.eq_of_mem_replicate member ▸ by decide⟩

theorem isDigits_zeros_append {ds : List Char} (digits : IsDigits ds) (k : Nat) :
    IsDigits (List.replicate k '0' ++ ds) := by
  refine ⟨fun none => digits.some (List.append_eq_nil_iff.mp none).2, ?_⟩
  rw [List.forall_mem_append]
  exact ⟨fun c member => List.eq_of_mem_replicate member ▸ by decide, digits.all⟩

theorem isDigits_take {ds : List Char} (digits : IsDigits ds) {k : Nat} (positive : 0 < k) : IsDigits (ds.take k) := by
  refine ⟨?_, fun c member => digits.all c (List.mem_of_mem_take member)⟩
  rw [ne_eq, List.take_eq_nil_iff, not_or]
  exact ⟨positive.ne', digits.some⟩

theorem isDigits_drop {ds : List Char} (digits : IsDigits ds) {k : Nat} (more : k < ds.length) :
    IsDigits (ds.drop k) :=
  ⟨List.ne_nil_of_length_pos (List.length_drop ▸ Nat.sub_pos_of_lt more),
    fun c member => digits.all c (List.mem_of_mem_drop member)⟩

/-- The parts of a numeral that stand for a decimal and that a reader takes for a number. -/
structure Spells (y : Numeral) (x : Decimal) : Prop where
  formed : y.Formed
  value : y.decimal.value = x.value
  short : y.whole.length ≤ 16
  marked : (y.fraction.isSome || y.exponent.isSome) = true
  lead : y.exponent.isSome = true → Digits.value y.whole ≠ 0

theorem isDigits_zero : IsDigits ['0'] := ⟨List.cons_ne_nil _ _, List.forall_mem_singleton.mpr rfl⟩

section Shapes

variable (negative : Bool) {x : Decimal} (present : x.coefficient ≠ 0)

include present

theorem digits_spec : IsDigits x.digits ∧ x.digits.head? ≠ some '0' ∧ 0 < x.digits.length :=
  ⟨isDigits_toDigits _, head?_toDigits present, List.length_pos_of_ne_nil Nat.toDigits_ne_nil⟩

theorem spells_padded {k : Nat} (up : x.exponent = k) (small : x.digits.length + k ≤ 16) :
    Spells ⟨negative, x.digits ++ List.replicate k '0', some ['0'], none⟩ x := by
  obtain ⟨digits, lead, _⟩ := digits_spec present
  have value : Digits.value (x.digits ++ List.replicate k '0' ++ ['0']) = 10 * (10 ^ k * x.coefficient) := by
    rw [value_append, value_append, Nat.ofDigitChars_replicate_zero, value_digits]
    rfl
  refine ⟨⟨isDigits_append_zeros digits k, .inl ?_, fun _ same => Option.some.inj same ▸ isDigits_zero, nofun⟩,
    ?_, ?_, rfl, nofun⟩
  · show (x.digits ++ _).head? ≠ _
    rwa [List.head?_append_of_ne_nil _ digits.some]
  · show (Digits.value (x.digits ++ List.replicate k '0' ++ ['0']) : ℚ) * 10 ^ ((0 : Int) - 1) = _
    rw [value, Decimal.value, up, zpow_natCast, zero_sub, zpow_neg_one]
    push_cast
    ring
  · show (x.digits ++ List.replicate k '0').length ≤ 16
    rwa [List.length_append, List.length_replicate]

theorem spells_pointed {k : Nat} (inside : x.digits.length + x.exponent = k) (positive : 0 < k)
    (down : x.exponent < 0) (small : k ≤ 16) :
    Spells ⟨negative, x.digits.take k, some (x.digits.drop k), none⟩ x := by
  obtain ⟨digits, lead, _⟩ := digits_spec present
  have rest : (x.digits.drop k).length = x.digits.length - k := List.length_drop
  have fraction : IsDigits (x.digits.drop k) := isDigits_drop digits (by omega)
  refine ⟨⟨isDigits_take digits positive, .inl ?_, fun _ same => Option.some.inj same ▸ fraction, nofun⟩, ?_, ?_, rfl,
    nofun⟩
  · show (x.digits.take k).head? ≠ _
    rwa [List.head?_take, if_neg positive.ne']
  · show (Digits.value (x.digits.take k ++ x.digits.drop k) : ℚ) * 10 ^ ((0 : Int) - (x.digits.drop k).length) = _
    rw [List.take_append_drop, value_digits, rest, Decimal.value]
    congr 2
    omega
  · exact (List.length_take_le k x.digits).trans small

theorem spells_fractional {k : Nat} (before : -(x.digits.length + x.exponent) = k) :
    Spells ⟨negative, ['0'], some (List.replicate k '0' ++ x.digits), none⟩ x := by
  obtain ⟨digits, _, _⟩ := digits_spec present
  have value : Digits.value (['0'] ++ (List.replicate k '0' ++ x.digits)) = x.coefficient := by
    rw [value_append, Nat.ofDigitChars_append, Nat.ofDigitChars_replicate_zero]
    exact value_digits x
  refine ⟨⟨isDigits_zero, .inr rfl, fun _ same => Option.some.inj same ▸ isDigits_zeros_append digits k, nofun⟩,
    ?_, ?_, rfl, nofun⟩
  · show (Digits.value (['0'] ++ (List.replicate k '0' ++ x.digits)) : ℚ) *
      10 ^ ((0 : Int) - (List.replicate k '0' ++ x.digits).length) = _
    rw [value, Decimal.value, List.length_append, List.length_replicate]
    congr 2
    omega
  · show (1 : Nat) ≤ 16
    decide

theorem value_firstDigit : Digits.value (x.digits.take 1) ≠ 0 := by
  obtain ⟨digits, lead, _⟩ := digits_spec present
  obtain ⟨d, rest, split⟩ := List.exists_cons_of_ne_nil digits.some
  have digit := digits.all d (split ▸ List.mem_cons_self)
  have other : d ≠ '0' := by
    rintro rfl
    exact lead (split ▸ rfl)
  have more : d.toNat ≠ '0'.toNat := fun same => other (Char.toNat_inj.mp same)
  have least := (digit_bounds digit).1
  rw [split]
  show 10 * 0 + (d.toNat - '0'.toNat) ≠ 0
  omega

theorem spells_scientificParts : (scientificParts negative x).Spells x := by
  obtain ⟨digits, lead, length⟩ := digits_spec present
  have place : (scientificParts negative x).power = point x - 1 := by
    show (if decide (point x - 1 < 0) then -((Digits.value (Nat.toDigits 10 (point x - 1).natAbs) : Nat) : Int)
      else (Digits.value (Nat.toDigits 10 (point x - 1).natAbs) : Nat)) = _
    rw [show Digits.value _ = (point x - 1).natAbs from Nat.ofDigitChars_ten_toDigits]
    by_cases down : point x - 1 < 0
    · rw [decide_eq_true down, if_pos rfl]
      omega
    · rw [decide_eq_false down, if_neg Bool.false_ne_true]
      omega
  have others : ((scientificParts negative x).fraction.getD []) = x.digits.drop 1 := by
    show (if x.digits.length ≤ 1 then none else some (x.digits.drop 1)).getD [] = _
    split
    next one => exact (List.drop_eq_nil_of_le one).symm
    next => rfl
  refine ⟨⟨isDigits_take digits Nat.one_pos, .inl ?_, fun ds same => ?_, fun e same => ?_⟩, ?_, ?_, ?_,
    fun _ => value_firstDigit present⟩
  · show (x.digits.take 1).head? ≠ _
    rwa [List.head?_take, if_neg one_ne_zero]
  · have same : (if x.digits.length ≤ 1 then none else some (x.digits.drop 1)) = some ds := same
    split at same
    · cases same
    next more =>
      cases same
      exact isDigits_drop digits (Nat.not_le.mp more)
  · obtain rfl := Option.some.inj same
    exact isDigits_toDigits _
  · rw [Decimal.value, decimal, place, others]
    dsimp only
    rw [show (scientificParts negative x).whole = x.digits.take 1 from rfl, List.take_append_drop, value_digits,
      List.length_drop, Decimal.value, point]
    congr 2
    omega
  · exact (List.length_take_le 1 x.digits).trans (by decide)
  · exact Bool.or_true _

theorem spells_ofDecimal : (ofDecimal negative x .double).Spells x := by
  unfold ofDecimal
  split
  next near =>
    have near : point x ≤ 16 := Int.le_of_sub_one_lt (Int.lt_of_le_of_lt near.2 (by decide))
    unfold positionalParts
    unfold point at near ⊢
    split
    next up =>
      obtain ⟨k, same⟩ := Int.eq_ofNat_of_zero_le up
      rw [same, Int.toNat_natCast]
      exact spells_padded negative present same (by omega)
    next down =>
      split
      next inside =>
        exact spells_pointed negative present (Int.toNat_of_nonneg inside.le).symm (by omega) (by omega) (by omega)
      next before => exact spells_fractional negative present (Int.toNat_of_nonneg (by omega)).symm
  next => exact spells_scientificParts negative present

end Shapes

end Value

end Numeral

end RunQuery.Json
