import RunQuery.Proofs.Number.Rounding
import RunQuery.Number.Decimal

/-!
Magnitudes in the order of the numbers they stand for. Arithmetic that rounds once keeps that order, so that a
product or a quotient is bounded by that of greater or smaller operands. A number keeps the magnitude that it is made
of.
-/
namespace RunQuery

namespace FloatFormat

variable (f : FloatFormat)

/-- What a finite magnitude counts in units of the least one. -/
def scale (m : Nat) : Nat := f.significand m * twoTo (m / twoTo f.fractionBits - 1)

theorem scale_of_lt {m : Nat} (small : m < twoTo f.fractionBits) : f.scale m = m := by
  rw [scale, significand, if_pos small, Nat.div_eq_of_lt small]
  exact Nat.mul_one m

theorem scale_of_exponent {e r : Nat} (part : r < twoTo f.fractionBits) :
    f.scale ((e + 1) * twoTo f.fractionBits + r) = (twoTo f.fractionBits + r) * twoTo e := by
  have positive : 0 < twoTo f.fractionBits := Nat.zero_lt_of_lt part
  have more : twoTo f.fractionBits ≤ (e + 1) * twoTo f.fractionBits := Nat.le_mul_of_pos_left _ (Nat.succ_pos e)
  have whole : ((e + 1) * twoTo f.fractionBits + r) / twoTo f.fractionBits = e + 1 := by
    rw [Nat.mul_comm, Nat.mul_add_div positive, Nat.div_eq_of_lt part, Nat.add_zero]
  have rest : ((e + 1) * twoTo f.fractionBits + r) % twoTo f.fractionBits = r := by
    rw [Nat.mul_comm, Nat.mul_add_mod, Nat.mod_eq_of_lt part]
  rw [scale, significand, if_neg (by omega), whole, rest, Nat.add_sub_cancel]

theorem scale_succ (m : Nat) : f.scale m ≤ f.scale (m + 1) := by
  have positive : 0 < twoTo f.fractionBits := Nat.pow_pos (by decide)
  by_cases small : m + 1 < twoTo f.fractionBits
  · rw [f.scale_of_lt small, f.scale_of_lt (Nat.lt_of_succ_lt small)]
    exact Nat.le_succ m
  by_cases first : m < twoTo f.fractionBits
  · have next := f.scale_of_exponent (e := 0) positive
    have same : m + 1 = (0 + 1) * twoTo f.fractionBits + 0 := by omega
    rw [← same] at next
    rw [f.scale_of_lt first, next]
    exact first.le.trans (Nat.le_mul_of_pos_right _ (Nat.pow_pos (by decide)))
  obtain ⟨e, count⟩ : ∃ e, m / twoTo f.fractionBits = e + 1 :=
    Nat.exists_eq_add_one_of_ne_zero (Nat.div_pos (Nat.not_lt.mp first) positive).ne'
  have whole := Nat.div_add_mod m (twoTo f.fractionBits)
  have part := Nat.mod_lt m positive
  rw [count, Nat.mul_comm] at whole
  rw [← whole, f.scale_of_exponent part]
  by_cases last : m % twoTo f.fractionBits + 1 < twoTo f.fractionBits
  · rw [Nat.add_assoc, f.scale_of_exponent last]
    exact Nat.mul_le_mul_right _ (Nat.le_succ _)
  · have next := f.scale_of_exponent (e := e + 1) positive
    have same : (e + 1) * twoTo f.fractionBits + m % twoTo f.fractionBits + 1 =
        (e + 1 + 1) * twoTo f.fractionBits + 0 := by
      rw [Nat.add_mul (e + 1)]
      omega
    have double : twoTo (e + 1) = 2 * twoTo e := Nat.pow_succ'
    rw [same, next, double, Nat.add_zero, ← Nat.mul_assoc]
    exact Nat.mul_le_mul_right _ (by omega)

theorem scale_mono {a b : Nat} (le : a ≤ b) : f.scale a ≤ f.scale b := monotone_nat_of_le_succ f.scale_succ le

/-- The number that a magnitude stands for. -/
theorem scale_mul (m : Nat) : (f.scale m : ℚ) * 2 ^ f.leastExponent = f.significand m * 2 ^ f.exponent m := by
  rw [scale, Nat.cast_mul, cast_twoTo, mul_assoc, ← zpow_add₀ (by norm_num), add_comm, exponent]

theorem quotientOf_ratio (m : Nat) : quotientOf (f.ratio m) = f.scale m * 2 ^ f.leastExponent := by
  rw [ratio, quotientOf_shifted Nat.one_pos, neg_neg, Nat.cast_one, div_one, scale_mul]

theorem ratio_pos (m : Nat) : 0 < (f.ratio m).2 := shifted_pos Nat.one_pos

theorem ratio_le {a b : Nat} (le : a ≤ b) : (f.ratio a).1 * (f.ratio b).2 ≤ (f.ratio b).1 * (f.ratio a).2 := by
  rw [← quotientOf_le_iff (f.ratio_pos a) (f.ratio_pos b), quotientOf_ratio, quotientOf_ratio]
  exact mul_le_mul_of_nonneg_right (Nat.cast_le.mpr (f.scale_mono le)) (zpow_nonneg (by norm_num) _)

theorem product_comm (a b : Nat) : f.product a b = f.product b a := by
  simp only [product, Nat.mul_comm]

theorem product_le {a b : Nat} (le : a ≤ b) (c : Nat) : f.product a c ≤ f.product b c := by
  unfold product
  refine f.nearest_mono (Nat.mul_pos (f.ratio_pos a) (f.ratio_pos c)) (Nat.mul_pos (f.ratio_pos b) (f.ratio_pos c)) ?_
  have product := Nat.mul_le_mul_right ((f.ratio c).1 * (f.ratio c).2) (f.ratio_le le)
  calc (f.ratio a).1 * (f.ratio c).1 * ((f.ratio b).2 * (f.ratio c).2)
      = (f.ratio a).1 * (f.ratio b).2 * ((f.ratio c).1 * (f.ratio c).2) := by ring
    _ ≤ (f.ratio b).1 * (f.ratio a).2 * ((f.ratio c).1 * (f.ratio c).2) := product
    _ = (f.ratio b).1 * (f.ratio c).1 * ((f.ratio a).2 * (f.ratio c).2) := by ring

/-- To divide by something that is no less than one does not make a magnitude greater. -/
theorem quotient_le {a b c : Nat} (le : a ≤ b) (one : (f.ratio c).2 ≤ (f.ratio c).1) :
    f.quotient a c ≤ f.nearest (f.ratio b).1 (f.ratio b).2 := by
  unfold quotient
  have positive : 0 < (f.ratio c).1 := Nat.lt_of_lt_of_le (f.ratio_pos c) one
  refine f.nearest_mono (Nat.mul_pos (f.ratio_pos a) positive) (f.ratio_pos b) ?_
  calc (f.ratio a).1 * (f.ratio c).2 * (f.ratio b).2
      = (f.ratio a).1 * (f.ratio b).2 * (f.ratio c).2 := by ring
    _ ≤ (f.ratio b).1 * (f.ratio a).2 * (f.ratio c).1 := Nat.mul_le_mul (f.ratio_le le) one
    _ = (f.ratio b).1 * ((f.ratio a).2 * (f.ratio c).1) := by ring

end FloatFormat

namespace Number

theorem magnitude_ofMagnitude (negative : Bool) {m : Nat} (small : m < 0x8000000000000000) :
    (ofMagnitude negative m).magnitude = m := by
  rw [magnitude, ofMagnitude, UInt64.toNat_ofNat']
  cases negative with
  | false =>
    rw [if_neg Bool.false_ne_true]
    omega
  | true =>
    rw [if_pos rfl]
    omega

theorem isNaN_ofInt (i : Int) : (ofInt i).isNaN = false := by
  have bounded : FloatFormat.binary64.nearest i.natAbs 1 ≤ FloatFormat.binary64.infinity := by
    rw [FloatFormat.nearest]
    split
    · exact Nat.zero_le _
    · exact Nat.min_le_left ..
  rw [ofInt, isNaN, magnitude_ofMagnitude _ (bounded.trans_lt (by decide))]
  exact decide_eq_false bounded.not_gt

end Number

end RunQuery
