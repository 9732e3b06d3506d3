import RunQuery.Proofs.Number.Magnitude

/-!
The decimals that magnitudes are written as. Each stands for no more than the magnitudes above its own: it was found
by reading it back, or it is the magnitude written out in full.
-/
namespace RunQuery

namespace Decimal

/-- The number that a decimal stands for. -/
def value (x : Decimal) : ℚ := x.coefficient * 10 ^ x.exponent

theorem shifted_pos {n d : Nat} (positive : 0 < d) (k : Int) : 0 < (shifted n d k).2 := by
  unfold shifted
  split
  · exact Nat.mul_pos positive (Nat.pow_pos (by decide))
  · exact positive

theorem quotientOf_shifted (x : Decimal) :
    FloatFormat.quotientOf (shifted x.coefficient 1 (-x.exponent)) = x.value := by
  have scaled : FloatFormat.quotientOf (shifted x.coefficient 1 (-x.exponent)) =
      x.coefficient / (1 : Nat) * (10 : Nat) ^ (-(-x.exponent)) :=
    FloatFormat.quotientOf_scaled (by decide) Nat.one_pos
  rw [scaled, Nat.cast_one, div_one, neg_neg, Nat.cast_ofNat, value]

theorem reduced_spec (fuel : Nat) {x : Decimal} (some : x.coefficient ≠ 0) :
    (reduced fuel x).coefficient ≠ 0 ∧ (reduced fuel x).value = x.value := by
  induction fuel generalizing x with
  | zero => exact ⟨some, rfl⟩
  | succ fuel ih =>
    rw [reduced]
    split
    next ends =>
      have whole : 10 * (x.coefficient / 10) = x.coefficient := by omega
      obtain ⟨left, same⟩ := ih (x := ⟨x.coefficient / 10, x.exponent + 1⟩) (show x.coefficient / 10 ≠ 0 by omega)
      refine ⟨left, same.trans ?_⟩
      have cast : (x.coefficient : ℚ) = 10 * (x.coefficient / 10 : Nat) := by exact_mod_cast whole.symm
      rw [value, value, cast, zpow_add₀ (by norm_num), zpow_one]
      ring
    next => exact ⟨some, rfl⟩

end Decimal

namespace FloatFormat

variable (f : FloatFormat)

theorem exactDecimal_spec {m : Nat} (some : m ≠ 0) :
    (f.exactDecimal m).coefficient ≠ 0 ∧ (f.exactDecimal m).value = f.scale m * 2 ^ f.leastExponent := by
  have significant : f.significand m ≠ 0 := by
    have positive : 0 < twoTo f.fractionBits := Nat.pow_pos (by decide)
    unfold significand
    split <;> omega
  rw [scale_mul]
  unfold exactDecimal
  dsimp only
  split
  next up =>
    obtain ⟨k, same⟩ := Int.eq_ofNat_of_zero_le up
    refine ⟨Nat.mul_ne_zero significant (Nat.pow_pos (by decide)).ne', ?_⟩
    rw [Decimal.value, same, Int.toNat_natCast, Nat.cast_mul, cast_twoTo, zpow_zero, mul_one]
  next down =>
    obtain ⟨k, same⟩ := Int.eq_ofNat_of_zero_le (show 0 ≤ -f.exponent m by omega)
    have negative : f.exponent m = -(k : Int) := by omega
    refine ⟨Nat.mul_ne_zero significant (Nat.pow_pos (by decide)).ne', ?_⟩
    have power : ((Nat.pow 5 k : Nat) : ℚ) = 5 ^ k := Nat.cast_pow 5 k
    rw [Decimal.value, negative, neg_neg, Int.toNat_natCast, Nat.cast_mul, power, zpow_neg, zpow_neg, zpow_natCast,
      zpow_natCast, show (10 : ℚ) = 5 * 2 by norm_num, mul_pow]
    field_simp

/-- A decimal that is read as a magnitude below that of a whole number is no greater than the whole number. -/
theorem ofDecimal_spec {x : Decimal} {m : Nat} (some : m ≠ 0) (finite : m < f.infinity) (read : f.ofDecimal x = m) :
    x.coefficient ≠ 0 ∧ ∀ top : Nat, m < f.nearest top 1 → x.value ≤ top := by
  unfold ofDecimal at read
  dsimp only at read
  split at read
  · exact absurd read.symm some
  next present =>
    rw [not_or] at present
    split at read
    · omega
    refine ⟨present.1, fun top above => ?_⟩
    by_contra greater
    have positive := Decimal.shifted_pos (n := x.coefficient) Nat.one_pos (-x.exponent)
    have order : top * (Decimal.shifted x.coefficient 1 (-x.exponent)).2 ≤
        (Decimal.shifted x.coefficient 1 (-x.exponent)).1 * 1 := by
      rw [Nat.mul_one, ← le_quotientOf_iff positive, Decimal.quotientOf_shifted]
      exact (not_le.mp greater).le
    have rounded := f.nearest_mono Nat.one_pos positive order
    omega

/-- The shortest decimal of a finite magnitude is not zero, and no greater than a whole number that is above the
magnitude. -/
theorem shortest_spec (tie : Tie) {m : Nat} (some : m ≠ 0) (finite : m < f.infinity) :
    (f.shortest tie m).coefficient ≠ 0 ∧ ∀ top : Nat, m < f.nearest top 1 →
      f.scale m * 2 ^ f.leastExponent ≤ (top : ℚ) → (f.shortest tie m).value ≤ top := by
  have grid (count : Nat) (k : Int) : (f.firstGrid tie m count k).coefficient ≠ 0 ∧ ∀ top : Nat,
      m < f.nearest top 1 → f.scale m * 2 ^ f.leastExponent ≤ (top : ℚ) →
        (f.firstGrid tie m count k).value ≤ top := by
    induction count generalizing k with
    | zero =>
      obtain ⟨present, same⟩ := f.exactDecimal_spec some
      exact ⟨present, fun top _ le => same.trans_le le⟩
    | succ count ih =>
      rw [firstGrid]
      split
      next x found =>
        have read : f.ofDecimal x = m := by
          unfold onGrid at found
          dsimp only at found
          have hit := List.find?_some found
          exact eq_of_beq hit
        obtain ⟨present, below⟩ := f.ofDecimal_spec some finite read
        exact ⟨present, fun top above _ => below top above⟩
      next => exact ih (k - 1)
  unfold shortest
  dsimp only
  generalize (leadingPlace _ _ _ _) = k
  obtain ⟨present, below⟩ := grid 17 k
  obtain ⟨left, same⟩ := Decimal.reduced_spec 20 present
  exact ⟨left, fun top above le => same.trans_le (below top above le)⟩

end FloatFormat

end RunQuery
