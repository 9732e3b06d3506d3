import RunQuery.Number.Basic
import Mathlib.Algebra.Order.Field.Power
import Mathlib.Algebra.Order.Field.Rat
import Mathlib.Tactic.Linarith
import Mathlib.Tactic.Positivity
import Mathlib.Tactic.FieldSimp
import Mathlib.Tactic.Ring

/-!
Rounding keeps the order. An integer division that is rounded to even is monotone, and so is rounding to a format:
of two quotients the smaller has at most the exponent of the greater, and where the exponents differ the smaller one
stays below the place at which the greater begins.
-/
namespace RunQuery

section HalfEven

variable {n d : Nat}

theorem roundHalfEven_spec (positive : 0 < d) :
    2 * (roundHalfEven n d * d) ≤ 2 * n + d ∧ 2 * n ≤ 2 * (roundHalfEven n d * d) + d ∧
      (2 * (roundHalfEven n d * d) = 2 * n + d ∨ 2 * n = 2 * (roundHalfEven n d * d) + d →
        roundHalfEven n d % 2 = 0) := by
  have whole := Nat.div_add_mod n d
  have part := Nat.mod_lt n positive
  have product : n / d * d = d * (n / d) := Nat.mul_comm ..
  have next : (n / d + 1) * d = d * (n / d) + d := by rw [Nat.add_mul, Nat.one_mul, product]
  unfold roundHalfEven
  dsimp only
  split
  · rw [product]
    omega
  split
  · rw [next]
    omega
  rcases Nat.mod_two_eq_zero_or_one (n / d) with even | odd
  · rw [even, Nat.add_zero, product]
    omega
  · rw [odd, next]
    omega

theorem roundHalfEven_le {bound : Nat} (positive : 0 < d) (le : n ≤ bound * d) : roundHalfEven n d ≤ bound := by
  obtain ⟨low, _, _⟩ := roundHalfEven_spec (n := n) positive
  by_contra above
  have more : (bound + 1) * d ≤ roundHalfEven n d * d := Nat.mul_le_mul_right d (Nat.not_le.mp above)
  rw [Nat.add_mul, Nat.one_mul] at more
  omega

theorem le_roundHalfEven {bound : Nat} (positive : 0 < d) (le : bound * d ≤ n) : bound ≤ roundHalfEven n d := by
  obtain ⟨_, high, _⟩ := roundHalfEven_spec (n := n) positive
  by_contra below
  have more : (roundHalfEven n d + 1) * d ≤ bound * d := Nat.mul_le_mul_right d (Nat.not_le.mp below)
  rw [Nat.add_mul, Nat.one_mul] at more
  omega

/-- Between two quotients in order there is no place for their rounded values to change order: they would be the two
neighbours of one tie, and both even. -/
theorem roundHalfEven_mono {n' d' : Nat} (positive : 0 < d) (positive' : 0 < d') (le : n * d' ≤ n' * d) :
    roundHalfEven n d ≤ roundHalfEven n' d' := by
  obtain ⟨low, _, even⟩ := roundHalfEven_spec (n := n) positive
  obtain ⟨_, high, even'⟩ := roundHalfEven_spec (n := n') positive'
  by_contra above
  generalize roundHalfEven n d = r at *
  generalize roundHalfEven n' d' = r' at *
  have lows := Nat.mul_le_mul_right d' low
  have highs := Nat.mul_le_mul_right d high
  have places : (r' + 1) * (d * d') ≤ r * (d * d') := Nat.mul_le_mul_right _ (Nat.not_le.mp above)
  have product : 0 < d * d' := Nat.mul_pos positive positive'
  have first : 2 * (r * d) * d' = 2 * (r * (d * d')) := by ring
  have second : (2 * (r' * d') + d') * d = 2 * (r' * (d * d')) + d * d' := by ring
  have third : (2 * n + d) * d' = 2 * (n * d') + d * d' := by ring
  have fourth : 2 * n' * d = 2 * (n' * d) := by ring
  have fifth : (r' + 1) * (d * d') = r' * (d * d') + d * d' := by ring
  rw [first, third] at lows
  rw [fourth, second] at highs
  rw [fifth] at places
  have tie : 2 * (r * d) = 2 * n + d := by
    refine Nat.eq_of_mul_eq_mul_right positive' ?_
    rw [first, third]
    omega
  have tie' : 2 * n' = 2 * (r' * d') + d' := by
    refine Nat.eq_of_mul_eq_mul_right positive ?_
    rw [fourth, second]
    omega
  have next : r = r' + 1 := by
    refine Nat.eq_of_mul_eq_mul_right product ?_
    rw [fifth]
    omega
  have := even (.inl tie)
  have := even' (.inr tie')
  omega

end HalfEven

namespace FloatFormat

variable {f : FloatFormat} {n d : Nat} {q : Int}

theorem shifted_pos (positive : 0 < d) : 0 < (shifted n d q).2 := by
  unfold shifted
  split
  · exact Nat.mul_pos positive (Nat.pow_pos (by decide))
  · exact positive

/-- A quotient of natural numbers as a rational number. -/
def quotientOf (parts : Nat × Nat) : ℚ := (parts.1 : ℚ) / parts.2

/-- A power of a base goes to the denominator, or with a negative exponent to the numerator. -/
theorem quotientOf_scaled {base : Nat} (some : base ≠ 0) (positive : 0 < d) :
    quotientOf (if 0 ≤ q then (n, d * Nat.pow base q.toNat) else (n * Nat.pow base (-q).toNat, d)) =
      n / d * base ^ (-q) := by
  have divisor : (d : ℚ) ≠ 0 := Nat.cast_ne_zero.mpr positive.ne'
  have root : (base : ℚ) ≠ 0 := Nat.cast_ne_zero.mpr some
  have power (k : Int) (up : 0 ≤ k) : ((Nat.pow base k.toNat : Nat) : ℚ) = (base : ℚ) ^ k := by
    obtain ⟨k, rfl⟩ := Int.eq_ofNat_of_zero_le up
    rw [Int.toNat_natCast, zpow_natCast]
    exact Nat.cast_pow base k
  unfold quotientOf
  split
  next up =>
    simp only [Nat.cast_mul, power q up, zpow_neg]
    field_simp
  next down =>
    simp only [Nat.cast_mul, power (-q) (by omega)]
    field_simp

theorem quotientOf_shifted (positive : 0 < d) : quotientOf (shifted n d q) = n / d * 2 ^ (-q) :=
  quotientOf_scaled two_ne_zero positive

theorem quotientOf_le_iff {a b : Nat × Nat} (positive : 0 < a.2) (positive' : 0 < b.2) :
    quotientOf a ≤ quotientOf b ↔ a.1 * b.2 ≤ b.1 * a.2 := by
  have some : (0 : ℚ) < a.2 := Nat.cast_pos.mpr positive
  have some' : (0 : ℚ) < b.2 := Nat.cast_pos.mpr positive'
  rw [quotientOf, quotientOf, div_le_div_iff₀ some some']
  exact_mod_cast Iff.rfl

theorem le_quotientOf_iff {m : Nat} {a : Nat × Nat} (positive : 0 < a.2) :
    (m : ℚ) ≤ quotientOf a ↔ m * a.2 ≤ a.1 := by
  rw [quotientOf, le_div_iff₀ (Nat.cast_pos.mpr positive)]
  exact_mod_cast Iff.rfl

theorem quotientOf_lt_iff {m : Nat} {a : Nat × Nat} (positive : 0 < a.2) :
    quotientOf a < m ↔ a.1 < m * a.2 := by
  rw [← not_le, le_quotientOf_iff positive, not_le]

theorem cast_twoTo (k : Nat) : ((twoTo k : Nat) : ℚ) = 2 ^ (k : Int) := by
  rw [zpow_natCast]
  exact Nat.cast_pow 2 k

theorem log2_spec (some : n ≠ 0) : (2 : ℚ) ^ (n.log2 : Int) ≤ n ∧ (n : ℚ) < 2 ^ ((n.log2 : Int) + 1) := by
  have low : twoTo n.log2 ≤ n := Nat.log2_self_le some
  have high : n < twoTo (n.log2 + 1) := Nat.lt_log2_self
  rw [← cast_twoTo, ← Nat.cast_succ, ← cast_twoTo]
  exact ⟨Nat.cast_le.mpr low, Nat.cast_lt.mpr high⟩

theorem two_zpow_le {p q : Int} (le : p ≤ q) : (2 : ℚ) ^ p ≤ 2 ^ q := zpow_le_zpow_right₀ (by norm_num) le

theorem mul_two_zpow_neg (v : ℚ) (q : Int) : v * 2 ^ (-q) = v / 2 ^ q := by rw [zpow_neg, div_eq_mul_inv]

/-- The exponent that a quotient is rounded at: never below the least, and else as great as the fraction needs. -/
structure RoundedAt (f : FloatFormat) (n d : Nat) (q : Int) : Prop where
  least : f.leastExponent ≤ q
  below : (n / d : ℚ) < 2 ^ (q + f.fractionBits + 1)
  normal : f.leastExponent < q → (2 : ℚ) ^ (q + f.fractionBits) ≤ n / d
  rounded : f.nearest n d = min f.infinity ((q - f.leastExponent).toNat * twoTo f.fractionBits +
    roundHalfEven (shifted n d q).1 (shifted n d q).2)

/-- The logarithms of numerator and denominator tell the exponent but for one place. -/
theorem log2_quotient (some : n ≠ 0) (positive : 0 < d) :
    (2 : ℚ) ^ ((n.log2 : Int) - d.log2 - 1) < n / d ∧ (n / d : ℚ) < 2 ^ ((n.log2 : Int) - d.log2 + 1) := by
  obtain ⟨low, high⟩ := log2_spec some
  obtain ⟨low', high'⟩ := log2_spec positive.ne'
  have denominator : (0 : ℚ) < d := Nat.cast_pos.mpr positive
  have power (k : Int) : (0 : ℚ) < 2 ^ k := zpow_pos (by norm_num) k
  constructor
  · rw [lt_div_iff₀ denominator]
    calc (2 : ℚ) ^ ((n.log2 : Int) - d.log2 - 1) * d
        < 2 ^ ((n.log2 : Int) - d.log2 - 1) * 2 ^ ((d.log2 : Int) + 1) := mul_lt_mul_of_pos_left high' (power _)
      _ = 2 ^ (n.log2 : Int) := by rw [← zpow_add₀ (by norm_num)]; congr 1; ring
      _ ≤ n := low
  · rw [div_lt_iff₀ denominator]
    calc (n : ℚ) < 2 ^ ((n.log2 : Int) + 1) := high
      _ = 2 ^ ((n.log2 : Int) - d.log2 + 1) * 2 ^ (d.log2 : Int) := by
        rw [← zpow_add₀ (by norm_num)]; congr 1; ring
      _ ≤ 2 ^ ((n.log2 : Int) - d.log2 + 1) * d := mul_le_mul_of_nonneg_left low' (power _).le

theorem shifted_lt_iff {q : Int} {k : Nat} (positive : 0 < d) :
    (shifted n d q).1 < twoTo k * (shifted n d q).2 ↔ (n / d : ℚ) < 2 ^ (q + k) := by
  rw [← quotientOf_lt_iff (shifted_pos positive), quotientOf_shifted positive, mul_two_zpow_neg, cast_twoTo,
    div_lt_iff₀ (zpow_pos (by norm_num) q), ← zpow_add₀ (by norm_num), add_comm]

theorem exists_roundedAt (f : FloatFormat) (some : n ≠ 0) (positive : 0 < d) : ∃ q, f.RoundedAt n d q := by
  obtain ⟨low, high⟩ := log2_quotient some positive
  have unfolded : ∃ exact : Int, (2 : ℚ) ^ (exact + f.fractionBits) ≤ n / d ∧
      (n / d : ℚ) < 2 ^ (exact + f.fractionBits + 1) ∧
      f.nearest n d = min f.infinity ((max exact f.leastExponent - f.leastExponent).toNat * twoTo f.fractionBits +
        roundHalfEven (shifted n d (max exact f.leastExponent)).1 (shifted n d (max exact f.leastExponent)).2) := by
    unfold nearest
    rw [if_neg some]
    dsimp only
    split
    next small =>
      refine ⟨_, ?_, ?_, rfl⟩
      · refine le_trans (two_zpow_le ?_) low.le
        omega
      · rw [shifted_lt_iff positive] at small
        refine lt_of_lt_of_le small (two_zpow_le ?_)
        omega
    next great =>
      refine ⟨_, ?_, ?_, rfl⟩
      · rwa [shifted_lt_iff positive, not_lt] at great
      · refine lt_of_lt_of_le high (two_zpow_le ?_)
        omega
  obtain ⟨exact, from_, below, rounded⟩ := unfolded
  refine ⟨max exact f.leastExponent, le_max_right .., ?_, fun more => ?_, rounded⟩
  · exact lt_of_lt_of_le below (two_zpow_le (by omega))
  · rwa [max_eq_left (by omega)]

/-- A smaller quotient is never rounded to a greater magnitude. -/
theorem nearest_mono (f : FloatFormat) {n' d' : Nat} (positive : 0 < d) (positive' : 0 < d')
    (le : n * d' ≤ n' * d) : f.nearest n d ≤ f.nearest n' d' := by
  by_cases none : n = 0
  · rw [nearest, if_pos none]
    exact Nat.zero_le _
  have some : n' ≠ 0 := by
    rintro rfl
    have product := Nat.mul_pos (Nat.pos_of_ne_zero none) positive'
    omega
  obtain ⟨q, at_⟩ := exists_roundedAt f none positive
  obtain ⟨q', at'⟩ := exists_roundedAt f some positive'
  have order : (n / d : ℚ) ≤ n' / d' := (quotientOf_le_iff (a := (n, d)) (b := (n', d')) positive positive').mpr le
  have exponents : q ≤ q' := by
    by_contra above
    have least := at'.least
    have start := at_.normal (by omega)
    have stop := at'.below
    have powers : (2 : ℚ) ^ (q' + f.fractionBits + 1) ≤ 2 ^ (q + f.fractionBits) := two_zpow_le (by omega)
    linarith
  rw [at_.rounded, at'.rounded]
  refine min_le_min_left _ ?_
  rcases exponents.eq_or_lt with same | less
  · subst same
    refine Nat.add_le_add_left (roundHalfEven_mono (shifted_pos positive) (shifted_pos positive') ?_) _
    rw [← quotientOf_le_iff (shifted_pos positive) (shifted_pos positive'), quotientOf_shifted positive,
      quotientOf_shifted positive']
    exact mul_le_mul_of_nonneg_right order (zpow_nonneg (by norm_num) _)
  · have least := at_.least
    have high : roundHalfEven (shifted n d q).1 (shifted n d q).2 ≤ twoTo (f.fractionBits + 1) := by
      refine roundHalfEven_le (shifted_pos positive) ((shifted_lt_iff positive).mpr ?_).le
      rw [Nat.cast_succ, ← add_assoc]
      exact at_.below
    have low : twoTo f.fractionBits ≤ roundHalfEven (shifted n' d' q').1 (shifted n' d' q').2 := by
      refine le_roundHalfEven (shifted_pos positive') (Nat.not_lt.mp ?_)
      rw [shifted_lt_iff positive', not_lt]
      exact at'.normal (by omega)
    have double : twoTo (f.fractionBits + 1) = 2 * twoTo f.fractionBits := Nat.pow_succ'
    have steps : (q - f.leastExponent).toNat + 1 ≤ (q' - f.leastExponent).toNat := by omega
    have places := Nat.mul_le_mul_right (twoTo f.fractionBits) steps
    rw [Nat.add_mul, Nat.one_mul] at places
    omega

end FloatFormat

end RunQuery
