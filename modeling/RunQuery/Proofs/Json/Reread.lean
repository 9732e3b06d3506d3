import RunQuery.Proofs.Json.Numeral

/-!
Numbers that are read again. A reader takes no more of a numeral than it stands for and rounds in steps that keep the
order, so that none of them leaves the range: what it reads is finite, and the numeral of a finite number is always
read, if perhaps as another number.
-/
namespace RunQuery.Json

open FloatFormat (binary64)

namespace Numeral

section Magnitude

theorem le_ofDigitChars (ds : List Char) (n : Nat) : n * 10 ^ ds.length ≤ Nat.ofDigitChars 10 ds n := by
  rw [Nat.ofDigitChars_eq_ofDigitChars_zero, Nat.mul_comm]
  exact Nat.le_add_right ..

theorem ofDigitChars_lt {ds : List Char} (all : ∀ c ∈ ds, c.isDigit = true) :
    Nat.ofDigitChars 10 ds 0 < 10 ^ ds.length := by
  induction ds with
  | nil => exact Nat.one_pos
  | cons c ds ih =>
    rw [List.forall_mem_cons] at all
    have most := (digit_bounds all.1).2
    have digit : 10 * 0 + (c.toNat - '0'.toNat) ≤ 9 := by
      have : '9'.toNat = '0'.toNat + 9 := rfl
      omega
    have rest := ih all.2
    have high := Nat.mul_le_mul_left (10 ^ ds.length) digit
    rw [Nat.ofDigitChars_cons, Nat.ofDigitChars_eq_ofDigitChars_zero, List.length_cons, Nat.pow_succ]
    omega

/-- A whole part that fits a word is taken to its end. -/
theorem takeWhole_of_lt {ds : List Char} {n : Nat} (fits : Nat.ofDigitChars 10 ds n < wordLimit) :
    takeWhole n ds = (Nat.ofDigitChars 10 ds n, 0) := by
  induction ds generalizing n with
  | nil => rfl
  | cons c ds ih =>
    rw [Nat.ofDigitChars_cons] at fits
    have least : 10 * n + (c.toNat - '0'.toNat) ≤ Nat.ofDigitChars 10 ds (10 * n + (c.toNat - '0'.toNat)) :=
      (Nat.le_mul_of_pos_right _ (Nat.pow_pos (by decide))).trans (le_ofDigitChars ds _)
    rw [takeWhole, if_pos (Nat.lt_of_le_of_lt least fits), ih fits, Nat.ofDigitChars_cons]

/-- What is taken of a fraction fits a word, and is no more than all of it. -/
theorem takeFraction_spec (ds : List Char) {n : Nat} (fits : n < wordLimit) :
    (takeFraction n ds).1 < wordLimit ∧ (takeFraction n ds).2 ≤ ds.length ∧
      (takeFraction n ds).1 * 10 ^ (ds.length - (takeFraction n ds).2) ≤ Nat.ofDigitChars 10 ds n := by
  induction ds generalizing n with
  | nil => exact ⟨fits, le_rfl, (Nat.mul_one n).le⟩
  | cons c ds ih =>
    rw [takeFraction]
    dsimp only
    split
    next more =>
      obtain ⟨word, count, most⟩ := ih more
      refine ⟨word, Nat.succ_le_succ count, ?_⟩
      rwa [List.length_cons, Nat.add_sub_add_right, Nat.ofDigitChars_cons]
    next => exact ⟨fits, Nat.zero_le _, le_ofDigitChars (c :: ds) n⟩

/-- What the greatest magnitude but one stands for. -/
@[irreducible]
def top : Nat := (twoTo 53 - 2) * twoTo 971

theorem top_lt : top < 10 ^ (greatestPower + 1) := by decide +kernel

theorem powerOfTen_mono {j k : Nat} (le : j ≤ k) : powerOfTen j ≤ powerOfTen k :=
  FloatFormat.nearest_mono _ Nat.one_pos Nat.one_pos
    (Nat.mul_le_mul_right 1 (Nat.pow_le_pow_right (by decide) le))

theorem product_powerOfTen {s k : Nat} (word : s < wordLimit) (power : k ≤ greatestPower) (le : s * 10 ^ k ≤ top) :
    binary64.product (binary64.nearest s 1) (powerOfTen k) < binary64.infinity := by
  have most {bound : Nat} (le : s ≤ bound) :
      binary64.nearest s 1 ≤ binary64.nearest bound 1 :=
    FloatFormat.nearest_mono _ Nat.one_pos Nat.one_pos (Nat.mul_le_mul_right 1 le)
  -- Up to this power any word will do; beyond it the word has to be small, and a few powers are left.
  by_cases small : k ≤ 288
  · have finite : binary64.product (powerOfTen 288) (binary64.nearest wordLimit 1) <
        binary64.infinity := by decide +kernel
    calc binary64.product (binary64.nearest s 1) (powerOfTen k)
        ≤ binary64.product (binary64.nearest wordLimit 1) (powerOfTen k) :=
          FloatFormat.product_le _ (most word.le) _
      _ = binary64.product (powerOfTen k) (binary64.nearest wordLimit 1) :=
          FloatFormat.product_comm ..
      _ ≤ binary64.product (powerOfTen 288) (binary64.nearest wordLimit 1) :=
          FloatFormat.product_le _ (powerOfTen_mono small) _
      _ < binary64.infinity := finite
  · have table : ∀ j < 20, binary64.product (binary64.nearest (top / 10 ^ (289 + j)) 1)
        (powerOfTen (289 + j)) < binary64.infinity := by decide +kernel
    have upper : k < 309 := Nat.lt_succ_of_le power
    obtain ⟨j, rfl⟩ := Nat.exists_eq_add_of_le (show 289 ≤ k by omega)
    have quotient : s ≤ top / 10 ^ (289 + j) := (Nat.le_div_iff_mul_le (Nat.pow_pos (by decide))).mpr le
    exact Nat.lt_of_le_of_lt (FloatFormat.product_le _ (most quotient) _) (table j (by omega))

theorem scaledUp_of_le {s k : Nat} (word : s < wordLimit) (le : s * 10 ^ k ≤ top) :
    ∃ m, scaledUp (binary64.nearest s 1) k = some m := by
  unfold scaledUp
  by_cases power : k ≤ greatestPower
  · have finite := product_powerOfTen word power le
    rw [if_neg (Nat.not_lt.mpr power)]
    exact ⟨_, if_pos finite⟩
  · have none : s = 0 := by
      by_contra some
      have powers : 10 ^ (greatestPower + 1) ≤ 10 ^ k := Nat.pow_le_pow_right (by decide) (Nat.not_le.mp power)
      have more : 10 ^ k ≤ s * 10 ^ k := Nat.le_mul_of_pos_left _ (Nat.pos_of_ne_zero some)
      exact absurd (powers.trans (more.trans le)) (Nat.not_le.mpr top_lt)
    rw [if_pos (Nat.not_le.mp power), none]
    exact ⟨0, rfl⟩

theorem scaled_of_le {s : Nat} {e : Int} (word : s < wordLimit) (le : (s : ℚ) * 10 ^ e ≤ top) :
    ∃ m, scaled s e = some m := by
  unfold scaled
  dsimp only
  split
  next up =>
    obtain ⟨k, rfl⟩ := Int.eq_ofNat_of_zero_le up
    rw [Int.toNat_natCast]
    refine scaledUp_of_le word ?_
    rw [zpow_natCast] at le
    exact_mod_cast le
  next => exact ⟨_, rfl⟩

/-- What is read of the parts of a decimal, scaled as they say, is no more than the decimal. -/
theorem Spells.taken_le {y : Numeral} {x : Decimal} (spells : y.Spells x) :
    ∃ s t, takeWhole 0 y.whole = (Digits.value y.whole, 0) ∧
      takeFraction (Digits.value y.whole) (y.fraction.getD []) = (s, t) ∧ s < wordLimit ∧
      (s : ℚ) * 10 ^ (y.power - t) ≤ x.value := by
  have whole : Digits.value y.whole < wordLimit := by
    refine Nat.lt_of_lt_of_le (ofDigitChars_lt spells.formed.whole.all) ?_
    exact (Nat.pow_le_pow_right (by decide) spells.short).trans (by decide)
  obtain ⟨word, count, part⟩ := takeFraction_spec (y.fraction.getD []) whole
  refine ⟨_, _, takeWhole_of_lt whole, rfl, word, ?_⟩
  rw [← spells.value, Decimal.value, decimal, value_append]
  generalize takeFraction (Digits.value y.whole) (y.fraction.getD []) = taken at *
  have places : y.power - taken.2 =
      ((y.fraction.getD []).length - taken.2 : Nat) + (y.power - (y.fraction.getD []).length) := by omega
  rw [places, zpow_add₀ (by norm_num), zpow_natCast, ← mul_assoc]
  exact mul_le_mul_of_nonneg_right (by exact_mod_cast part) (zpow_nonneg (by norm_num) _)

/-- A decimal whose first digit stands before the point is no less than the power of ten after its digits. -/
theorem Spells.power_le {y : Numeral} {x : Decimal} (spells : y.Spells x) (scientific : y.exponent.isSome = true) :
    (10 : ℚ) ^ y.power ≤ x.value := by
  have least : 10 ^ (y.fraction.getD []).length ≤
      Nat.ofDigitChars 10 (y.fraction.getD []) (Digits.value y.whole) :=
    (Nat.le_mul_of_pos_left _ (Nat.pos_of_ne_zero (spells.lead scientific))).trans (le_ofDigitChars _ _)
  have places : y.power = (y.fraction.getD []).length + (y.power - (y.fraction.getD []).length) := by omega
  rw [← spells.value, Decimal.value, decimal, value_append, places, zpow_add₀ (by norm_num), zpow_natCast, ← places]
  exact mul_le_mul_of_nonneg_right (by exact_mod_cast least) (zpow_nonneg (by norm_num) _)

/-- The parts of a decimal that is not too great have a magnitude. -/
theorem Spells.exists_magnitude {y : Numeral} {x : Decimal} (spells : y.Spells x) (bounded : x.value ≤ top) :
    ∃ m, y.magnitude? = some m := by
  obtain ⟨s, t, whole, fraction, word, part⟩ := spells.taken_le
  have below := part.trans bounded
  have power := spells.power_le
  unfold magnitude?
  simp only [whole, fraction]
  unfold Numeral.power at below power
  split
  next none =>
    simp only [none] at below
    refine scaled_of_le word ?_
    exact_mod_cast below
  next negative ds same =>
    simp only [same] at below power
    cases negative with
    | true =>
      split
      · exact ⟨0, if_pos (.inr rfl)⟩
      · rw [if_pos rfl] at below
        refine scaled_of_le word ?_
        rwa [if_pos rfl, Nat.cast_zero, zero_sub, neg_sub_comm]
    | false =>
      have small : ¬ greatestExponent < Digits.value ds := by
        intro great
        have above := (power rfl).trans bounded
        rw [if_neg Bool.false_ne_true, zpow_natCast] at above
        have powers : 10 ^ (greatestPower + 1) ≤ 10 ^ Digits.value ds :=
          Nat.pow_le_pow_right (by decide) (Nat.le_trans (by decide) great.le)
        exact absurd (powers.trans (by exact_mod_cast above)) (Nat.not_le.mpr top_lt)
      rw [if_neg Bool.false_ne_true] at below
      rw [if_neg small]
      refine scaled_of_le word ?_
      rwa [if_neg Bool.false_ne_true, Nat.cast_zero, zero_sub, neg_add_eq_sub]

end Magnitude

section Finite

variable {m r : Nat}

theorem takeWhole_lt (ds : List Char) {n : Nat} (fits : n < wordLimit) : (takeWhole n ds).1 < wordLimit := by
  induction ds generalizing n with
  | nil => exact fits
  | cons c ds ih =>
    rw [takeWhole]
    split
    next more => exact ih more
    next => exact fits

theorem scaledUp_finite {k : Nat} (found : scaledUp m k = some r) : r < binary64.infinity := by
  unfold scaledUp at found
  dsimp only at found
  split at found
  · split at found
    · cases found
      decide
    · cases found
  · split at found
    next finite =>
      cases found
      exact finite
    next => cases found

/-- The number nearest to the first that does not fit a word. -/
def word : Nat := binary64.nearest wordLimit 1

theorem nearest_le_word {n : Nat} (fits : n ≤ wordLimit) : binary64.nearest n 1 ≤ word :=
  FloatFormat.nearest_mono _ Nat.one_pos Nat.one_pos (Nat.mul_le_mul_right 1 fits)

theorem word_lt : word < binary64.infinity := by decide +kernel

theorem quotient_powerOfTen (le : m ≤ word) (k : Nat) :
    binary64.quotient m (powerOfTen k) ≤ word := by
  have same : binary64.nearest (binary64.ratio word).1 (binary64.ratio word).2 =
      word := by decide +kernel
  have one : (binary64.ratio (powerOfTen 0)).2 = (binary64.ratio (powerOfTen 0)).1 := by
    decide +kernel
  have order := binary64.ratio_le (powerOfTen_mono (Nat.zero_le k))
  rw [one, Nat.mul_comm] at order
  have positive : 0 < (binary64.ratio (powerOfTen 0)).1 := one ▸ FloatFormat.ratio_pos _ _
  exact (FloatFormat.quotient_le _ le (Nat.le_of_mul_le_mul_right order positive)).trans same.le

theorem scaledDown_le (le : m ≤ word) (steps k : Nat) : scaledDown m steps k ≤ word := by
  induction steps generalizing m k with
  | zero => exact Nat.zero_le _
  | succ steps ih =>
    rw [scaledDown]
    split
    · exact quotient_powerOfTen le k
    split
    · exact Nat.zero_le _
    · exact ih (quotient_powerOfTen le _) _

theorem scaled_finite {s : Nat} {e : Int} (fits : s < wordLimit) (found : scaled s e = some r) :
    r < binary64.infinity := by
  unfold scaled at found
  dsimp only at found
  split at found
  · exact scaledUp_finite found
  · cases found
    exact Nat.lt_of_le_of_lt (scaledDown_le (nearest_le_word fits.le) _ _) word_lt

/-- Whatever a numeral is read as is finite. -/
theorem magnitude?_finite {x : Numeral} (found : x.magnitude? = some m) : m < binary64.infinity := by
  have fits := (takeFraction_spec (x.fraction.getD []) (takeWhole_lt x.whole (by decide : 0 < wordLimit))).1
  unfold magnitude? at found
  dsimp only at found
  split at found
  · exact scaled_finite fits found
  split at found
  · split at found
    · cases found
      decide
    · cases found
  · exact scaled_finite fits found

end Finite

end Numeral

section Number

open Numeral

theorem shortest_le_top {m : Nat} (present : m ≠ 0) (below : m + 2 < binary64.infinity) :
    (binary64.shortest .even m).value ≤ top := by
  have rounded : binary64.nearest top 1 = binary64.infinity - 2 := by decide +kernel
  have same : binary64.scale (binary64.infinity - 2) = top * twoTo 1074 := by decide +kernel
  have least : binary64.leastExponent = -1074 := by decide +kernel
  refine (binary64.shortest_spec .even present (by omega)).2 top (by omega) ?_
  have order : binary64.scale m ≤ top * twoTo 1074 :=
    same ▸ FloatFormat.scale_mono _ (show m ≤ binary64.infinity - 2 by omega)
  rw [least, zpow_neg, ← div_eq_mul_inv, div_le_iff₀ (zpow_pos (by norm_num) _)]
  have power : (2 : ℚ) ^ (1074 : Int) = (twoTo 1074 : Nat) := (FloatFormat.cast_twoTo 1074).symm
  rw [power]
  exact_mod_cast order

/-- The parts of the numeral of a finite magnitude have a magnitude again. -/
theorem exists_magnitude_shortest (negative : Bool) {m : Nat} (present : m ≠ 0)
    (finite : m < binary64.infinity) :
    ∃ r, (Numeral.ofDecimal negative (binary64.shortest .even m) .double).magnitude? = some r := by
  have some := (binary64.shortest_spec .even present finite).1
  -- The decimal of the greatest magnitude may be greater than that magnitude, so no bound holds of the last two.
  by_cases below : m + 2 < binary64.infinity
  · exact (spells_ofDecimal negative some).exists_magnitude (shortest_le_top present below)
  · have greatest : ∀ negative, ∀ m ∈ [binary64.infinity - 1, binary64.infinity - 2],
        (Numeral.ofDecimal negative (binary64.shortest .even m) .double).magnitude?.isSome = true := by
      decide +kernel
    refine Option.isSome_iff_exists.mp (greatest negative m ?_)
    rw [List.mem_pair]
    omega

/-- Parts that are taken for a number. -/
theorem scanNumeral_of_parts {x : Numeral} {m : Nat} {text : List Char} (read : numeral? text = some (x, []))
    (marked : (x.fraction.isSome || x.exponent.isSome) = true) (found : x.magnitude? = some m) :
    scanNumeral text = (.leaf (.double (.ofMagnitude x.negative m)), []) := by
  have valued : x.value? = some (.double (.ofMagnitude x.negative m)) := by
    rw [Numeral.value?, if_pos marked, found]
    rfl
  rw [scanNumeral, read]
  simp only [valued]

theorem numeral?_signed {x : Numeral} (formed : x.Formed) :
    numeral? (if x.negative then '-' :: x.text else x.text) = some (x, []) := by
  have read := unsigned?_text formed
  cases negative : x.negative with
  | true =>
    rw [negative] at read
    rw [if_pos rfl, numeral?_minus, read]
  | false =>
    rw [negative] at read
    obtain ⟨c, others, same⟩ := List.exists_cons_of_ne_nil formed.whole.some
    have digit := formed.whole.all c (same ▸ List.mem_cons_self)
    have start : x.text = c :: (others ++ (fractionText x.fraction ++ exponentText x.exponent)) := by
      rw [text, same, List.cons_append]
    have other : c ≠ '-' := by
      rintro rfl
      exact Bool.false_ne_true digit
    rw [start] at read ⊢
    rw [if_neg Bool.false_ne_true, numeral?_of_ne other, read]

/-- The numeral of a finite number is taken for a number, if perhaps another one. -/
theorem scanNumeral_numeral {n : Number} (finite : n.isFinite = true) :
    ∃ text m, n.numeral? = some text ∧ scanNumeral text = (.leaf (.double m), []) := by
  have finite : n.magnitude < binary64.infinity := of_decide_eq_true finite
  have written {body : List Char} (same : (if n.magnitude = 0 then ['0', '.', '0']
      else (binary64.shortest .even n.magnitude).numeral .double) = body) :
      n.numeral? = some (if n.negative then '-' :: body else body) := by
    rw [← same]
    exact if_pos finite
  by_cases none : n.magnitude = 0
  · have zero : ∀ negative, (⟨negative, ['0'], some ['0'], Option.none⟩ : Numeral).magnitude? = some 0 := by decide
    have formed : (⟨n.negative, ['0'], some ['0'], Option.none⟩ : Numeral).Formed :=
      ⟨isDigits_zero, .inr rfl, fun _ same => Option.some.inj same ▸ isDigits_zero, nofun⟩
    exact ⟨_, _, written (if_pos none), scanNumeral_of_parts (numeral?_signed formed) rfl (zero n.negative)⟩
  · obtain ⟨r, found⟩ := exists_magnitude_shortest n.negative none finite
    have spells := spells_ofDecimal n.negative (binary64.shortest_spec .even none finite).1
    have read := numeral?_signed spells.formed
    rw [text_ofDecimal, negative_ofDecimal] at read
    exact ⟨_, _, written (if_neg none), scanNumeral_of_parts read spells.marked found⟩

/-- The number that the numeral of a number is taken for. -/
def reread (n : Number) : Number :=
  match n.numeral?.map scanNumeral with
  | some (.leaf (.double m), []) => m
  | _ => n

theorem scanNumeral_reread {n : Number} (finite : n.isFinite = true) :
    ∃ text, n.numeral? = some text ∧ scanNumeral text = (.leaf (.double (reread n)), []) := by
  obtain ⟨text, m, written, scanned⟩ := scanNumeral_numeral finite
  have same : reread n = m := by
    rw [reread, written, Option.map_some, scanned]
  exact ⟨text, written, same ▸ scanned⟩

theorem isFinite_ofMagnitude (negative : Bool) {m : Nat} (finite : m < binary64.infinity) :
    (Number.ofMagnitude negative m).isFinite = true := by
  rw [Number.isFinite, Number.magnitude_ofMagnitude negative (finite.trans (by decide))]
  exact decide_eq_true finite

end Number

end RunQuery.Json
