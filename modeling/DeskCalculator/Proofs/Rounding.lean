/-
This file proves what rounding a quotient computes. The powers of two and ten
that scale numerators and denominators stand for powers of rationals; with them
the leading exponent, the last place and the rounded count of units are each
pinned down by where the quotient lies.
-/

import DeskCalculator.Binary.Nearest
import Mathlib.Algebra.Order.Field.Power
import Mathlib.Algebra.Order.Ring.Rat
import Mathlib.Tactic.FieldSimp
import Mathlib.Tactic.Linarith
import Mathlib.Tactic.NormNum
import Mathlib.Tactic.Positivity
import Mathlib.Tactic.Qify
import Mathlib.Tactic.Ring

namespace DeskCalculator

/-! ### Powers as quotients -/

theorem pow_toNat_eq {base : ℚ} (nonzero : base ≠ 0) (exponent : ℤ) :
    base ^ exponent.toNat = base ^ exponent * base ^ (-exponent).toNat := by
  obtain ⟨size, rfl | rfl⟩ := exponent.eq_nat_or_neg
  · rw [Int.toNat_natCast, Int.toNat_neg_natCast, pow_zero, mul_one, zpow_natCast]
  · rw [neg_neg, Int.toNat_natCast, Int.toNat_neg_natCast, pow_zero, zpow_neg, zpow_natCast,
      inv_mul_cancel₀ (pow_ne_zero size nonzero)]

theorem twoTo_eq (exponent : ℤ) :
    (twoTo exponent : ℚ) = 2 ^ exponent * twoTo (-exponent) := by
  have powers := pow_toNat_eq (show (2 : ℚ) ≠ 0 by norm_num) exponent
  have cast : ∀ exponent : ℤ, (twoTo exponent : ℚ) = 2 ^ exponent.toNat := fun exponent =>
    Nat.cast_pow 2 exponent.toNat
  rw [cast, cast, powers]

theorem tenTo_eq (exponent : ℤ) :
    (tenTo exponent : ℚ) = 10 ^ exponent * tenTo (-exponent) := by
  have powers := pow_toNat_eq (show (10 : ℚ) ≠ 0 by norm_num) exponent
  have cast : ∀ exponent : ℤ, (tenTo exponent : ℚ) = 10 ^ exponent.toNat := fun exponent =>
    Nat.cast_pow 10 exponent.toNat
  rw [cast, cast, powers]

theorem twoTo_of_nonpos {exponent : ℤ} (nonpositive : exponent ≤ 0) : twoTo exponent = 1 := by
  rw [twoTo, Int.toNat_of_nonpos nonpositive, Nat.pow_eq, Nat.pow_zero]

namespace Binary

section

variable {numerator denominator : ℕ}

theorem twoTo_le_iff (positive : 0 < denominator) (exponent : ℤ) :
    denominator * twoTo exponent ≤ numerator * twoTo (-exponent) ↔
      (2 : ℚ) ^ exponent ≤ numerator / denominator := by
  have below : (0 : ℚ) < denominator := by exact_mod_cast positive
  have power : (0 : ℚ) < twoTo (-exponent) := by exact_mod_cast twoTo_pos _
  rw [le_div_iff₀ below, ← mul_le_mul_iff_left₀ power]
  rw [mul_right_comm, ← twoTo_eq, ← Nat.cast_mul, ← Nat.cast_mul, Nat.cast_le, mul_comm denominator]

/-- The leading exponent is that of the greatest power of two that is not above the quotient. -/
theorem leadingExponent_spec (numerator_pos : 0 < numerator) (denominator_pos : 0 < denominator) :
    (2 : ℚ) ^ leadingExponent numerator denominator ≤ numerator / denominator ∧
      (numerator : ℚ) / denominator < 2 ^ (leadingExponent numerator denominator + 1) := by
  have below : (0 : ℚ) < denominator := by exact_mod_cast denominator_pos
  have numerator_low : (2 : ℚ) ^ numerator.log2 ≤ numerator := by
    exact_mod_cast Nat.log2_self_le (Nat.ne_of_gt numerator_pos)
  have numerator_high : (numerator : ℚ) < 2 ^ (numerator.log2 + 1) := by
    exact_mod_cast Nat.lt_log2_self
  have denominator_low : (2 : ℚ) ^ denominator.log2 ≤ denominator := by
    exact_mod_cast Nat.log2_self_le (Nat.ne_of_gt denominator_pos)
  have denominator_high : (denominator : ℚ) < 2 ^ (denominator.log2 + 1) := by
    exact_mod_cast Nat.lt_log2_self
  -- The difference of the two leading exponents is right or one too great.
  set estimate : ℤ := (numerator.log2 : ℤ) - denominator.log2 with estimate_eq
  have low : (2 : ℚ) ^ (estimate - 1) ≤ numerator / denominator := by
    rw [le_div_iff₀ below]
    calc (2 : ℚ) ^ (estimate - 1) * denominator
        ≤ 2 ^ (estimate - 1) * 2 ^ ((denominator.log2 + 1 : ℕ) : ℤ) := by
          rw [zpow_natCast]
          exact mul_le_mul_of_nonneg_left denominator_high.le (by positivity)
      _ = 2 ^ numerator.log2 := by
          rw [← zpow_add₀ (by norm_num), ← zpow_natCast]
          congr 1
          omega
      _ ≤ numerator := numerator_low
  have high : (numerator : ℚ) / denominator < 2 ^ (estimate + 1) := by
    rw [div_lt_iff₀ below]
    calc (numerator : ℚ) < 2 ^ (numerator.log2 + 1) := numerator_high
      _ = 2 ^ (estimate + 1) * 2 ^ ((denominator.log2 : ℕ) : ℤ) := by
          rw [← zpow_add₀ (by norm_num), ← zpow_natCast]
          congr 1
          omega
      _ ≤ 2 ^ (estimate + 1) * denominator := by
          rw [zpow_natCast]
          exact mul_le_mul_of_nonneg_left denominator_low (by positivity)
  unfold leadingExponent
  rw [← estimate_eq]
  dsimp only
  split
  · rename_i reached
    exact ⟨(twoTo_le_iff denominator_pos estimate).mp reached, high⟩
  · rename_i missed
    rw [twoTo_le_iff denominator_pos, not_le] at missed
    exact ⟨low, by rwa [sub_add_cancel]⟩

/-- The last place is the least exponent, or the exponent with which the quotient has 53 digits
before its point. -/
theorem lastPlace_eq (numerator_pos : 0 < numerator) (denominator_pos : 0 < denominator)
    {place : ℤ} (least : leastExponent ≤ place)
    (low : place = leastExponent ∨ (2 : ℚ) ^ (place + 52) ≤ numerator / denominator)
    (high : (numerator : ℚ) / denominator < 2 ^ (place + 53)) :
    lastPlace numerator denominator = place := by
  obtain ⟨leadLow, leadHigh⟩ := leadingExponent_spec numerator_pos denominator_pos
  have above : leadingExponent numerator denominator < place + 53 :=
    (zpow_lt_zpow_iff_right₀ (by norm_num)).mp (lt_of_le_of_lt leadLow high)
  unfold lastPlace
  rcases low with rfl | low
  · omega
  · have below : place + 52 < leadingExponent numerator denominator + 1 :=
      (zpow_lt_zpow_iff_right₀ (by norm_num)).mp (lt_of_le_of_lt low leadHigh)
    omega

theorem roundHalfEven_eq_ite (numerator denominator : ℕ) :
    roundHalfEven numerator denominator =
      if denominator < 2 * (numerator % denominator) ∨
          2 * (numerator % denominator) = denominator ∧ numerator / denominator % 2 = 1 then
        numerator / denominator + 1
      else numerator / denominator := by
  simp [roundHalfEven]

/-- A natural within half a unit of the quotient is its rounding; where the distance is half a
unit, if it is even. -/
theorem roundHalfEven_eq (positive : 0 < denominator) {nearest : ℕ}
    (low : 2 * nearest * denominator ≤ 2 * numerator + denominator)
    (high : 2 * numerator ≤ (2 * nearest + 1) * denominator)
    (odd : nearest % 2 = 1 → 2 * nearest * denominator < 2 * numerator + denominator ∧
      2 * numerator < (2 * nearest + 1) * denominator) :
    roundHalfEven numerator denominator = nearest := by
  have split := Nat.div_add_mod numerator denominator
  have remainder := Nat.mod_lt numerator positive
  rw [roundHalfEven_eq_ite]
  generalize numerator / denominator = quotient at *
  generalize numerator % denominator = rest at *
  subst split
  have not_above : quotient ≤ nearest := by
    refine Nat.le_of_not_lt fun above => ?_
    have more := Nat.mul_le_mul_left denominator above
    nlinarith
  have not_below : nearest ≤ quotient + 1 := by
    refine Nat.le_of_not_lt fun below => ?_
    have more := Nat.mul_le_mul_left denominator below
    nlinarith
  obtain rfl | rfl : quotient = nearest ∨ nearest = quotient + 1 := by omega
  · have half : 2 * rest ≤ denominator := by nlinarith
    refine if_neg ?_
    rintro (above | ⟨tie, isOdd⟩)
    · exact absurd half (Nat.not_le_of_lt above)
    · have strict := (odd isOdd).2
      nlinarith
  · have half : denominator ≤ 2 * rest := by nlinarith
    refine if_pos ?_
    rcases Nat.lt_or_eq_of_le half with above | tie
    · exact .inl above
    · refine .inr ⟨tie.symm, ?_⟩
      by_contra isEven
      have strict := (odd (by omega)).1
      nlinarith

theorem nearestRank_le (numerator denominator : ℕ) :
    nearestRank numerator denominator ≤ infinityRank := by
  unfold nearestRank
  split
  · exact Nat.zero_le _
  · exact Nat.min_le_left _ _

/-- The quotient in units of its last place, rounded, gives the rank on top of the places above
the least one. -/
theorem nearestRank_eq (numerator_pos : 0 < numerator) (denominator_pos : 0 < denominator)
    {place : ℤ} (least : leastExponent ≤ place)
    (placeLow : place = leastExponent ∨ (2 : ℚ) ^ (place + 52) ≤ numerator / denominator)
    (placeHigh : (numerator : ℚ) / denominator < 2 ^ (place + 53)) {units : ℕ}
    (low : (2 * units - 1 : ℚ) * 2 ^ place ≤ 2 * (numerator / denominator))
    (high : 2 * (numerator / denominator : ℚ) ≤ (2 * units + 1) * 2 ^ place)
    (odd : units % 2 = 1 → (2 * units - 1 : ℚ) * 2 ^ place < 2 * (numerator / denominator) ∧
      2 * (numerator / denominator : ℚ) < (2 * units + 1) * 2 ^ place) :
    nearestRank numerator denominator =
      min infinityRank ((place - leastExponent).toNat * binade + units) := by
  have below : (0 : ℚ) < denominator := by exact_mod_cast denominator_pos
  have power : (0 : ℚ) < twoTo (-place) := by exact_mod_cast twoTo_pos _
  have factor : (0 : ℚ) < denominator * twoTo (-place) := mul_pos below power
  have scaled : ∀ multiple : ℚ, multiple * 2 ^ place * (denominator * twoTo (-place)) =
      multiple * (denominator * twoTo place) := by
    intro multiple
    rw [twoTo_eq place]
    ring
  have quotient : 2 * (numerator / denominator : ℚ) * (denominator * twoTo (-place)) =
      2 * (numerator * twoTo (-place)) := by
    field_simp
  have rounded : roundHalfEven (numerator * twoTo (-place)) (denominator * twoTo place) =
      units := by
    refine roundHalfEven_eq (Nat.mul_pos denominator_pos (twoTo_pos place)) ?_ ?_ ?_
    · have lowScaled := mul_le_mul_of_nonneg_right low factor.le
      rw [scaled, quotient] at lowScaled
      qify
      linarith
    · have highScaled := mul_le_mul_of_nonneg_right high factor.le
      rw [scaled, quotient] at highScaled
      qify
      linarith
    · intro isOdd
      obtain ⟨low, high⟩ := odd isOdd
      have lowScaled := mul_lt_mul_of_pos_right low factor
      have highScaled := mul_lt_mul_of_pos_right high factor
      rw [scaled, quotient] at lowScaled highScaled
      constructor
      · qify
        linarith
      · qify
        linarith
  unfold nearestRank
  rw [if_neg (Nat.ne_of_gt numerator_pos)]
  dsimp only
  rw [lastPlace_eq numerator_pos denominator_pos least placeLow placeHigh, rounded]

end

end Binary

end DeskCalculator
