/-
This file proves that the search for the shortest decimal misses none. Where a
grid has a point in the basin, one of the two neighbours of the float is such a
point; and the search starts on a grid whose points pass beyond the basin. So
no grid coarser than that of the shortest decimal has a point in the basin,
and in particular its coefficient does not end with a zero.
-/

import DeskCalculator.Proofs.Numerals

namespace DeskCalculator.Decimal

namespace Basin

variable {basin : Basin} {grid : ℤ}

/-! ### Neighbours on a grid -/

/-- No point of the grid lies in the basin. -/
def Misses (basin : Basin) (grid : ℤ) : Prop :=
  ∀ coefficient : ℕ, ¬basin.Holds (coefficient * 10 ^ grid)

theorem Misses.mono (misses : basin.Misses grid) {coarser : ℤ} (above : grid ≤ coarser) :
    basin.Misses coarser := by
  intro coefficient holds
  refine misses (coefficient * 10 ^ (coarser - grid).toNat) ?_
  have split : coarser = ((coarser - grid).toNat : ℤ) + grid := by omega
  rw [split, zpow_add₀ (by norm_num), zpow_natCast, ← mul_assoc] at holds
  exact_mod_cast holds

theorem Holds.bounds {number : ℚ} (holds : basin.Holds number) :
    basin.low * 2 ^ basin.exponent ≤ number ∧ number ≤ basin.high * 2 ^ basin.exponent := by
  unfold Holds at holds
  split at holds
  · exact holds
  · exact ⟨holds.1.le, holds.2.le⟩

theorem Holds.between {low number high : ℚ} (lowHolds : basin.Holds low)
    (highHolds : basin.Holds high) (above : low ≤ number) (below : number ≤ high) :
    basin.Holds number := by
  unfold Holds at *
  split_ifs at lowHolds highHolds ⊢
  · exact ⟨lowHolds.1.trans above, below.trans highHolds.2⟩
  · exact ⟨lowHolds.1.trans_le above, below.trans_lt highHolds.2⟩

theorem below_le (basin : Basin) (grid : ℤ) :
    (basin.below grid : ℚ) * 10 ^ grid ≤ basin.middle * 2 ^ basin.exponent := by
  rw [← le_unit_iff]
  exact Nat.div_mul_le_self _ _

theorem le_below_succ (basin : Basin) (grid : ℤ) :
    (basin.middle : ℚ) * 2 ^ basin.exponent ≤ (basin.below grid + 1 : ℕ) * 10 ^ grid := by
  have positive : 0 < basin.step grid := Nat.mul_pos (twoTo_pos _) (tenTo_pos _)
  rw [← unit_le_iff, Nat.add_one_mul]
  exact (Nat.lt_div_mul_add positive).le

/-- A grid with a point in the basin has one next to the float. -/
theorem misses_of_pick?_eq_none {tie : Tie} (low : basin.low < basin.middle)
    (high : basin.middle < basin.high) (none : basin.pick? tie grid = none) :
    basin.Misses grid := by
  intro coefficient holds
  have middle := holds_middle low high
  have power : (0 : ℚ) ≤ 10 ^ grid := by positivity
  have neighbour : basin.contains grid (basin.below grid) = true ∨
      basin.contains grid (basin.below grid + 1) = true := by
    rw [contains_iff, contains_iff]
    rcases Nat.lt_or_ge (basin.below grid) coefficient with above | below
    · refine .inr (middle.between holds (basin.le_below_succ grid) ?_)
      exact mul_le_mul_of_nonneg_right (by exact_mod_cast above) power
    · refine .inl (holds.between middle ?_ (basin.below_le grid))
      exact mul_le_mul_of_nonneg_right (by exact_mod_cast below) power
  unfold pick? at none
  dsimp only at none
  split at none
  case h_4 lower upper =>
    rw [lower, upper] at neighbour
    exact neighbour.elim Bool.false_ne_true Bool.false_ne_true
  all_goals cases none

/-! ### The first grid -/

/-- A quotient below one has as many zeros behind the point as its inverse has further digits. -/
theorem lt_pow_of_inverse {numerator denominator : ℕ} (positive : 0 < numerator)
    (less : numerator < denominator) :
    (numerator : ℚ) <
      10 ^ (2 - ((Nat.toDigits 10 (denominator / numerator)).length : ℤ)) * denominator := by
  have some : 0 < (Nat.toDigits 10 (denominator / numerator)).length := Nat.length_toDigits_pos
  have digits := pow_length_toDigits_le (Nat.div_pos less.le positive)
  generalize (Nat.toDigits 10 (denominator / numerator)).length = length at *
  have scaled : (numerator : ℚ) * 10 ^ (length - 1) ≤ denominator := by
    exact_mod_cast (Nat.mul_le_mul_left numerator digits).trans (Nat.mul_div_le _ _)
  have exponent_eq : (2 : ℤ) - length = 1 + -((length - 1 : ℕ) : ℤ) := by omega
  have power : (0 : ℚ) < 10 ^ (length - 1) := by positivity
  have more : (0 : ℚ) < numerator * 10 ^ (length - 1) :=
    mul_pos (by exact_mod_cast positive) power
  rw [exponent_eq, zpow_add₀ (by norm_num), zpow_one, zpow_neg, zpow_natCast,
    ← mul_lt_mul_iff_left₀ power]
  field_simp
  linarith

/-- The points of the coarsest grid after zero lie beyond the basin. -/
theorem high_lt_coarsest (positive : 0 < basin.high) :
    (basin.high : ℚ) * 2 ^ basin.exponent < 10 ^ basin.coarsest := by
  have divisor_pos := twoTo_pos (-basin.exponent)
  have divisor : (0 : ℚ) < twoTo (-basin.exponent) := by exact_mod_cast divisor_pos
  have quotient : (basin.high : ℚ) * 2 ^ basin.exponent =
      (basin.high * twoTo basin.exponent : ℕ) / twoTo (-basin.exponent) := by
    rw [Nat.cast_mul, twoTo_eq basin.exponent, ← mul_assoc, mul_div_cancel_right₀ _ divisor.ne']
  rw [quotient, div_lt_iff₀ divisor]
  unfold coarsest
  dsimp only
  split
  · rename_i small
    have less := (Nat.div_eq_zero_iff_lt divisor_pos).mp small
    have unit : twoTo basin.exponent = 1 := by
      refine twoTo_of_nonpos (le_of_not_gt fun large => ?_)
      rw [twoTo_of_nonpos (show -basin.exponent ≤ 0 by omega)] at less
      exact absurd (Nat.mul_pos positive (twoTo_pos basin.exponent)) (by omega)
    rw [unit, mul_one] at less ⊢
    exact lt_pow_of_inverse positive less
  · rw [zpow_natCast]
    have digits := lt_pow_length_toDigits
      (basin.high * twoTo basin.exponent / twoTo (-basin.exponent))
    exact_mod_cast (Nat.div_lt_iff_lt_mul divisor_pos).mp digits

theorem misses_coarsest (low : 0 < basin.low) (high : 0 < basin.high) :
    basin.Misses basin.coarsest := by
  have power : (0 : ℚ) < 2 ^ basin.exponent := by positivity
  have bottom : (0 : ℚ) < basin.low * 2 ^ basin.exponent :=
    mul_pos (by exact_mod_cast low) power
  intro coefficient holds
  obtain ⟨least, greatest⟩ := holds.bounds
  have zero : coefficient = 0 := by
    refine Nat.eq_zero_of_not_pos fun positive => ?_
    have one_le : (1 : ℚ) ≤ coefficient := by exact_mod_cast positive
    have step : (0 : ℚ) < 10 ^ basin.coarsest := by positivity
    have beyond := high_lt_coarsest high
    nlinarith
  rw [zero, Nat.cast_zero, zero_mul] at least
  exact absurd least (not_le.mpr bottom)

/-! ### The search -/

theorem shortestWithin_misses {tie : Tie} (low : basin.low < basin.middle)
    (high : basin.middle < basin.high) {steps : ℕ}
    (start : basin.Misses (basin.finest + steps + 1)) :
    basin.Misses ((basin.shortestWithin tie steps).exponent + 1) := by
  induction steps with
  | zero =>
    rw [Nat.cast_zero, add_zero] at start
    exact start
  | succ steps inductionHypothesis =>
    unfold shortestWithin
    dsimp only
    split
    · exact start
    · rename_i none
      refine inductionHypothesis ?_
      have missed := misses_of_pick?_eq_none low high none
      rwa [Nat.cast_add, Nat.cast_one, ← add_assoc] at missed

end Basin

/-- No grid coarser than that of the shortest decimal has a point in the basin. -/
theorem shortest_misses (tie : Tie) {rank : ℕ} (positive : 0 < rank) :
    (Basin.ofRank rank).Misses ((shortest tie rank).exponent + 1) := by
  obtain ⟨bottom, low, high⟩ := Basin.ofRank_spread positive
  refine Basin.shortestWithin_misses low high ?_
  refine (Basin.misses_coarsest bottom (by omega)).mono ?_
  omega

/-- The coefficient of the shortest decimal does not end with a zero. -/
theorem shortest_coefficient_mod_ten (tie : Tie) {rank : ℕ} (positive : 0 < rank) :
    (shortest tie rank).coefficient % 10 ≠ 0 := by
  intro zero
  refine shortest_misses tie positive ((shortest tie rank).coefficient / 10) ?_
  have whole : (shortest tie rank).coefficient = (shortest tie rank).coefficient / 10 * 10 := by
    omega
  have holds := shortest_holds tie positive
  rw [whole, Nat.cast_mul, mul_assoc] at holds
  rw [zpow_add_one₀ (by norm_num), mul_comm ((10 : ℚ) ^ _)]
  exact_mod_cast holds

end DeskCalculator.Decimal
