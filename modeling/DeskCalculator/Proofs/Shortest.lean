/-
This file proves that the shortest decimal of a float reads back as the float.
The search for it only returns decimals in the basin of the float, at the latest
the float itself on the finest grid; and whatever lies in the basin of a rank is
rounded to this rank. Below a power of two the basin reaches into the next lower
binade, where the quotient is counted in half units and the carry brings the
rank up again.
-/

import DeskCalculator.Decimal.Shortest
import DeskCalculator.Proofs.Rounding

namespace DeskCalculator.Decimal

/-! ### Numbers in a basin -/

namespace Basin

/-- The number lies in the basin. -/
def Holds (basin : Basin) (number : ℚ) : Prop :=
  if basin.closed then
    basin.low * 2 ^ basin.exponent ≤ number ∧ number ≤ basin.high * 2 ^ basin.exponent
  else basin.low * 2 ^ basin.exponent < number ∧ number < basin.high * 2 ^ basin.exponent

theorem Holds.of_lt {basin : Basin} {number : ℚ} (low : basin.low * 2 ^ basin.exponent < number)
    (high : number < basin.high * 2 ^ basin.exponent) : basin.Holds number := by
  unfold Holds
  split
  · exact ⟨low.le, high.le⟩
  · exact ⟨low, high⟩

/-- Units of the basin and points of the grid are compared in a common unit. -/
theorem exists_unit (basin : Basin) (grid : ℤ) : ∃ unit : ℚ, 0 < unit ∧
    (basin.scale grid : ℚ) = 2 ^ basin.exponent * unit ∧
    (basin.step grid : ℚ) = 10 ^ grid * unit := by
  refine ⟨twoTo (-basin.exponent) * tenTo (-grid), ?_, ?_, ?_⟩
  · exact mul_pos (by exact_mod_cast twoTo_pos _) (by exact_mod_cast tenTo_pos _)
  · rw [scale, Nat.cast_mul, twoTo_eq basin.exponent, mul_assoc]
  · rw [step, Nat.cast_mul, tenTo_eq grid, mul_left_comm]

theorem unit_le_iff (basin : Basin) (grid : ℤ) (units coefficient : ℕ) :
    units * basin.scale grid ≤ coefficient * basin.step grid ↔
      (units : ℚ) * 2 ^ basin.exponent ≤ coefficient * 10 ^ grid := by
  obtain ⟨unit, positive, scale_eq, step_eq⟩ := basin.exists_unit grid
  rw [← @Nat.cast_le ℚ, Nat.cast_mul, Nat.cast_mul, scale_eq, step_eq, ← mul_assoc,
    ← mul_assoc, mul_le_mul_iff_left₀ positive]

theorem le_unit_iff (basin : Basin) (grid : ℤ) (units coefficient : ℕ) :
    coefficient * basin.step grid ≤ units * basin.scale grid ↔
      (coefficient : ℚ) * 10 ^ grid ≤ units * 2 ^ basin.exponent := by
  obtain ⟨unit, positive, scale_eq, step_eq⟩ := basin.exists_unit grid
  rw [← @Nat.cast_le ℚ, Nat.cast_mul, Nat.cast_mul, scale_eq, step_eq, ← mul_assoc,
    ← mul_assoc, mul_le_mul_iff_left₀ positive]

theorem contains_iff (basin : Basin) (grid : ℤ) (coefficient : ℕ) :
    basin.contains grid coefficient = true ↔ basin.Holds (coefficient * 10 ^ grid) := by
  unfold contains Holds
  dsimp only
  split
  · rw [Bool.and_eq_true, decide_eq_true_iff, decide_eq_true_iff, unit_le_iff, le_unit_iff]
  · rw [Bool.and_eq_true, decide_eq_true_iff, decide_eq_true_iff, ← not_le, ← not_le, ← not_le,
      ← not_le, unit_le_iff, le_unit_iff]

theorem pick?_holds {tie : Tie} {basin : Basin} {grid : ℤ} {coefficient : ℕ}
    (picked : basin.pick? tie grid = some coefficient) :
    basin.Holds (coefficient * 10 ^ grid) := by
  rw [← contains_iff]
  unfold pick? at picked
  dsimp only at picked
  split at picked
  · rename_i lower upper
    cases picked
    split
    · exact upper
    · exact lower
  · rename_i lower _
    cases picked
    exact lower
  · rename_i _ upper
    cases picked
    exact upper
  · cases picked

theorem step_finest_dvd (basin : Basin) :
    basin.step basin.finest ∣ basin.scale basin.finest := by
  unfold step scale finest
  rcases le_total basin.exponent 0 with negative | positive
  · obtain ⟨size, same⟩ := Int.exists_eq_neg_ofNat negative
    rw [min_eq_left negative, same]
    simp only [twoTo, tenTo, neg_neg, Int.toNat_natCast, Int.toNat_neg_natCast]
    simpa using pow_dvd_pow_of_dvd (show 2 ∣ 10 by decide) size
  · rw [min_eq_right positive]
    simp [twoTo, tenTo, positive]

/-- The finest grid holds the float itself. -/
theorem below_finest (basin : Basin) :
    (basin.below basin.finest : ℚ) * 10 ^ basin.finest = basin.middle * 2 ^ basin.exponent := by
  obtain ⟨unit, positive, scale_eq, step_eq⟩ := basin.exists_unit basin.finest
  have exact : basin.below basin.finest * basin.step basin.finest =
      basin.middle * basin.scale basin.finest :=
    Nat.div_mul_cancel (Dvd.dvd.mul_left basin.step_finest_dvd basin.middle)
  have cast := congrArg (Nat.cast : ℕ → ℚ) exact
  rw [Nat.cast_mul, Nat.cast_mul, scale_eq, step_eq, ← mul_assoc, ← mul_assoc] at cast
  exact mul_right_cancel₀ positive.ne' cast

theorem holds_middle {basin : Basin} (low : basin.low < basin.middle)
    (high : basin.middle < basin.high) : basin.Holds (basin.middle * 2 ^ basin.exponent) := by
  have power : (0 : ℚ) < 2 ^ basin.exponent := by positivity
  refine Holds.of_lt ?_ ?_
  · exact mul_lt_mul_of_pos_right (by exact_mod_cast low) power
  · exact mul_lt_mul_of_pos_right (by exact_mod_cast high) power

theorem shortestWithin_holds (tie : Tie) {basin : Basin} (low : basin.low < basin.middle)
    (high : basin.middle < basin.high) (steps : ℕ) :
    basin.Holds ((basin.shortestWithin tie steps).coefficient *
      10 ^ (basin.shortestWithin tie steps).exponent) := by
  induction steps with
  | zero =>
    rw [shortestWithin, below_finest]
    exact holds_middle low high
  | succ steps inductionHypothesis =>
    unfold shortestWithin
    dsimp only
    split
    · rename_i coefficient picked
      exact pick?_holds picked
    · exact inductionHypothesis

end Basin

/-! ### Basins of ranks -/

open Binary (Magnitude binade leastExponent infinityRank magnitude nearestRank nearestRank_eq)

/-- How the magnitude of a positive rank makes the rank up: every place above the least one counts
for as many ranks as a binade has, and only with the least exponent can the significand be small. -/
structure Makes (float : Magnitude) (rank : ℕ) : Prop where
  positive : 0 < float.significand
  small : float.significand < 2 * binade
  least : leastExponent ≤ float.exponent
  rank_eq : (float.exponent - leastExponent).toNat * binade + float.significand = rank
  normal : leastExponent < float.exponent → binade ≤ float.significand

theorem magnitude_makes {rank : ℕ} (positive : 0 < rank) : Makes (magnitude rank) rank := by
  unfold magnitude
  split
  · rename_i subnormal
    exact {
      positive := positive
      small := Nat.lt_of_lt_of_le subnormal (Nat.le_mul_of_pos_left _ (by decide))
      least := Int.le_refl _
      rank_eq := by simp
      normal := fun above => absurd above (Int.lt_irrefl _) }
  · rename_i normal
    have quotient := Nat.div_add_mod rank binade
    have remainder := Nat.mod_lt rank (show 0 < binade by decide)
    have places : 0 < rank / binade := Nat.div_pos (Nat.le_of_not_lt normal) (by decide)
    have places_eq : (leastExponent + (rank / binade - 1 : ℕ) - leastExponent).toNat =
        rank / binade - 1 := by omega
    have whole : binade ≤ binade * (rank / binade) := Nat.le_mul_of_pos_right _ places
    exact {
      positive := Nat.lt_of_lt_of_le (show 0 < binade by decide) (Nat.le_add_right _ _)
      small := show binade + rank % binade < 2 * binade by omega
      least := Int.le_add_of_nonneg_right (Int.natCast_nonneg _)
      rank_eq := by
        dsimp only
        rw [places_eq, Nat.sub_mul, one_mul, Nat.mul_comm]
        omega
      normal := fun _ => Nat.le_add_right _ _ }

/-- The first two binades have the least exponent, and every further one has the next exponent. -/
theorem Makes.exponent_le_iff {float : Magnitude} {rank : ℕ} (makes : Makes float rank)
    (places : ℕ) :
    float.exponent ≤ leastExponent + places ↔ rank < (places + 2) * binade := by
  obtain ⟨_, small, least, rfl, normal⟩ := makes
  generalize places_eq : (float.exponent - leastExponent).toNat = above
  rw [Nat.add_mul]
  constructor
  · intro below
    have few := Nat.mul_le_mul_right binade (show above ≤ places by omega)
    omega
  · intro below
    by_contra large
    have many := Nat.mul_le_mul_right binade (show places + 1 ≤ above by omega)
    have big := normal (by omega)
    rw [Nat.add_mul] at many
    omega

/-- Whether the gap below a rank is half as wide as the gap above it. -/
theorem atPowerOfTwo_iff {float : Magnitude} {rank : ℕ} (makes : Makes float rank) :
    (2 * binade ≤ rank && rank % binade == 0) = true ↔
      float.significand = binade ∧ leastExponent < float.exponent := by
  obtain ⟨positive, small, least, rfl, normal⟩ := makes
  rw [Bool.and_eq_true, decide_eq_true_iff, beq_iff_eq, Nat.mul_add_mod']
  generalize places_eq : (float.exponent - leastExponent).toNat = places
  constructor
  · rintro ⟨large, whole⟩
    have above : leastExponent < float.exponent := by
      refine lt_of_le_of_ne least fun same => ?_
      have none : places = 0 := by omega
      subst none
      omega
    have big := normal above
    rw [Nat.mod_eq_sub_mod big, Nat.mod_eq_of_lt (by omega)] at whole
    exact ⟨by omega, above⟩
  · rintro ⟨same, above⟩
    rw [same, Nat.mod_self]
    have one_place : 1 * binade ≤ places * binade := Nat.mul_le_mul_right _ (by omega)
    exact ⟨by omega, rfl⟩

/-- The basin of a positive rank is around its magnitude and above zero. -/
theorem Basin.ofRank_spread {rank : ℕ} (positive : 0 < rank) :
    0 < (Basin.ofRank rank).low ∧ (Basin.ofRank rank).low < (Basin.ofRank rank).middle ∧
      (Basin.ofRank rank).middle < (Basin.ofRank rank).high := by
  have significand := (magnitude_makes positive).positive
  unfold Basin.ofRank
  dsimp only
  split <;> omega

theorem shortest_holds (tie : Tie) {rank : ℕ} (positive : 0 < rank) :
    (Basin.ofRank rank).Holds
      ((shortest tie rank).coefficient * 10 ^ (shortest tie rank).exponent) := by
  obtain ⟨_, low, high⟩ := Basin.ofRank_spread positive
  exact Basin.shortestWithin_holds tie low high _

/-- What lies in the basin of a rank is at most half a unit away from its magnitude, at most a
quarter of one below a power of two, and less than half a unit where the significand is odd. -/
theorem Basin.Holds.distance {rank : ℕ} (positive : 0 < rank) {number : ℚ}
    (holds : (Basin.ofRank rank).Holds number) {significand : ℕ} {exponent : ℤ}
    (float : magnitude rank = ⟨significand, exponent⟩) :
    (2 * significand - 1 : ℚ) * 2 ^ exponent ≤ 2 * number ∧
    2 * number ≤ (2 * significand + 1) * 2 ^ exponent ∧
    (significand = binade → leastExponent < exponent →
      (4 * significand - 1 : ℚ) * 2 ^ exponent ≤ 4 * number) ∧
    (significand % 2 = 1 → (2 * significand - 1 : ℚ) * 2 ^ exponent < 2 * number ∧
      2 * number < (2 * significand + 1) * 2 ^ exponent) := by
  have makes := magnitude_makes positive
  have atPower := atPowerOfTwo_iff makes
  have significand_pos := makes.positive
  rw [float] at atPower significand_pos
  have quarter : (2 : ℚ) ^ (exponent - 2) = 2 ^ exponent / 4 := by
    rw [zpow_sub₀ (by norm_num)]
    norm_num
  have power : (0 : ℚ) < 2 ^ exponent := by positivity
  unfold Basin.ofRank Basin.Holds at holds
  rw [float] at holds
  dsimp only at holds atPower significand_pos
  rw [quarter, Nat.cast_sub (by split <;> omega)] at holds
  push_cast at holds
  by_cases gap : significand = binade ∧ leastExponent < exponent
  · rw [if_pos (atPower.mpr gap), if_pos (by rw [gap.1]; rfl)] at holds
    refine ⟨by linarith, by linarith, fun _ _ => by linarith, fun odd => ?_⟩
    rw [gap.1] at odd
    exact absurd odd (by decide)
  · rw [if_neg (mt atPower.mp gap)] at holds
    refine ⟨?_, ?_, fun same above => absurd ⟨same, above⟩ gap, fun odd => ?_⟩
    · split at holds <;> linarith
    · split at holds <;> linarith
    · rw [if_neg (by simp [odd])] at holds
      exact ⟨by linarith, by linarith⟩

/-- The numbers in the basin of a finite positive rank are neither negligible nor too large. -/
theorem Basin.Holds.range {rank : ℕ} (positive : 0 < rank) (finite : rank < infinityRank)
    {number : ℚ} (holds : (Basin.ofRank rank).Holds number) :
    (2 : ℚ) ^ (-1075 : ℤ) ≤ number ∧ number < 2 ^ (1024 : ℤ) := by
  have makes := magnitude_makes positive
  cases float : magnitude rank with | mk significand exponent =>
  obtain ⟨low, high, _⟩ := holds.distance positive float
  rw [float] at makes
  have exponent_le : exponent ≤ 971 := (makes.exponent_le_iff 2045).mpr finite
  obtain ⟨significand_pos, small, least, _⟩ := makes
  dsimp only at *
  have power : (0 : ℚ) < 2 ^ exponent := by positivity
  have one_le : (1 : ℚ) ≤ significand := by exact_mod_cast significand_pos
  have smallCast : (significand : ℚ) + 1 ≤ 2 * binade := by exact_mod_cast small
  have wide : (0 : ℚ) ≤ 4 * binade := by positivity
  have lowPower : (2 : ℚ) ^ (-1074 : ℤ) ≤ 2 ^ exponent :=
    zpow_le_zpow_right₀ (by norm_num) least
  have highPower : (2 : ℚ) ^ exponent ≤ 2 ^ (971 : ℤ) :=
    zpow_le_zpow_right₀ (by norm_num) exponent_le
  constructor
  · have halved : (2 : ℚ) ^ (-1075 : ℤ) * 2 = 2 ^ (-1074 : ℤ) := by
      rw [← zpow_add_one₀ (by norm_num)]
      rfl
    have single : (1 : ℚ) * 2 ^ exponent ≤ (2 * significand - 1) * 2 ^ exponent :=
      mul_le_mul_of_nonneg_right (by linarith) power.le
    linarith
  · have doubled : (2 : ℚ) ^ (1024 : ℤ) = 2 * binade * 2 ^ (971 : ℤ) := by
      rw [show (1024 : ℤ) = 53 + 971 by norm_num, zpow_add₀ (by norm_num)]
      norm_num [binade]
    rw [doubled]
    -- The greatest power stays a variable, so that no step below computes it.
    generalize (2 : ℚ) ^ (971 : ℤ) = top at highPower ⊢
    have bounded : (2 * significand + 1 : ℚ) * 2 ^ exponent < 4 * binade * 2 ^ exponent :=
      mul_lt_mul_of_pos_right (by linarith) power
    have topped : (4 * binade : ℚ) * 2 ^ exponent ≤ 4 * binade * top :=
      mul_le_mul_of_nonneg_left highPower wide
    linarith

/-- Where the rank is below the end of a binade, its basin lies below twice that end. -/
theorem Basin.Holds.lt_pow {rank : ℕ} (positive : 0 < rank) (places : ℕ)
    (below : rank < (places + 2) * binade) {number : ℚ}
    (holds : (Basin.ofRank rank).Holds number) :
    number < 2 ^ (leastExponent + places + 54) := by
  have makes := magnitude_makes positive
  cases float : magnitude rank with | mk significand exponent =>
  obtain ⟨_, high, _⟩ := holds.distance positive float
  rw [float] at makes
  have power : (2 : ℚ) ^ exponent ≤ 2 ^ (leastExponent + places) :=
    zpow_le_zpow_right₀ (by norm_num) ((makes.exponent_le_iff places).mpr below)
  have units : (2 * significand + 1 : ℚ) ≤ 2 ^ (54 : ℤ) := by
    have small : 2 * significand + 1 ≤ 4 * binade := by
      have bound : significand < 2 * binade := makes.small
      omega
    exact_mod_cast small
  have product := mul_le_mul units power (by positivity) (by positivity)
  rw [zpow_add₀ (by norm_num)]
  linarith [show (0 : ℚ) < 2 ^ (leastExponent + places) * 2 ^ (54 : ℤ) by positivity]

/-- Where the rank is at least the start of a binade, its basin starts at half that start or
later. -/
theorem Basin.Holds.pow_le {rank : ℕ} (places : ℕ) (above : (places + 2) * binade ≤ rank)
    {number : ℚ} (holds : (Basin.ofRank rank).Holds number) :
    2 ^ (leastExponent + places + 52) ≤ number := by
  have positive : 0 < rank := Nat.lt_of_lt_of_le (Nat.mul_pos (by omega) (by decide)) above
  have makes := magnitude_makes positive
  cases float : magnitude rank with | mk significand exponent =>
  obtain ⟨low, _⟩ := holds.distance positive float
  rw [float] at makes
  have less : leastExponent + places < exponent :=
    lt_of_not_ge (mt (makes.exponent_le_iff places).mp (Nat.not_lt_of_le above))
  have power : (2 : ℚ) ^ (leastExponent + places + 1) ≤ 2 ^ exponent :=
    zpow_le_zpow_right₀ (by norm_num) less
  have big : binade ≤ significand := makes.normal (show leastExponent < exponent by omega)
  have units : (2 : ℚ) ^ (52 : ℤ) ≤ 2 * significand - 1 := by
    have natural : binade + 1 ≤ 2 * significand := by
      unfold binade at *
      omega
    have cast : (binade : ℚ) + 1 ≤ 2 * significand := by exact_mod_cast natural
    rw [show (2 : ℚ) ^ (52 : ℤ) = binade by norm_num [binade]]
    linarith
  have nonnegative : (0 : ℚ) ≤ 2 * significand - 1 := le_trans (by positivity) units
  have product := mul_le_mul units power (by positivity) nonnegative
  rw [zpow_add_one₀ (by norm_num)] at product
  rw [zpow_add₀ (by norm_num)]
  linarith

/-- A quotient in the basin of a finite rank is rounded to this rank. -/
theorem nearestRank_of_holds {rank numerator denominator : ℕ} (positive : 0 < rank)
    (finite : rank < infinityRank) (numerator_pos : 0 < numerator)
    (denominator_pos : 0 < denominator)
    (holds : (Basin.ofRank rank).Holds (numerator / denominator)) :
    nearestRank numerator denominator = rank := by
  have makes := magnitude_makes positive
  cases float : magnitude rank with | mk significand exponent =>
  obtain ⟨low, high, gap, odd⟩ := holds.distance positive float
  rw [float] at makes
  obtain ⟨significand_pos, small, least, rank_eq, normal⟩ := makes
  dsimp only at *
  have power : (0 : ℚ) < 2 ^ exponent := by positivity
  have shifted : ∀ places : ℤ, (2 : ℚ) ^ (exponent + places) = 2 ^ exponent * 2 ^ places :=
    fun places => zpow_add₀ (by norm_num) exponent places
  have smallCast : (significand : ℚ) + 1 ≤ 2 * binade := by exact_mod_cast small
  have binade_eq : (binade : ℚ) = 2 ^ (52 : ℤ) := by norm_num [binade]
  by_cases within : exponent = leastExponent ∨ binade * 2 ^ exponent ≤ (numerator / denominator : ℚ)
  · -- The quotient has its last place where the float has its own.
    rw [nearestRank_eq numerator_pos denominator_pos least ?_ ?_ low high odd, rank_eq]
    · exact Nat.min_eq_right finite.le
    · rw [shifted, mul_comm, ← binade_eq]
      exact within
    · rw [shifted, show (2 : ℚ) ^ (53 : ℤ) = 2 * binade by norm_num [binade]]
      nlinarith
  · -- Just below a power of two the quotient is counted in half units.
    rw [not_or, not_le] at within
    obtain ⟨notLeast, below⟩ := within
    have above : leastExponent < exponent := lt_of_le_of_ne least (Ne.symm notLeast)
    have significand_eq : significand = binade := by
      refine le_antisymm ?_ (normal above)
      have narrow : (2 * significand - 1 : ℚ) < 2 * binade := by
        refine lt_of_mul_lt_mul_right ?_ power.le
        linarith
      have natural : 2 * significand < 2 * binade + 1 := by
        have shifted : (2 * significand : ℚ) < 2 * binade + 1 := by linarith
        exact_mod_cast shifted
      omega
    have close := gap significand_eq above
    rw [significand_eq] at close rank_eq
    have half : (2 : ℚ) ^ (exponent - 1) = 2 ^ exponent / 2 := by
      rw [zpow_sub₀ (by norm_num), zpow_one]
    have units : ((2 * binade : ℕ) : ℚ) = 2 * binade := Nat.cast_mul _ _
    have lowHalf : (2 * (2 * binade : ℕ) - 1 : ℚ) * 2 ^ (exponent - 1) ≤
        2 * (numerator / denominator) := by
      rw [half, units]
      linarith
    have highHalf : 2 * (numerator / denominator : ℚ) ≤
        (2 * (2 * binade : ℕ) + 1) * 2 ^ (exponent - 1) := by
      rw [half, units]
      linarith
    rw [nearestRank_eq numerator_pos denominator_pos (Int.le_sub_one_of_lt above) (.inr ?_) ?_
      lowHalf highHalf (fun isOdd => absurd isOdd (by decide))]
    · have places : (exponent - leastExponent).toNat =
          (exponent - 1 - leastExponent).toNat + 1 := by omega
      have carried : (exponent - 1 - leastExponent).toNat * binade + 2 * binade = rank := by
        rw [← rank_eq, places]
        ring
      rw [carried]
      exact Nat.min_eq_right finite.le
    · rw [show exponent - 1 + 52 = exponent + 51 by ring, shifted]
      have doubled : (2 : ℚ) ^ (51 : ℤ) * 2 = binade := by norm_num [binade]
      nlinarith
    · rw [show exponent - 1 + 53 = exponent + 52 by ring, shifted, ← binade_eq]
      linarith

end DeskCalculator.Decimal
