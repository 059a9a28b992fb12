/-
This file proves that rounding halves upwards is exact: a finite float is rounded
to the integer at or below its number plus one half. What rounding down takes
away is itself rounded before it is compared with one half. A part below one half
is a number that some float stands for, since its digits are no more than those
of the float; a part from one half on may lose digits, but not so many that it is
rounded below one half. Where one is added, the digits of the sum fit again.
-/

import DeskCalculator.Binary.Integral
import DeskCalculator.Proofs.Sums
import Mathlib.Algebra.Order.Floor.Ring
import Mathlib.Data.Rat.Floor

namespace DeskCalculator.Binary

open Decimal (magnitude_makes)
open Float.Model (UnpackedFloat)

/-! ### Comparison with one half -/

theorem significand_lt (rank : ℕ) : (magnitude rank).significand < 2 * binade := by
  rcases Nat.eq_zero_or_pos rank with rfl | positive
  · decide
  · exact (magnitude_makes positive).small

theorem leastExponent_le (rank : ℕ) : leastExponent ≤ (magnitude rank).exponent := by
  rcases Nat.eq_zero_or_pos rank with rfl | positive
  · decide
  · exact (magnitude_makes positive).least

/-- Ranks order the magnitudes. -/
theorem strictMono_toRat : StrictMono fun rank => (magnitude rank).toRat := by
  intro lower upper less
  have upperMakes := magnitude_makes (Nat.zero_lt_of_lt less)
  show (magnitude lower).toRat < (magnitude upper).toRat
  unfold Magnitude.toRat
  rcases magnitude_lt less with exponent | ⟨exponent, significand⟩
  · have large : (binade : ℚ) ≤ (magnitude upper).significand := by
      exact_mod_cast upperMakes.normal (lt_of_le_of_lt (leastExponent_le lower) exponent)
    calc ((magnitude lower).significand * 2 ^ (magnitude lower).exponent : ℚ)
        < 2 * binade * 2 ^ (magnitude lower).exponent := by
          refine mul_lt_mul_of_pos_right ?_ (by positivity)
          exact_mod_cast significand_lt lower
      _ = binade * 2 ^ ((magnitude lower).exponent + 1) := by
          rw [zpow_add_one₀ (by norm_num)]
          ring
      _ ≤ binade * 2 ^ (magnitude upper).exponent := by
          refine mul_le_mul_of_nonneg_left ?_ (by positivity)
          exact zpow_le_zpow_right₀ (by norm_num) exponent
      _ ≤ (magnitude upper).significand * 2 ^ (magnitude upper).exponent :=
          mul_le_mul_of_nonneg_right large (by positivity)
  · rw [exponent]
    refine mul_lt_mul_of_pos_right ?_ (by positivity)
    exact_mod_cast significand

/-- The rank of one half. -/
def halfRank : ℕ :=
  1022 * binade

theorem ofRank_half : ofRank false halfRank = 0.5 := by
  rfl

theorem toRat_half : (magnitude halfRank).toRat = 1 / 2 := by
  have parts : magnitude halfRank = ⟨binade, -53⟩ := by decide +kernel
  rw [parts, Magnitude.toRat]
  norm_num [binade]

/-- A finite float is compared with one half as its number is. -/
theorem half_le_iff_of_isFinite {value : Float} (finite : value.isFinite = true) :
    0.5 ≤ value ↔ 1 / 2 ≤ toRat value := by
  rw [isFinite_iff] at finite
  rw [← ofRank_rank value, toRat_ofRank _ finite]
  generalize isNegative value = negative
  rcases Nat.eq_zero_or_pos (rank value) with zero | positive
  · rw [zero, toRat_zero]
    refine iff_of_false ?_ ?_
    · cases negative <;> decide
    · cases negative <;> norm_num [signed]
  · have halfPositive : 0 < halfRank := by decide
    have halfFinite : halfRank < infinityRank := by decide
    cases negative with
    | false =>
      rw [← ofRank_half, ofRank_le_iff halfPositive halfFinite positive finite, ← toRat_half]
      exact strictMono_toRat.le_iff_le.symm
    | true =>
      have above := toRat_pos positive
      refine iff_of_false ?_ (not_le_of_gt ?_)
      · have compared : (0.5 : Float) ≤ ofRank true (rank value) ↔
            (UnpackedFloat.compare (ofRank false halfRank).toModel.unpack
              (ofRank true (rank value)).toModel.unpack).any Ordering.isLE = true :=
          decide_eq_true_iff
        obtain ⟨_, halfUnpacked⟩ := unpack_ofRank halfPositive halfFinite
        obtain ⟨_, unpacked⟩ := unpack_ofRank positive finite
        rw [compared, halfUnpacked, unpacked]
        exact Bool.false_ne_true
      · show -(magnitude (rank value)).toRat < 1 / 2
        linarith

/-- From the place of its first digit on, a quotient has 53 digits. -/
theorem binade_le_units {numerator denominator : ℕ} (denominator_pos : 0 < denominator)
    {place : ℤ} (large : (2 : ℚ) ^ (place + 52) ≤ numerator / denominator) :
    binade ≤ roundHalfEven (numerator * twoTo (-place)) (denominator * twoTo place) := by
  have below : (0 : ℚ) < denominator := by exact_mod_cast denominator_pos
  have scaled : (binade * (denominator * twoTo place) : ℚ) ≤ numerator * twoTo (-place) :=
    calc (binade * (denominator * twoTo place) : ℚ)
        = 2 ^ (place + 52) * denominator * twoTo (-place) := by
          rw [twoTo_eq place, zpow_add₀ (by norm_num)]
          norm_num [binade]
          ring
      _ ≤ numerator * twoTo (-place) := by
          rw [le_div_iff₀ below] at large
          exact mul_le_mul_of_nonneg_right large (Nat.cast_nonneg _)
  exact le_roundHalfEven (Nat.mul_pos denominator_pos (twoTo_pos place)) (by exact_mod_cast scaled)

/-- A quotient of at least one half is not rounded below one half. -/
theorem halfRank_le_nearestRank {numerator denominator : ℕ} (denominator_pos : 0 < denominator)
    (above : (1 / 2 : ℚ) ≤ numerator / denominator) :
    halfRank ≤ nearestRank numerator denominator := by
  have below : (0 : ℚ) < denominator := by exact_mod_cast denominator_pos
  have numerator_pos : 0 < numerator := by
    have positive : (0 : ℚ) < numerator / denominator := lt_of_lt_of_le (by norm_num) above
    rw [div_pos_iff_of_pos_right below] at positive
    exact_mod_cast positive
  obtain ⟨low, high⟩ := leadingExponent_spec numerator_pos denominator_pos
  have lead : -1 < leadingExponent numerator denominator + 1 := by
    have half : (2 : ℚ) ^ (-1 : ℤ) = 1 / 2 := by norm_num
    rw [← half] at above
    exact (zpow_lt_zpow_iff_right₀ (by norm_num)).mp (lt_of_le_of_lt above high)
  generalize place_eq : lastPlace numerator denominator = place
  have lead_eq : leadingExponent numerator denominator = place + 52 := by
    unfold lastPlace leastExponent at place_eq
    omega
  have places : 1021 ≤ (place - leastExponent).toNat := by
    unfold leastExponent
    omega
  have units := binade_le_units denominator_pos (lead_eq ▸ low)
  have lower := Nat.mul_le_mul_right binade places
  unfold nearestRank
  rw [if_neg (Nat.ne_of_gt numerator_pos)]
  dsimp only
  rw [place_eq]
  refine le_min (by decide) ?_
  unfold halfRank
  omega

/-- A nearest float is compared with one half as the number is, when numbers below one half are
not changed by rounding. -/
theorem IsNearest.half_le_iff {value : Float} {number : ℚ} (near : IsNearest value number)
    (representable : number < 1 / 2 → Representable number) : 0.5 ≤ value ↔ 1 / 2 ≤ number := by
  by_cases above : 1 / 2 ≤ number
  · refine iff_of_true ?_ above
    obtain ⟨negative, numerator, denominator, positive, rfl, rfl⟩ := near
    cases negative with
    | true =>
      have quotient : (0 : ℚ) ≤ numerator / denominator := by positivity
      have opposite : (1 / 2 : ℚ) ≤ -(numerator / denominator) := above
      linarith
    | false =>
      have large := halfRank_le_nearestRank positive above
      have bounded := nearestRank_le numerator denominator
      show 0.5 ≤ ofRank false (nearestRank numerator denominator)
      generalize nearestRank numerator denominator = rank at large bounded ⊢
      rcases Nat.lt_or_eq_of_le bounded with finite | rfl
      · have halfPositive : 0 < halfRank := by decide
        have rankPositive := Nat.lt_of_lt_of_le halfPositive large
        rwa [← ofRank_half, ofRank_le_iff halfPositive (by decide) rankPositive finite]
      · decide
  · obtain ⟨finite, unchanged⟩ := near.toRat_eq (representable (not_le.mp above))
    rw [half_le_iff_of_isFinite finite, unchanged]

/-! ### Rounding down -/

/-- With a negative exponent a magnitude is counted in parts of an integer. -/
theorem toRat_eq_div {magnitude : Magnitude} (fraction : magnitude.exponent < 0) :
    magnitude.toRat = magnitude.significand / magnitude.parts := by
  have scaled := quotient_scaled magnitude.significand magnitude.exponent
  rwa [twoTo_of_nonpos fraction.le, Nat.mul_one, eq_comm] at scaled

/-- Without a negative exponent a magnitude is an integer. -/
theorem toRat_eq_natCast {magnitude : Magnitude} (whole : 0 ≤ magnitude.exponent) :
    magnitude.toRat = (magnitude.significand * twoTo magnitude.exponent : ℕ) := by
  have scaled := quotient_scaled magnitude.significand magnitude.exponent
  rwa [twoTo_of_nonpos (neg_nonpos.mpr whole), Nat.cast_one, div_one, eq_comm] at scaled

theorem ceil_div {numerator denominator : ℕ} (positive : 0 < denominator) :
    ⌈(numerator / denominator : ℚ)⌉ = ((numerator + denominator - 1) / denominator : ℕ) := by
  have below : (0 : ℚ) < denominator := by exact_mod_cast positive
  have split := Nat.div_add_mod (numerator + denominator - 1) denominator
  have remainder := Nat.mod_lt (numerator + denominator - 1) positive
  generalize (numerator + denominator - 1) / denominator = quotient at split ⊢
  have low : quotient * denominator < numerator + denominator := by
    rw [Nat.mul_comm]
    omega
  have high : numerator ≤ quotient * denominator := by
    rw [Nat.mul_comm]
    omega
  rw [Int.ceil_eq_iff, lt_div_iff₀ below, div_le_iff₀ below, Int.cast_natCast, sub_mul, one_mul,
    sub_lt_iff_lt_add]
  exact ⟨by exact_mod_cast low, by exact_mod_cast high⟩

section

variable {value : Float}

/-- A float without places below one stands for an integer, and rounding down does not change
it. -/
theorem floor_of_whole (whole : 0 ≤ (magnitude (rank value)).exponent) :
    floor value = value ∧ ∃ number : ℤ, toRat value = number := by
  constructor
  · unfold floor
    exact if_pos (by simp [whole])
  · rw [toRat, toRat_eq_natCast whole]
    cases isNegative value with
    | false => exact ⟨_, rfl⟩
    | true => exact ⟨-_, by rw [signed, if_pos rfl, Int.cast_neg, Int.cast_natCast]⟩

/-- With places below one, rounding down divides the significand by the parts of an integer. -/
theorem isNearest_floor (finite : rank value < infinityRank)
    (fraction : (magnitude (rank value)).exponent < 0) :
    IsNearest (floor value) ⌊toRat value⌋ := by
  have below : (0 : ℚ) < (magnitude (rank value)).parts := by
    exact_mod_cast twoTo_pos (-(magnitude (rank value)).exponent)
  unfold floor
  dsimp only
  rw [if_neg (by simp [finite, fraction]), toRat, toRat_eq_div fraction]
  generalize (magnitude (rank value)).significand = significand
  generalize (magnitude (rank value)).parts = parts at below ⊢
  cases isNegative value with
  | false =>
    refine ⟨false, significand / parts, 1, Nat.one_pos, ?_, rfl⟩
    show ((significand / parts : ℕ) / (1 : ℕ) : ℚ) = (⌊(significand / parts : ℚ)⌋ : ℤ)
    rw [Rat.floor_natCast_div_natCast, Nat.cast_one, div_one]
    norm_cast
  | true =>
    refine ⟨true, (significand + parts - 1) / parts, 1, Nat.one_pos, ?_, rfl⟩
    show -(((significand + parts - 1) / parts : ℕ) / (1 : ℕ) : ℚ) =
      (⌊-(significand / parts : ℚ)⌋ : ℤ)
    rw [Int.floor_neg, ceil_div, Nat.cast_one, div_one, Int.cast_neg, Int.cast_natCast]
    exact_mod_cast below

/-- With places below one, the integer below a float has at most 53 digits, and so has the next
one. -/
theorem floor_bounds (fraction : (magnitude (rank value)).exponent < 0) :
    -(binade : ℤ) ≤ ⌊toRat value⌋ ∧ ⌊toRat value⌋ < binade := by
  have two_parts : 2 ≤ (magnitude (rank value)).parts := by
    calc 2 = 2 ^ 1 := rfl
      _ ≤ 2 ^ (-(magnitude (rank value)).exponent).toNat :=
        Nat.pow_le_pow_right (by decide) (by omega)
  have below : (0 : ℚ) < (magnitude (rank value)).parts := by
    exact_mod_cast Nat.zero_lt_of_lt two_parts
  have small : |toRat value| < (binade : ℤ) := by
    rw [toRat, abs_signed, toRat_eq_div fraction, abs_of_nonneg (by positivity),
      div_lt_iff₀ below]
    have digits : (magnitude (rank value)).significand < binade * (magnitude (rank value)).parts :=
      calc (magnitude (rank value)).significand < 2 * binade := significand_lt _
        _ ≤ binade * (magnitude (rank value)).parts := by
          rw [Nat.mul_comm]
          exact Nat.mul_le_mul_left binade two_parts
    exact_mod_cast digits
  obtain ⟨low, high⟩ := abs_lt.mp small
  exact ⟨Int.le_floor.mpr (by push_cast at low ⊢; exact low.le), Int.floor_lt.mpr high⟩

/-- Rounding down a finite float is exact. -/
theorem toRat_floor (finite : value.isFinite = true) :
    (floor value).isFinite = true ∧ toRat (floor value) = ⌊toRat value⌋ := by
  rcases le_or_gt 0 (magnitude (rank value)).exponent with whole | fraction
  · obtain ⟨unchanged, number, toRat_eq⟩ := floor_of_whole whole
    rw [unchanged, toRat_eq, Int.floor_intCast]
    exact ⟨finite, rfl⟩
  · obtain ⟨low, high⟩ := floor_bounds fraction
    refine (isNearest_floor ((isFinite_iff value).mp finite) fraction).toRat_eq
      (representable_int ?_)
    unfold binade at *
    omega

/-- No more parts than the float has are a number of the format. -/
theorem representable_parts (fraction : (magnitude (rank value)).exponent < 0) {units : ℕ}
    (few : units ≤ (magnitude (rank value)).significand) :
    Representable (units / (magnitude (rank value)).parts) := by
  have scaled : (units * 2 ^ (magnitude (rank value)).exponent : ℚ) =
      units / (magnitude (rank value)).parts := @toRat_eq_div ⟨units, _⟩ fraction
  have small := Nat.lt_of_le_of_lt few (significand_lt (rank value))
  rw [← scaled]
  exact representable_scaled (abs_of_nonneg (by positivity)) small (leastExponent_le _) (by omega)

/-- What rounding down takes away is a number of the format, when it is less than one half: its
digits are no more than those of the float. -/
theorem representable_fract (small : Int.fract (toRat value) < 1 / 2) :
    Representable (Int.fract (toRat value)) := by
  rcases le_or_gt 0 (magnitude (rank value)).exponent with whole | fraction
  · obtain ⟨_, number, toRat_eq⟩ := floor_of_whole whole
    rw [toRat_eq, Int.fract_intCast]
    exact representable_zero
  · have representable := fun units => @representable_parts value fraction units
    have positive : 0 < (magnitude (rank value)).parts := twoTo_pos _
    rw [toRat, toRat_eq_div fraction] at small ⊢
    generalize (magnitude (rank value)).significand = significand at small representable ⊢
    generalize (magnitude (rank value)).parts = parts at positive small representable ⊢
    have below : (0 : ℚ) < parts := by exact_mod_cast positive
    have rest : Int.fract (significand / parts : ℚ) = (significand % parts : ℕ) / parts :=
      Int.fract_div_natCast_eq_div_natCast_mod
    generalize isNegative value = negative at small ⊢
    cases negative with
    | false =>
      show Representable (Int.fract (significand / parts : ℚ))
      rw [rest]
      exact representable _ (Nat.mod_le _ _)
    | true =>
      change Int.fract (-(significand / parts : ℚ)) < 1 / 2 at small
      show Representable (Int.fract (-(significand / parts : ℚ)))
      by_cases none : Int.fract (significand / parts : ℚ) = 0
      · rw [Int.fract_neg_eq_zero.mpr none]
        exact representable_zero
      · -- The part that is left up to the next integer is less than the part that is there.
        have inside := Nat.mod_lt significand positive
        have most := Nat.mod_le significand parts
        rw [Int.fract_neg none, rest] at small ⊢
        generalize significand % parts = remainder at small inside most ⊢
        have left : (1 - remainder / parts : ℚ) = (parts - remainder : ℕ) / parts := by
          rw [Nat.cast_sub inside.le, sub_div, div_self below.ne']
        rw [left] at small ⊢
        rw [div_lt_iff₀ below, one_div_mul_eq_div, lt_div_iff₀ two_pos] at small
        have less : (parts - remainder) * 2 < parts := by exact_mod_cast small
        exact representable _ (by omega)

/-! ### Rounding to the nearest integer -/

theorem toRat_one : toRat 1.0 = 1 := by
  have parts : magnitude (rank 1.0) = ⟨binade, -52⟩ := by decide +kernel
  have unsigned : isNegative 1.0 = false := by decide +kernel
  rw [toRat, unsigned, parts, signed, if_neg Bool.false_ne_true, Magnitude.toRat]
  norm_num [binade]

/-- What is no finite float has no part that rounding down takes away. -/
theorem roundHalfUp_of_not_isFinite (infinite : value.isFinite = false) :
    roundHalfUp value = value := by
  have beyond : infinityRank ≤ rank value := by
    rw [← Nat.not_lt, ← isFinite_iff, infinite]
    exact Bool.false_ne_true
  have unchanged : floor value = value := by
    unfold floor
    exact if_pos (by simp [beyond])
  have unpacked : value.toModel.unpack.isFinite = false := infinite
  have subtracted : UnpackedFloat.sub .binary64 value.toModel.unpack value.toModel.unpack =
      .notANumber := by
    generalize value.toModel.unpack = parts at unpacked ⊢
    cases parts with
    | notANumber => rfl
    | infinity sign => cases sign <;> rfl
    | zero sign => cases unpacked
    | finite sign mantissa exponent nonzero => cases unpacked
  have difference : value - value = .ofModel (.pack .notANumber) :=
    congrArg (fun parts => Float.ofModel (.pack parts)) subtracted
  unfold roundHalfUp
  dsimp only
  rw [unchanged, difference]
  exact if_neg (by decide)

theorem floor_add_half (number : ℚ) :
    ⌊number + 1 / 2⌋ = if 1 / 2 ≤ Int.fract number then ⌊number⌋ + 1 else ⌊number⌋ := by
  have split := Int.floor_add_fract number
  have nonnegative := Int.fract_nonneg number
  have below := Int.fract_lt_one number
  rw [Int.floor_eq_iff]
  split_ifs with above
  · push_cast
    constructor <;> linarith
  · constructor <;> linarith

theorem roundHalfUp_of_isFinite (finite : value.isFinite = true) :
    (roundHalfUp value).isFinite = true ∧
      toRat (roundHalfUp value) = ⌊toRat value + 1 / 2⌋ := by
  obtain ⟨floorFinite, floorExact⟩ := toRat_floor finite
  have difference := isNearest_sub finite floorFinite
  rw [floorExact, Int.self_sub_floor] at difference
  have compared := difference.half_le_iff representable_fract
  rw [floor_add_half]
  unfold roundHalfUp
  dsimp only
  by_cases above : 1 / 2 ≤ Int.fract (toRat value)
  · rw [if_pos (compared.mpr above), if_pos above]
    have oneFinite : (1.0 : Float).isFinite = true := by decide +kernel
    have sum := isNearest_add floorFinite oneFinite
    rw [floorExact, toRat_one, ← Int.cast_one, ← Int.cast_add] at sum
    have fraction : (magnitude (rank value)).exponent < 0 := by
      refine lt_of_not_ge fun whole => ?_
      obtain ⟨_, number, toRat_eq⟩ := floor_of_whole whole
      rw [toRat_eq, Int.fract_intCast] at above
      norm_num at above
    obtain ⟨low, high⟩ := floor_bounds fraction
    refine sum.toRat_eq (representable_int ?_)
    unfold binade at *
    omega
  · rw [if_neg (mt compared.mp above), if_neg above]
    exact ⟨floorFinite, floorExact⟩

end

/-- A finite float is rounded to the integer at or below its number plus one half, and infinities
and what is no number are left as they are. -/
theorem roundHalfUp_exact (value : Float) :
    (value.isFinite = true →
      (roundHalfUp value).isFinite = true ∧
        toRat (roundHalfUp value) = ⌊toRat value + 1 / 2⌋) ∧
    (value.isFinite = false → roundHalfUp value = value) :=
  ⟨roundHalfUp_of_isFinite, roundHalfUp_of_not_isFinite⟩

/-- Just below one half a sum with one half would be rounded up to one. -/
theorem roundHalfUp_exact_belowHalf :
    (0.49999999999999994 : Float).isFinite = true ∧
    ((roundHalfUp 0.49999999999999994).isFinite = true ∧
      toRat (roundHalfUp 0.49999999999999994) = ⌊toRat 0.49999999999999994 + 1 / 2⌋) ∧
    (ofRank true infinityRank).isFinite = false ∧
    roundHalfUp (ofRank true infinityRank) = ofRank true infinityRank := by
  have finite : (0.49999999999999994 : Float).isFinite = true := by decide +kernel
  have infinite : (ofRank true infinityRank).isFinite = false := by decide +kernel
  exact ⟨finite, (roundHalfUp_exact 0.49999999999999994).1 finite, infinite,
    (roundHalfUp_exact (ofRank true infinityRank)).2 infinite⟩

end DeskCalculator.Binary
