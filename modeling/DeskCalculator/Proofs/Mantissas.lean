/-
This file proves that a scaled mantissa is rounded to the float nearest to it.
The mantissa is shifted out to its last place; two residual bits tell how what
is shifted out compares with half a unit, which decides the rounding as a
division with remainder does. A carry out of the 53 digits moves the place up by
one, and what is packed then is the float of the rank either way.
-/

import DeskCalculator.Proofs.Bits
import DeskCalculator.Proofs.Shortest

namespace DeskCalculator.Binary

open Decimal (Makes magnitude_makes)
open Float.Model (Format UnpackedFloat totalExponent)
open Float.Model.UnpackedFloat

/-! ### Shifts -/

/-- The mantissa is the quotient of a number by a divisor, and the two residual bits tell how the
remainder compares with half the divisor. -/
structure Splits (number divisor : ℕ) (parts : ExtendedMantissa) : Prop where
  mantissa_eq : parts.mantissa = number / divisor
  roundBit_iff : parts.roundBit = true ↔ divisor ≤ 2 * (number % divisor)
  stickyBit_iff : parts.stickyBit = true ↔
    number % divisor ≠ 0 ∧ 2 * (number % divisor) ≠ divisor

section

variable {number divisor : ℕ} {parts : ExtendedMantissa}

theorem Splits.shiftRightOne (positive : 0 < divisor) (splits : Splits number divisor parts) :
    Splits number (divisor * 2) parts.shiftRightOne := by
  obtain ⟨mantissa_eq, roundBit_iff, stickyBit_iff⟩ := splits
  have remainder := Nat.mod_lt number positive
  have shiftedOut : number % (divisor * 2) =
      number % divisor + divisor * (number / divisor % 2) := Nat.mod_mul
  constructor
  · rw [← Nat.div_div_eq_div_mul, ← mantissa_eq]
    rfl
  · show (parts.mantissa % 2 != 0) = true ↔ _
    rw [mantissa_eq, bne_iff_ne, shiftedOut]
    rcases Nat.mod_two_eq_zero_or_one (number / divisor) with even | odd
    · rw [even]
      omega
    · rw [odd]
      omega
  · show (parts.roundBit || parts.stickyBit) = true ↔ _
    rw [Bool.or_eq_true, roundBit_iff, stickyBit_iff, shiftedOut]
    rcases Nat.mod_two_eq_zero_or_one (number / divisor) with even | odd
    · rw [even]
      omega
    · rw [odd]
      omega

theorem splits_shiftRight (number shift : ℕ) :
    Splits number (2 ^ shift)
      (ExtendedMantissa.ofMantissaAndAccuracy number .exact >>> shift) := by
  induction shift with
  | zero =>
    have unshifted : Splits number 1 (ExtendedMantissa.ofMantissaAndAccuracy number .exact) :=
      ⟨(Nat.div_one number).symm, by simp [ExtendedMantissa.ofMantissaAndAccuracy, Nat.mod_one],
        by simp [ExtendedMantissa.ofMantissaAndAccuracy, Nat.mod_one]⟩
    exact unshifted
  | succ shift inductionHypothesis =>
    exact inductionHypothesis.shiftRightOne (Nat.two_pow_pos shift)

/-- The residual bits round as the division does. -/
theorem Splits.roundedMantissa_eq (positive : 0 < divisor)
    (splits : Splits number divisor parts) :
    parts.roundedMantissa = roundHalfEven number divisor := by
  obtain ⟨mantissa, roundBit, stickyBit⟩ := parts
  obtain ⟨mantissa_eq, roundBit_iff, stickyBit_iff⟩ := splits
  dsimp only at mantissa_eq roundBit_iff stickyBit_iff
  rw [roundHalfEven_eq_ite, ← mantissa_eq]
  generalize number % divisor = rest at roundBit_iff stickyBit_iff ⊢
  cases roundBit with
  | false =>
    have rounded : ExtendedMantissa.roundedMantissa ⟨mantissa, false, stickyBit⟩ = mantissa := by
      cases stickyBit <;> rfl
    have below : 2 * rest < divisor := Nat.lt_of_not_le fun above => nomatch roundBit_iff.mpr above
    rw [rounded, if_neg]
    omega
  | true =>
    have above : divisor ≤ 2 * rest := roundBit_iff.mp rfl
    cases stickyBit with
    | false =>
      have notOff : ¬(rest ≠ 0 ∧ 2 * rest ≠ divisor) := fun off => nomatch stickyBit_iff.mpr off
      have tie : 2 * rest = divisor := by omega
      have rounded : ExtendedMantissa.roundedMantissa ⟨mantissa, true, false⟩ =
          mantissa + mantissa % 2 := rfl
      rw [rounded]
      rcases Nat.mod_two_eq_zero_or_one mantissa with even | odd
      · rw [even, if_neg (by omega), Nat.add_zero]
      · rw [odd, if_pos (.inr ⟨tie, rfl⟩)]
    | true =>
      have off := (stickyBit_iff.mp rfl).2
      rw [if_pos (.inl (by omega))]
      rfl

end

/-! ### Quotients of one value -/

section

variable {numerator denominator : ℕ}

theorem roundHalfEven_mul_right (numerator denominator : ℕ) {factor : ℕ} (positive : 0 < factor) :
    roundHalfEven (numerator * factor) (denominator * factor) =
      roundHalfEven numerator denominator := by
  rw [roundHalfEven_eq_ite, roundHalfEven_eq_ite, Nat.mul_div_mul_right _ _ positive,
    Nat.mul_mod_mul_right, ← Nat.mul_assoc]
  simp only [Nat.mul_lt_mul_right positive, Nat.mul_left_inj (Nat.ne_of_gt positive)]

/-- Equal quotients are rounded alike. -/
theorem roundHalfEven_congr {otherNumerator otherDenominator : ℕ} (positive : 0 < denominator)
    (otherPositive : 0 < otherDenominator)
    (same : numerator * otherDenominator = otherNumerator * denominator) :
    roundHalfEven numerator denominator = roundHalfEven otherNumerator otherDenominator := by
  rw [← roundHalfEven_mul_right numerator denominator otherPositive, same,
    Nat.mul_comm denominator, roundHalfEven_mul_right _ _ positive]

theorem roundHalfEven_le {bound : ℕ} (below : numerator < bound * denominator) :
    roundHalfEven numerator denominator ≤ bound := by
  have quotient : numerator / denominator < bound := Nat.div_lt_of_lt_mul (by rwa [Nat.mul_comm])
  rw [roundHalfEven_eq_ite]
  split <;> omega

theorem le_roundHalfEven {bound : ℕ} (positive : 0 < denominator)
    (above : bound * denominator ≤ numerator) :
    bound ≤ roundHalfEven numerator denominator := by
  have quotient : bound ≤ numerator / denominator := (Nat.le_div_iff_mul_le positive).mpr above
  rw [roundHalfEven_eq_ite]
  split <;> omega

end

/-! ### Rounding a scaled mantissa -/

theorem log2_mul_two_pow {mantissa : ℕ} (positive : 0 < mantissa) (shift : ℕ) :
    (mantissa * 2 ^ shift).log2 = mantissa.log2 + shift := by
  have nonzero := Nat.ne_of_gt positive
  rw [Nat.log2_eq_iff (Nat.ne_of_gt (Nat.mul_pos positive (Nat.two_pow_pos shift)))]
  constructor
  · rw [Nat.pow_add]
    exact Nat.mul_le_mul_right _ (Nat.log2_self_le nonzero)
  · rw [Nat.add_right_comm, Nat.pow_add]
    exact Nat.mul_lt_mul_of_pos_right Nat.lt_log2_self (Nat.two_pow_pos shift)

theorem twoTo_mul_twoTo (first second : ℤ) :
    twoTo first * twoTo second = 2 ^ (first.toNat + second.toNat) :=
  (Nat.pow_add 2 _ _).symm

/-- A scaled mantissa leads with the exponent of its first digit. -/
theorem leadingExponent_scaled {mantissa : ℕ} (positive : 0 < mantissa) (exponent : ℤ) :
    leadingExponent (mantissa * twoTo exponent) (twoTo (-exponent)) =
      mantissa.log2 + exponent := by
  have numerator_log : (mantissa * twoTo exponent).log2 = mantissa.log2 + exponent.toNat :=
    log2_mul_two_pow positive exponent.toNat
  have denominator_log : (twoTo (-exponent)).log2 = (-exponent).toNat := Nat.log2_two_pow
  have estimate : ((mantissa.log2 + exponent.toNat : ℕ) : ℤ) - (-exponent).toNat =
      mantissa.log2 + exponent := by omega
  unfold leadingExponent
  rw [numerator_log, denominator_log, estimate]
  generalize lead_eq : (mantissa.log2 : ℤ) + exponent = lead
  refine if_pos ?_
  calc twoTo (-exponent) * twoTo lead
      = 2 ^ mantissa.log2 * (twoTo exponent * twoTo (-lead)) := by
        rw [twoTo_mul_twoTo, twoTo_mul_twoTo, ← Nat.pow_add]
        congr 1
        omega
    _ ≤ mantissa * (twoTo exponent * twoTo (-lead)) :=
        Nat.mul_le_mul_right _ (Nat.log2_self_le (Nat.ne_of_gt positive))
    _ = mantissa * twoTo exponent * twoTo (-lead) := (Nat.mul_assoc _ _ _).symm

theorem targetExponent_eq (mantissa : ℕ) (exponent : ℤ) :
    Format.binary64.targetExponent (totalExponent mantissa exponent) =
      max leastExponent (mantissa.log2 + exponent - 52) := by
  have least : Format.binary64.minExponent = leastExponent := by rfl
  have bits : Format.binary64.mantissaBits = 53 := by rfl
  unfold Format.targetExponent totalExponent
  rw [least, bits]
  omega

/-- A mantissa is shifted out to its last place. -/
theorem shiftToTargetExponent_eq (mantissa : ℕ) (exponent : ℤ) {shift : ℕ}
    (shift_eq : (max leastExponent (mantissa.log2 + exponent - 52) - exponent).toNat = shift) :
    shiftToTargetExponent .binary64 mantissa exponent .exact =
      (ExtendedMantissa.ofMantissaAndAccuracy mantissa .exact >>> shift, exponent + shift) := by
  unfold shiftToTargetExponent shiftToExponent
  rw [targetExponent_eq]
  dsimp only
  rw [shift_eq]

/-- The rounded units in their last place, where a carry out of the 53 digits moves the place. -/
def settled (sign : Sign) (units : ℕ) (place : ℤ) : UnpackedFloat :=
  let (final, exponent) := shiftToTargetExponent .binary64 units place .exact
  if zero : final.mantissa = 0 then .zero sign
  else .finite sign final.mantissa exponent (Nat.pos_of_ne_zero zero)

theorem settled_zero (sign : Sign) {place : ℤ} (least : leastExponent ≤ place) :
    settled sign 0 place = .zero sign := by
  have stays : (max leastExponent (((0 : ℕ).log2 : ℤ) + place - 52) - place).toNat = 0 := by
    rw [Nat.log2_zero]
    omega
  unfold settled
  rw [shiftToTargetExponent_eq 0 place stays]
  rfl

theorem settled_of_lt (sign : Sign) {units : ℕ} {place : ℤ} (least : leastExponent ≤ place)
    (positive : 0 < units) (small : units < 2 * binade) :
    settled sign units place = .finite sign units place positive := by
  have digits : units.log2 < 53 := (Nat.log2_lt (Nat.ne_of_gt positive)).mpr small
  have stays : (max leastExponent ((units.log2 : ℤ) + place - 52) - place).toNat = 0 := by omega
  unfold settled
  rw [shiftToTargetExponent_eq units place stays]
  exact (dif_neg (Nat.ne_of_gt positive)).trans
    ((UnpackedFloat.finite.injEq ..).mpr ⟨rfl, rfl, Int.add_zero place⟩)

theorem settled_of_carry (sign : Sign) {place : ℤ} (least : leastExponent ≤ place) :
    settled sign (2 * binade) place = .finite sign binade (place + 1) (by decide) := by
  have digits : (2 * binade).log2 = 53 := by decide +kernel
  have moves : (max leastExponent (((2 * binade).log2 : ℤ) + place - 52) - place).toNat = 1 := by
    rw [digits]
    omega
  unfold settled
  rw [shiftToTargetExponent_eq _ place moves]
  rfl

/-- To round a scaled mantissa, it is counted in units of its last place. -/
theorem round_eq_settled (sign : Sign) {mantissa : ℕ} (positive : 0 < mantissa) {exponent : ℤ}
    {place : ℤ} (place_eq : max leastExponent (mantissa.log2 + exponent - 52) = place) :
    UnpackedFloat.round .binary64 sign mantissa exponent =
      settled sign (roundHalfEven (mantissa * 2 ^ (exponent - place).toNat)
        (2 ^ (place - exponent).toNat)) place := by
  generalize aligned_eq : mantissa * 2 ^ (exponent - place).toNat = aligned
  have shifted : mantissa <<< (exponent - place).toNat = aligned :=
    (Nat.shiftLeft_eq _ _).trans aligned_eq
  have shift_eq : (max leastExponent (aligned.log2 + (exponent - (exponent - place).toNat) - 52) -
      (exponent - (exponent - place).toNat)).toNat = (place - exponent).toNat := by
    rw [← aligned_eq, log2_mul_two_pow positive]
    omega
  have reached : exponent - (exponent - place).toNat + (place - exponent).toNat = place := by omega
  have rounded := (splits_shiftRight aligned (place - exponent).toNat).roundedMantissa_eq
    (Nat.two_pow_pos _)
  unfold UnpackedFloat.round decreaseExponent
  rw [targetExponent_eq, place_eq]
  dsimp only
  rw [shifted]
  unfold roundWithAccuracy
  rw [shiftToTargetExponent_eq _ _ shift_eq, reached]
  dsimp only
  rw [rounded]
  rfl

/-! ### The rounded float -/

theorem magnitude_of_makes {float : Magnitude} {rank : ℕ} (makes : Makes float rank) :
    magnitude rank = float := by
  obtain ⟨significand, exponent⟩ := float
  obtain ⟨positive, small, least, rank_eq, normal⟩ := makes
  dsimp only at *
  generalize places_eq : (exponent - leastExponent).toNat = places at rank_eq
  have exponent_eq : leastExponent + places = exponent := by omega
  unfold magnitude
  by_cases subnormal : rank < binade
  · have noPlaces : places = 0 := by
      refine Nat.eq_zero_of_not_pos fun above => ?_
      have many := Nat.mul_le_mul_right binade above
      omega
    subst noPlaces
    rw [if_pos subnormal, Magnitude.mk.injEq]
    omega
  · have large : binade ≤ significand := by
      by_cases above : leastExponent < exponent
      · exact normal above
      · have noPlaces : places = 0 := by omega
        subst noPlaces
        omega
    have quotient : rank / binade = places + 1 := by
      refine Nat.div_eq_of_lt_le ?_ ?_
      · rw [Nat.add_mul]
        omega
      · rw [Nat.add_mul, Nat.add_mul]
        omega
    have remainder := Nat.div_add_mod rank binade
    rw [quotient, Nat.mul_add, Nat.mul_comm] at remainder
    rw [if_neg subnormal, quotient, Magnitude.mk.injEq, Nat.add_sub_cancel]
    exact ⟨by omega, exponent_eq⟩

theorem ofModel_unpack (value : Float) : Float.ofModel (.pack value.toModel.unpack) = value :=
  ofBits_toBits value

/-- What makes a rank up is packed into the float of the rank, or into infinity. -/
theorem ofModel_finite (negative : Bool) {float : Magnitude} {rank : ℕ} (makes : Makes float rank)
    (nonzero : 0 < float.significand) :
    Float.ofModel (.pack (.finite (if negative then .negative else .positive) float.significand
      float.exponent nonzero)) = ofRank negative (min infinityRank rank) := by
  obtain rfl := magnitude_of_makes makes
  have finite_iff := makes.exponent_le_iff 2045
  by_cases finite : rank < infinityRank
  · have positive : 0 < rank := by
      rw [← makes.rank_eq]
      exact Nat.add_pos_right _ nonzero
    obtain ⟨_, unpacked⟩ := unpack_ofRank positive finite
    rw [Nat.min_eq_right finite.le, ← unpacked, ofModel_unpack]
  · have large : leastExponent + 2045 < (magnitude rank).exponent :=
      Int.not_le.mp (mt finite_iff.mp finite)
    have beyond : 2048 ≤ ((magnitude rank).exponent + 1023 + 52).toNat + 1 := by
      unfold leastExponent at large
      omega
    have packed : Float.Model.pack (.finite (if negative then .negative else .positive)
        (magnitude rank).significand (magnitude rank).exponent nonzero) =
        .pack (.infinity (if negative then .negative else .positive)) := by
      unfold Float.Model.pack
      congr 2
      rw [pack_finite, if_pos beyond]
      rfl
    rw [packed, Nat.min_eq_left (Nat.le_of_not_lt finite)]
    cases negative <;> decide +kernel

theorem ofModel_zero (negative : Bool) :
    Float.ofModel (.pack (.zero (if negative then .negative else .positive))) =
      ofRank negative 0 := by
  cases negative <;> decide +kernel

/-- The settled units give the rank on top of the places above the least one. -/
theorem ofModel_settled (negative : Bool) {units : ℕ} {place : ℤ} (least : leastExponent ≤ place)
    (small : units ≤ 2 * binade) (normal : leastExponent < place → binade ≤ units) :
    Float.ofModel (.pack (settled (if negative then .negative else .positive) units place)) =
      ofRank negative (min infinityRank ((place - leastExponent).toNat * binade + units)) := by
  rcases Nat.eq_zero_or_pos units with rfl | positive
  · have lowest : place = leastExponent := by
      refine le_antisymm (not_lt.mp fun above => ?_) least
      exact absurd (normal above) (by decide)
    rw [settled_zero _ least, ofModel_zero, lowest, sub_self]
    rfl
  · rcases Nat.lt_or_eq_of_le small with small | rfl
    · rw [settled_of_lt _ least positive small]
      have makes : Makes ⟨units, place⟩ ((place - leastExponent).toNat * binade + units) :=
        ⟨positive, small, least, rfl, normal⟩
      exact ofModel_finite negative makes positive
    · have carried : Makes ⟨binade, place + 1⟩
          ((place - leastExponent).toNat * binade + 2 * binade) := {
        positive := show 0 < binade by decide
        small := show binade < 2 * binade by decide
        least := Int.le_add_one least
        rank_eq := by
          have places : (place + 1 - leastExponent).toNat = (place - leastExponent).toNat + 1 := by
            omega
          dsimp only
          rw [places]
          ring
        normal := fun _ => Nat.le_refl _ }
      rw [settled_of_carry _ least]
      exact ofModel_finite negative carried carried.positive

/-- A scaled mantissa is rounded to the nearest float. -/
theorem ofModel_round (negative : Bool) {mantissa : ℕ} (positive : 0 < mantissa) (exponent : ℤ) :
    Float.ofModel (.pack (UnpackedFloat.round .binary64
      (if negative then .negative else .positive) mantissa exponent)) =
      nearest negative (mantissa * twoTo exponent) (twoTo (-exponent)) := by
  have lastPlace_scaled : lastPlace (mantissa * twoTo exponent) (twoTo (-exponent)) =
      max leastExponent (mantissa.log2 + exponent - 52) := by
    rw [lastPlace, leadingExponent_scaled positive]
  generalize place_eq : max leastExponent ((mantissa.log2 : ℤ) + exponent - 52) = place
    at lastPlace_scaled
  have least : leastExponent ≤ place := by omega
  have numerator_pos : mantissa * twoTo exponent ≠ 0 :=
    Nat.ne_of_gt (Nat.mul_pos positive (twoTo_pos exponent))
  generalize units_def : roundHalfEven (mantissa * 2 ^ (exponent - place).toNat)
    (2 ^ (place - exponent).toNat) = units
  have units_eq : roundHalfEven (mantissa * twoTo exponent * twoTo (-place))
      (twoTo (-exponent) * twoTo place) = units := by
    rw [← units_def]
    refine roundHalfEven_congr (Nat.mul_pos (twoTo_pos _) (twoTo_pos _)) (Nat.two_pow_pos _) ?_
    rw [Nat.mul_assoc mantissa, twoTo_mul_twoTo, twoTo_mul_twoTo, Nat.mul_assoc, Nat.mul_assoc,
      ← Nat.pow_add, ← Nat.pow_add]
    congr 2
    omega
  have rank_eq : nearestRank (mantissa * twoTo exponent) (twoTo (-exponent)) =
      min infinityRank ((place - leastExponent).toNat * binade + units) := by
    unfold nearestRank
    rw [if_neg numerator_pos, lastPlace_scaled]
    dsimp only
    rw [units_eq]
  rw [round_eq_settled _ positive place_eq, units_def, nearest, rank_eq]
  have shifted_pos := Nat.mul_pos positive (Nat.two_pow_pos (exponent - place).toNat)
  have shifted_log := log2_mul_two_pow positive (exponent - place).toNat
  refine ofModel_settled negative least ?_ ?_
  · rw [← units_def]
    have carry : 2 * binade * 2 ^ (place - exponent).toNat = 2 ^ (53 + (place - exponent).toNat) :=
      (Nat.pow_add 2 53 _).symm
    refine roundHalfEven_le ?_
    rw [carry]
    exact (Nat.log2_lt (Nat.ne_of_gt shifted_pos)).mp (by omega)
  · intro above
    rw [← units_def]
    have first : binade * 2 ^ (place - exponent).toNat = 2 ^ (52 + (place - exponent).toNat) :=
      (Nat.pow_add 2 52 _).symm
    refine le_roundHalfEven (Nat.two_pow_pos _) ?_
    rw [first]
    exact (Nat.le_log2 (Nat.ne_of_gt shifted_pos)).mp (by omega)

end DeskCalculator.Binary
