/-
This file proves that the sums and differences of finite floats are the floats
nearest to the exact ones. The exact result is a whole number of units, whose
exponent is the smaller one of the two operands; so it is a scaled mantissa and
rounded as such. A number that some float stands for is not changed by that: it
lies in the middle of the basin of its rank.
-/

import DeskCalculator.Proofs.Mantissas

namespace DeskCalculator.Binary

open Decimal (Makes Basin magnitude_makes nearestRank_of_holds)
open Float.Model (UnpackedFloat)
open Float.Model.UnpackedFloat

/-! ### The numbers that floats stand for -/

/-- The number that a magnitude stands for. -/
def Magnitude.toRat (magnitude : Magnitude) : ℚ :=
  magnitude.significand * 2 ^ magnitude.exponent

theorem toRat_zero : (magnitude 0).toRat = 0 :=
  (congrArg (· * _) Nat.cast_zero).trans (zero_mul _)

theorem toRat_pos {rank : ℕ} (positive : 0 < rank) : 0 < (magnitude rank).toRat := by
  have significand : (0 : ℚ) < (magnitude rank).significand := by
    exact_mod_cast (magnitude_makes positive).positive
  unfold Magnitude.toRat
  positivity

/-- A number with the given sign. -/
def signed (negative : Bool) (number : ℚ) : ℚ :=
  if negative then -number else number

/-- The number that a finite float stands for. -/
def toRat (value : Float) : ℚ :=
  signed (isNegative value) (magnitude (rank value)).toRat

theorem toRat_ofRank (negative : Bool) {rank : ℕ} (finite : rank < infinityRank) :
    toRat (ofRank negative rank) = signed negative (magnitude rank).toRat := by
  rw [toRat, rank_ofRank negative finite, isNegative_ofRank negative finite]

/-! ### Nearest floats -/

theorem quotient_scaled (mantissa : ℕ) (exponent : ℤ) :
    ((mantissa * twoTo exponent : ℕ) : ℚ) / twoTo (-exponent) = mantissa * 2 ^ exponent := by
  have power : (twoTo (-exponent) : ℚ) ≠ 0 := by exact_mod_cast (twoTo_pos _).ne'
  rw [div_eq_iff power, Nat.cast_mul, twoTo_eq, mul_assoc]

/-- A quotient that some float stands for is rounded to its rank. -/
theorem nearestRank_of_toRat {rank numerator denominator : ℕ} (finite : rank < infinityRank)
    (denominator_pos : 0 < denominator)
    (same : (numerator / denominator : ℚ) = (magnitude rank).toRat) :
    nearestRank numerator denominator = rank := by
  have below : (0 : ℚ) < denominator := by exact_mod_cast denominator_pos
  rcases Nat.eq_zero_or_pos rank with rfl | positive
  · rw [toRat_zero, div_eq_zero_iff, or_iff_left below.ne', Nat.cast_eq_zero] at same
    rw [same]
    rfl
  · have above : (0 : ℚ) < numerator / denominator := same ▸ toRat_pos positive
    have numerator_pos : 0 < numerator := by
      rw [div_pos_iff_of_pos_right below] at above
      exact_mod_cast above
    have middle : ((Basin.ofRank rank).middle * 2 ^ (Basin.ofRank rank).exponent : ℚ) =
        numerator / denominator := by
      rw [same]
      show ((4 * (magnitude rank).significand : ℕ) * 2 ^ ((magnitude rank).exponent - 2) : ℚ) = _
      rw [Magnitude.toRat, zpow_sub₀ (by norm_num)]
      push_cast
      ring
    obtain ⟨_, low, high⟩ := Basin.ofRank_spread positive
    have holds := Basin.holds_middle low high
    rw [middle] at holds
    exact nearestRank_of_holds positive finite numerator_pos denominator_pos holds

/-- The float is one that is nearest to the number, ties to the even significand. The sign of a
zero is left open. -/
def IsNearest (value : Float) (number : ℚ) : Prop :=
  ∃ (negative : Bool) (numerator denominator : ℕ), 0 < denominator ∧
    signed negative (numerator / denominator) = number ∧
    nearest negative numerator denominator = value

theorem abs_signed (negative : Bool) (number : ℚ) : |signed negative number| = |number| := by
  cases negative
  · rfl
  · exact abs_neg number

/-- Some finite float stands for the number. -/
def Representable (number : ℚ) : Prop :=
  ∃ rank < infinityRank, |number| = (magnitude rank).toRat

/-- A number that some float stands for is not changed by rounding. -/
theorem IsNearest.toRat_eq {value : Float} {number : ℚ} (near : IsNearest value number)
    (representable : Representable number) : value.isFinite = true ∧ toRat value = number := by
  obtain ⟨negative, numerator, denominator, positive, rfl, rfl⟩ := near
  obtain ⟨rank, finite, same⟩ := representable
  rw [abs_signed, abs_of_nonneg (by positivity)] at same
  rw [nearest, nearestRank_of_toRat finite positive same, toRat_ofRank negative finite, same]
  exact ⟨isFinite_ofRank negative finite, rfl⟩

theorem isNearest_self {value : Float} (finite : value.isFinite = true) :
    IsNearest value (toRat value) := by
  rw [isFinite_iff] at finite
  have scaled := quotient_scaled (magnitude (rank value)).significand
    (magnitude (rank value)).exponent
  refine ⟨isNegative value, _, _, twoTo_pos _, congrArg (signed _) scaled, ?_⟩
  rw [nearest, nearestRank_of_toRat finite (twoTo_pos _) scaled, ofRank_rank]

theorem isNearest_zero (sign : Sign) : IsNearest (.ofModel (.pack (.zero sign))) 0 := by
  cases sign with
  | negative => exact ⟨true, 0, 1, Nat.one_pos, by simp [signed], (ofModel_zero true).symm⟩
  | positive => exact ⟨false, 0, 1, Nat.one_pos, by simp [signed], (ofModel_zero false).symm⟩

theorem representable_zero : Representable 0 :=
  ⟨0, by decide, by rw [abs_zero, toRat_zero]⟩

/-- Up to 53 digits in places of the format stand for a representable number. -/
theorem representable_scaled {units : ℕ} {exponent : ℤ} {number : ℚ}
    (same : |number| = units * 2 ^ exponent) (small : units < 2 * binade)
    (least : leastExponent ≤ exponent) (greatest : exponent ≤ 971) : Representable number := by
  rcases Nat.eq_zero_or_pos units with rfl | positive
  · rw [Nat.cast_zero, zero_mul, abs_eq_zero] at same
    exact same ▸ representable_zero
  · -- The digits move up until they fill the significand, or the least exponent is reached.
    generalize shift_eq : min (52 - units.log2) (exponent - leastExponent).toNat = shift
    have digits : units.log2 < 53 := (Nat.log2_lt (Nat.ne_of_gt positive)).mpr small
    have shifted_pos := Nat.mul_pos positive (Nat.two_pow_pos shift)
    have shifted_log := log2_mul_two_pow positive shift
    have makes : Makes ⟨units * 2 ^ shift, exponent - shift⟩
        ((exponent - shift - leastExponent).toNat * binade + units * 2 ^ shift) := {
      positive := shifted_pos
      small := show _ < 2 ^ 53 from (Nat.log2_lt (Nat.ne_of_gt shifted_pos)).mp (by omega)
      least := show leastExponent ≤ exponent - shift by omega
      rank_eq := rfl
      normal := by
        intro above
        change leastExponent < exponent - shift at above
        exact show 2 ^ 52 ≤ _ from (Nat.le_log2 (Nat.ne_of_gt shifted_pos)).mp (by omega) }
    have inside : exponent - shift ≤ leastExponent + 2045 := by
      unfold leastExponent
      omega
    refine ⟨_, (makes.exponent_le_iff 2045).mp inside, ?_⟩
    rw [magnitude_of_makes makes, same, Magnitude.toRat]
    dsimp only
    rw [Nat.cast_mul, Nat.cast_pow, Nat.cast_two, mul_assoc, ← zpow_natCast,
      ← zpow_add₀ (by norm_num)]
    congr 2
    ring

theorem representable_int {number : ℤ} (small : number.natAbs < 2 * binade) :
    Representable number := by
  have same : |(number : ℚ)| = number.natAbs * 2 ^ (0 : ℤ) := by
    rw [zpow_zero, mul_one, Nat.cast_natAbs, Int.cast_abs]
  exact representable_scaled same small (by decide) (by decide)

/-! ### Sums and differences -/

theorem isNearest_round (negative : Bool) {units : ℕ} (positive : 0 < units) (exponent : ℤ) :
    IsNearest (.ofModel (.pack (UnpackedFloat.round .binary64
      (if negative then .negative else .positive) units exponent)))
      (signed negative (units * 2 ^ exponent)) :=
  ⟨negative, _, _, twoTo_pos _, congrArg (signed negative) (quotient_scaled units exponent),
    (ofModel_round negative positive exponent).symm⟩

/-- A whole number of units is rounded to the nearest float. -/
theorem isNearest_normalize (total exponent : ℤ) (sign : Sign) :
    IsNearest (.ofModel (.pack (UnpackedFloat.normalize .binary64 total exponent sign)))
      (total * 2 ^ exponent) := by
  unfold UnpackedFloat.normalize
  rcases lt_trichotomy total 0 with below | rfl | above
  · have near := isNearest_round true (show 0 < (-total).toNat by omega) exponent
    have units : (((-total).toNat : ℕ) : ℚ) = -total := by
      exact_mod_cast Int.toNat_of_nonneg (show 0 ≤ -total by omega)
    rw [units, signed, if_pos rfl, neg_mul, neg_neg] at near
    rw [Int.compare_eq_lt.mpr below]
    exact near
  · rw [Int.cast_zero, zero_mul]
    exact isNearest_zero sign
  · have near := isNearest_round false (show 0 < total.toNat by omega) exponent
    have units : ((total.toNat : ℕ) : ℚ) = total := by
      exact_mod_cast Int.toNat_of_nonneg above.le
    rw [units] at near
    rw [Int.compare_eq_gt.mpr above]
    exact near

/-- A finite float is unpacked into a zero, or into the parts of the number it stands for. -/
theorem unpack_cases {value : Float} (finite : value.isFinite = true) :
    (∃ sign, value.toModel.unpack = .zero sign ∧ toRat value = 0) ∨
      ∃ sign mantissa exponent nonzero,
        value.toModel.unpack = .finite sign mantissa exponent nonzero ∧
          toRat value = sign.apply mantissa * 2 ^ exponent := by
  rw [isFinite_iff] at finite
  rw [← ofRank_rank value, toRat_ofRank _ finite]
  generalize isNegative value = negative
  rcases Nat.eq_zero_or_pos (rank value) with zero | positive
  · left
    rw [zero, toRat_zero]
    cases negative with
    | false => exact ⟨.positive, rfl, rfl⟩
    | true => exact ⟨.negative, rfl, neg_zero⟩
  · right
    obtain ⟨nonzero, unpacked⟩ := unpack_ofRank positive finite
    refine ⟨_, _, _, nonzero, unpacked negative, ?_⟩
    cases negative with
    | false => rfl
    | true =>
      show -(_ * _ : ℚ) = ((-_ : ℤ) : ℚ) * _
      push_cast
      ring

/-- Units with a smaller exponent stand for the same number. -/
theorem decreaseExponent_eq (sign : Sign) (mantissa : ℕ) {exponent smaller : ℤ}
    (less : smaller ≤ exponent) :
    (sign.apply (decreaseExponent mantissa exponent smaller).1 * 2 ^ smaller : ℚ) =
      sign.apply mantissa * 2 ^ exponent := by
  have shifted : (decreaseExponent mantissa exponent smaller).1 =
      mantissa * 2 ^ (exponent - smaller).toNat := Nat.shiftLeft_eq _ _
  have power : (2 : ℚ) ^ exponent = 2 ^ (exponent - smaller).toNat * 2 ^ smaller := by
    rw [← zpow_natCast, ← zpow_add₀ (by norm_num)]
    congr 1
    omega
  rw [shifted, power]
  cases sign
  all_goals
    unfold Sign.apply
    push_cast
    ring

/-- The sum of two finite floats is the float nearest to the exact sum. -/
theorem isNearest_add {left right : Float} (leftFinite : left.isFinite = true)
    (rightFinite : right.isFinite = true) :
    IsNearest (left + right) (toRat left + toRat right) := by
  have sum : left + right =
    .ofModel (.pack (.add .binary64 left.toModel.unpack right.toModel.unpack)) := rfl
  rcases unpack_cases leftFinite with ⟨leftSign, leftParts, leftZero⟩ |
    ⟨leftSign, leftMantissa, leftExponent, _, leftParts, leftNumber⟩
  · rw [leftZero, zero_add]
    rcases unpack_cases rightFinite with ⟨rightSign, rightParts, rightZero⟩ |
      ⟨_, _, _, _, rightParts, _⟩
    · obtain ⟨sign, zero⟩ : ∃ sign, UnpackedFloat.add .binary64 (.zero leftSign)
          (.zero rightSign) = .zero sign := by
        cases leftSign <;> cases rightSign <;> exact ⟨_, rfl⟩
      rw [sum, leftParts, rightParts, rightZero, zero]
      exact isNearest_zero sign
    · have same : UnpackedFloat.add .binary64 left.toModel.unpack right.toModel.unpack =
          right.toModel.unpack := by
        rw [leftParts, rightParts]
        rfl
      rw [sum, same, ofModel_unpack]
      exact isNearest_self rightFinite
  · rcases unpack_cases rightFinite with ⟨rightSign, rightParts, rightZero⟩ |
      ⟨rightSign, rightMantissa, rightExponent, _, rightParts, rightNumber⟩
    · have same : UnpackedFloat.add .binary64 left.toModel.unpack right.toModel.unpack =
          left.toModel.unpack := by
        rw [leftParts, rightParts]
        rfl
      rw [sum, same, ofModel_unpack, rightZero, add_zero]
      exact isNearest_self leftFinite
    · rw [sum, leftParts, rightParts, leftNumber, rightNumber,
        ← decreaseExponent_eq leftSign leftMantissa (min_le_left leftExponent rightExponent),
        ← decreaseExponent_eq rightSign rightMantissa (min_le_right leftExponent rightExponent),
        ← add_mul, ← Int.cast_add]
      exact isNearest_normalize _ _ _

theorem sub_eq_add_neg_unpacked (left right : UnpackedFloat) :
    UnpackedFloat.sub .binary64 left right = .add .binary64 left right.neg := by
  have apply_neg : ∀ (sign : Sign) (units : ℤ), (-sign).apply units = -sign.apply units := by
    intro sign units
    cases sign
    · exact (neg_neg units).symm
    · rfl
  cases left <;> cases right
  case finite.finite =>
    unfold UnpackedFloat.sub UnpackedFloat.add UnpackedFloat.neg
    dsimp only
    rw [apply_neg, sub_eq_add_neg]
  all_goals rfl

theorem unpack_neg_ofRank (negative : Bool) {rank : ℕ} (finite : rank < infinityRank) :
    (ofRank negative rank).toModel.unpack.neg = (ofRank (!negative) rank).toModel.unpack := by
  rcases Nat.eq_zero_or_pos rank with rfl | positive
  · cases negative <;> rfl
  · obtain ⟨_, unpacked⟩ := unpack_ofRank positive finite
    rw [unpacked, unpacked]
    cases negative <;> rfl

/-- A difference is the sum with the float of the other sign. -/
theorem sub_ofRank (left : Float) (negative : Bool) {rank : ℕ} (finite : rank < infinityRank) :
    left - ofRank negative rank = left + ofRank (!negative) rank := by
  have difference : left - ofRank negative rank = .ofModel (.pack (.sub .binary64
    left.toModel.unpack (ofRank negative rank).toModel.unpack)) := rfl
  rw [difference, sub_eq_add_neg_unpacked, unpack_neg_ofRank negative finite]
  rfl

/-- The difference of two finite floats is the float nearest to the exact difference. -/
theorem isNearest_sub {left right : Float} (leftFinite : left.isFinite = true)
    (rightFinite : right.isFinite = true) :
    IsNearest (left - right) (toRat left - toRat right) := by
  rw [isFinite_iff] at rightFinite
  have sum := isNearest_add leftFinite (isFinite_ofRank (!isNegative right) rightFinite)
  have opposite : signed (!isNegative right) (magnitude (rank right)).toRat = -toRat right := by
    unfold toRat
    cases isNegative right with
    | false => rfl
    | true => exact (neg_neg _).symm
  rwa [toRat_ofRank _ rightFinite, opposite, ← sub_eq_add_neg, ← sub_ofRank left _ rightFinite,
    ofRank_rank] at sum

end DeskCalculator.Binary
