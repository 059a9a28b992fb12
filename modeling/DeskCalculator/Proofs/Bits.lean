/-
This file relates the bits of a float to its rank and its sign bit. A float is
packed from a sign, an exponent and a mantissa, and unpacking and packing it
again changes nothing; so a float is made up of its sign bit and its rank, and
it is finite exactly when its rank is below that of infinity. Floats of one
finite rank differ in their signs only, and a difference from zero has the
other sign.
-/

import DeskCalculator.Binary.Basic

namespace DeskCalculator.Binary

open Float.Model (Format UnpackedFloat)
open Float.Model.UnpackedFloat

/-! ### The parts of a float's bits -/

/-- Bits are put together again from their sign, exponent and mantissa. -/
theorem packComponents_parts (bits : BitVec Format.binary64.numBits) :
    packComponents .binary64 (Sign.ofBitVec (unpackSign bits)) (unpackExponent bits)
      (unpackMantissa bits) = bits := by
  have sign : ∀ bit : BitVec 1, (Sign.ofBitVec bit).toBitVec = bit := by decide
  rw [packComponents, sign]
  refine BitVec.eq_of_getLsbD_eq fun index inside => ?_
  have inside : index < 64 := inside
  have signPart : unpackSign bits = (bits.extractLsb 63 63).cast rfl := rfl
  simp only [BitVec.getLsbD_append, unpackMantissa, unpackExponent, signPart,
    BitVec.getLsbD_cast, BitVec.getLsbD_extractLsb]
  by_cases low : index < 52
  · simp [low]
  · by_cases middle : index - 52 < 11
    · have same : 52 + (index - 52) = index := by omega
      simp [low, middle, same]
    · have last : index = 63 := by omega
      subst last
      simp
      rfl

theorem packComponents_eq {bits : BitVec Format.binary64.numBits}
    {exponent : BitVec Format.binary64.exponentBits}
    {mantissa : BitVec Format.binary64.mantissaBitsWithoutImplicit}
    (sameExponent : unpackExponent bits = exponent)
    (sameMantissa : unpackMantissa bits = mantissa) :
    packComponents .binary64 (Sign.ofBitVec (unpackSign bits)) exponent mantissa = bits := by
  rw [← sameExponent, ← sameMantissa]
  exact packComponents_parts bits

theorem toNat_unpackExponent_eq (bits : BitVec Format.binary64.numBits) :
    (unpackExponent bits).toNat = bits.toNat / binade % 2048 := by
  simp [unpackExponent, Nat.shiftRight_eq_div_pow, binade]

theorem toNat_unpackMantissa (bits : BitVec Format.binary64.numBits) :
    (unpackMantissa bits).toNat = bits.toNat % binade := by
  simp [unpackMantissa, binade]

theorem unpackSign_eq (bits : BitVec Format.binary64.numBits) :
    unpackSign bits = if signBit ≤ bits.toNat then 1#1 else 0#1 := by
  have bound : bits.toNat < 2 ^ 64 := bits.isLt
  have signPart : unpackSign bits = (bits.extractLsb 63 63).cast rfl := rfl
  have shifted : (unpackSign bits).toNat = bits.toNat / 2 ^ 63 % 2 := by
    rw [signPart]
    simp [Nat.shiftRight_eq_div_pow]
  refine BitVec.eq_of_toNat_eq ?_
  rw [shifted]
  unfold signBit
  split
  · show _ = 1
    omega
  · show _ = 0
    omega

theorem toNat_implicit (mantissa : BitVec 52) :
    (1#1 ++ mantissa).toNat = binade + mantissa.toNat := by
  rw [BitVec.toNat_append, ← Nat.shiftLeft_add_eq_or_of_lt mantissa.isLt]
  rfl

theorem log2_eq {value : Nat} (low : binade ≤ value) (high : value < 2 * binade) :
    value.log2 = 52 := by
  have positive : value ≠ 0 := by unfold binade at low; omega
  refine Nat.le_antisymm (Nat.le_of_lt_succ ?_) ?_
  · exact (Nat.log2_lt positive).mpr high
  · exact (Nat.le_log2 positive).mpr low

theorem pack_finite (sign : Sign) (mantissa : Nat) (exponent : Int) (positive : 0 < mantissa) :
    pack .binary64 (.finite sign mantissa exponent positive) =
      if 2048 ≤ (exponent + 1023 + 52).toNat + 1 then packedInfinity .binary64 sign
      else if mantissa.log2 + 1 = 53 then
        packComponents .binary64 sign (BitVec.ofNat _ (exponent + 1023 + 52).toNat)
          (BitVec.ofNat _ mantissa)
      else packComponents .binary64 sign 0#_ (BitVec.ofNat _ mantissa) := rfl

theorem pack_normal {sign : Sign} {mantissa biased : Nat} {exponent : Int}
    {positive : 0 < mantissa} (same : (exponent + 1023 + 52).toNat = biased)
    (inside : biased + 1 < 2048) (normal : mantissa.log2 = 52) :
    pack .binary64 (.finite sign mantissa exponent positive) =
      packComponents .binary64 sign (BitVec.ofNat _ biased) (BitVec.ofNat _ mantissa) := by
  rw [pack_finite, same, if_neg (Nat.not_le_of_lt inside), if_pos (congrArg (· + 1) normal)]

theorem pack_subnormal {sign : Sign} {mantissa : Nat} {exponent : Int}
    {positive : 0 < mantissa} (least : exponent = -1074) (below : mantissa < binade) :
    pack .binary64 (.finite sign mantissa exponent positive) =
      packComponents .binary64 sign 0#_ (BitVec.ofNat _ mantissa) := by
  have small : mantissa.log2 < 52 := (Nat.log2_lt (Nat.ne_of_gt positive)).mpr below
  have abnormal : mantissa.log2 + 1 ≠ 53 := Nat.ne_of_lt (Nat.succ_lt_succ small)
  subst least
  rw [pack_finite, if_neg (by decide), if_neg abnormal]

theorem unpack_eq (bits : BitVec Format.binary64.numBits) :
    unpack .binary64 bits =
      if unpackExponent bits = -1#_ then
        if unpackMantissa bits = 0#_ then .infinity (Sign.ofBitVec (unpackSign bits))
        else .notANumber
      else if unpackExponent bits = 0#_ then
        if zero : unpackMantissa bits = 0#_ then .zero (Sign.ofBitVec (unpackSign bits))
        else .finite (Sign.ofBitVec (unpackSign bits)) (unpackMantissa bits).toNat
          ((unpackExponent bits).toNat - (1023 + 52) + 1)
          (by simpa [BitVec.toNat_pos, BitVec.pos_iff_ne_zero] using zero)
      else .finite (Sign.ofBitVec (unpackSign bits)) (1#1 ++ unpackMantissa bits).toNat
        ((unpackExponent bits).toNat - (1023 + 52))
        (by rw [toNat_implicit]; exact Nat.add_pos_left (by decide) _) := rfl

/-- Unpacking and packing changes no valid bits. -/
theorem pack_unpack (bits : BitVec Format.binary64.numBits)
    (valid : Format.binary64.Valid bits) : pack .binary64 (unpack .binary64 bits) = bits := by
  have below : (unpackMantissa bits).toNat < binade := (unpackMantissa bits).isLt
  rw [unpack_eq]
  by_cases full : unpackExponent bits = -1#_
  · rw [if_pos full]
    by_cases zero : unpackMantissa bits = 0#_
    · rw [if_pos zero]
      exact packComponents_eq full zero
    · rw [if_neg zero]
      exact (valid.eq_packedNaN full zero).symm
  · rw [if_neg full]
    by_cases empty : unpackExponent bits = 0#_
    · rw [if_pos empty]
      by_cases zero : unpackMantissa bits = 0#_
      · rw [dif_pos zero]
        exact packComponents_eq empty zero
      · rw [dif_neg zero, pack_subnormal (by rw [empty]; rfl) below]
        refine packComponents_eq empty ?_
        rw [BitVec.ofNat_toNat, BitVec.setWidth_eq]
    · rw [if_neg empty]
      have inside : (unpackExponent bits).toNat + 1 < 2048 := by
        have bound : (unpackExponent bits).toNat < 2048 := (unpackExponent bits).isLt
        have notLast : (unpackExponent bits).toNat ≠ 2047 := fun last =>
          full (BitVec.eq_of_toNat_eq last)
        omega
      have normal : (1#1 ++ unpackMantissa bits).toNat.log2 = 52 := by
        rw [toNat_implicit]
        exact log2_eq (Nat.le_add_right _ _) (by omega)
      rw [pack_normal (by omega) inside normal]
      refine packComponents_eq ?_ ?_
      · rw [BitVec.ofNat_toNat, BitVec.setWidth_eq]
      · refine BitVec.eq_of_toNat_eq ?_
        rw [BitVec.toNat_ofNat, toNat_implicit]
        show _ = (binade + _) % binade
        rw [Nat.add_mod_left, Nat.mod_eq_of_lt below]

/-! ### Rank and sign -/

theorem ofBits_toBits (value : Float) : Float.ofBits value.toBits = value := by
  have same := pack_unpack value.toModel.toBits.toBitVec value.toModel.valid
  have toBits_eq : (Float.ofBits value.toBits).toModel.toBits = value.toModel.toBits :=
    congrArg UInt64.ofBitVec same
  obtain ⟨⟨bits, valid⟩⟩ := value
  generalize Float.ofBits _ = other at toBits_eq ⊢
  obtain ⟨⟨otherBits, otherValid⟩⟩ := other
  cases toBits_eq
  rfl

/-- A float is made up of its sign bit and its rank. -/
theorem ofRank_rank (value : Float) : ofRank (isNegative value) (rank value) = value := by
  have bound : value.toBits.toNat < 2 ^ 64 := value.toBits.toNat_lt
  have bits : (if isNegative value then signBit + rank value else rank value) =
      value.toBits.toNat := by
    unfold isNegative rank signBit
    split
    · rename_i negative
      have high := of_decide_eq_true negative
      omega
    · rename_i positive
      have low := of_decide_eq_false (Bool.eq_false_iff.mpr positive)
      omega
  rw [ofRank, bits, UInt64.ofNat_toNat, ofBits_toBits]

/-- The bits of a float as a word of its format. -/
def word (value : Float) : BitVec Format.binary64.numBits :=
  value.toBits.toBitVec

theorem toNat_unpackExponent (value : Float) :
    (unpackExponent (word value)).toNat = rank value / binade := by
  have bound : value.toBits.toNat < 2 ^ 64 := value.toBits.toNat_lt
  rw [toNat_unpackExponent_eq]
  show value.toBits.toNat / binade % 2048 = _
  unfold rank signBit binade
  omega

theorem rank_lt (value : Float) : rank value < signBit :=
  Nat.mod_lt _ (by decide)

theorem exponent_full_iff (value : Float) :
    unpackExponent (word value) = -1#_ ↔
      infinityRank ≤ rank value := by
  have bound := rank_lt value
  rw [← BitVec.toNat_inj, toNat_unpackExponent]
  show rank value / binade = 2047 ↔ _
  unfold infinityRank binade
  unfold signBit at bound
  omega

/-- The finite floats are those below infinity. -/
theorem isFinite_iff (value : Float) : value.isFinite = true ↔ rank value < infinityRank := by
  show (unpack .binary64 (word value)).isFinite = true ↔ _
  rw [← Nat.not_le, ← exponent_full_iff, unpack_eq]
  by_cases full : unpackExponent (word value) = -1#_
  · refine iff_of_false ?_ (not_not_intro full)
    rw [if_pos full]
    by_cases zero : unpackMantissa (word value) = 0#_
    · rw [if_pos zero]
      exact Bool.false_ne_true
    · rw [if_neg zero]
      exact Bool.false_ne_true
  · refine iff_of_true ?_ full
    rw [if_neg full]
    by_cases empty : unpackExponent (word value) = 0#_
    · rw [if_pos empty]
      by_cases zero : unpackMantissa (word value) = 0#_
      · rw [dif_pos zero]
        rfl
      · rw [dif_neg zero]
        rfl
    · rw [if_neg empty]
      rfl

theorem isNaN_of_isFinite {value : Float} (finite : value.isFinite = true) :
    value.isNaN = false := by
  have unpacked : value.toModel.unpack.isFinite = true := finite
  show value.toModel.unpack.isNaN = false
  cases same : value.toModel.unpack with
  | notANumber =>
    rw [same] at unpacked
    cases unpacked
  | _ => rfl

theorem isInf_of_isFinite {value : Float} (finite : value.isFinite = true) :
    value.isInf = false := by
  have unpacked : value.toModel.unpack.isFinite = true := finite
  show value.toModel.unpack.isInf = false
  cases same : value.toModel.unpack with
  | infinity sign =>
    rw [same] at unpacked
    cases unpacked
  | _ => rfl

theorem isFinite_of_number {value : Float} (number : value.isNaN = false)
    (bounded : value.isInf = false) : value.isFinite = true := by
  have notNaN : value.toModel.unpack.isNaN = false := number
  have notInf : value.toModel.unpack.isInf = false := bounded
  show value.toModel.unpack.isFinite = true
  cases same : value.toModel.unpack with
  | notANumber =>
    rw [same] at notNaN
    cases notNaN
  | infinity sign =>
    rw [same] at notInf
    cases notInf
  | _ => rfl

theorem rank_of_isInf {value : Float} (infinite : value.isInf = true) :
    rank value = infinityRank := by
  have unpacked : (unpack .binary64 (word value)).isInf = true := infinite
  have full : unpackExponent (word value) = -1#_ := by
    rw [exponent_full_iff, ← Nat.not_lt, ← isFinite_iff]
    intro finite
    rw [isInf_of_isFinite finite] at infinite
    cases infinite
  have zero : unpackMantissa (word value) = 0#_ := by
    refine Decidable.byContradiction fun nonzero => ?_
    rw [unpack_eq, if_pos full, if_neg nonzero] at unpacked
    cases unpacked
  have quotient : rank value / binade = 2047 :=
    (toNat_unpackExponent value).symm.trans (congrArg BitVec.toNat full)
  have remainder : value.toBits.toNat % binade = 0 :=
    (toNat_unpackMantissa (word value)).symm.trans (congrArg BitVec.toNat zero)
  have bits : rank value = value.toBits.toNat % signBit := rfl
  unfold infinityRank binade signBit at *
  omega

/-- There is one float that is no number. -/
theorem eq_of_isNaN {value other : Float} (noNumber : value.isNaN = true)
    (otherNoNumber : other.isNaN = true) : value = other := by
  have bits_eq : ∀ {value : Float}, value.isNaN = true →
      value.toModel.toBits.toBitVec = pack .binary64 .notANumber := by
    intro value noNumber
    have unpacked : (unpack .binary64 value.toModel.toBits.toBitVec).isNaN = true := noNumber
    rw [← pack_unpack value.toModel.toBits.toBitVec value.toModel.valid]
    cases parts : unpack .binary64 value.toModel.toBits.toBitVec with
    | notANumber => rfl
    | _ =>
      rw [parts] at unpacked
      cases unpacked
  have toBits_eq := UInt64.toBitVec_inj.mp ((bits_eq noNumber).trans (bits_eq otherNoNumber).symm)
  obtain ⟨⟨bits, valid⟩⟩ := value
  obtain ⟨⟨otherBits, otherValid⟩⟩ := other
  cases toBits_eq
  rfl

/-! ### Floats of finite ranks -/

theorem toNat_toBits_ofRank (negative : Bool) {rank : Nat} (finite : rank < infinityRank) :
    (ofRank negative rank).toBits.toNat = if negative then signBit + rank else rank := by
  unfold ofRank
  generalize bits_eq : (if negative then signBit + rank else rank) = bits
  unfold infinityRank binade at finite
  unfold signBit at bits_eq
  have bound : bits < 2 ^ 64 := by split at bits_eq <;> omega
  have toNat_eq : (BitVec.ofNat Format.binary64.numBits bits).toNat = bits :=
    Nat.mod_eq_of_lt bound
  have notFull : unpackExponent (BitVec.ofNat Format.binary64.numBits bits) ≠ -1#_ := by
    intro full
    have same := congrArg BitVec.toNat full
    rw [toNat_unpackExponent_eq, toNat_eq] at same
    have all : bits / binade % 2048 = 2047 := same
    unfold binade at all
    split at bits_eq <;> omega
  have packed := pack_unpack _ ⟨fun full => absurd full notFull⟩
  exact (congrArg BitVec.toNat packed).trans toNat_eq

theorem rank_ofRank (negative : Bool) {rank : Nat} (finite : rank < infinityRank) :
    Binary.rank (ofRank negative rank) = rank := by
  rw [Binary.rank, toNat_toBits_ofRank negative finite]
  unfold infinityRank binade at finite
  unfold signBit
  split <;> omega

theorem isNegative_ofRank (negative : Bool) {rank : Nat} (finite : rank < infinityRank) :
    isNegative (ofRank negative rank) = negative := by
  have below : rank < signBit := Nat.lt_trans finite (by decide)
  rw [isNegative, toNat_toBits_ofRank negative finite]
  cases negative with
  | false => exact decide_eq_false (Nat.not_le_of_lt below)
  | true => exact decide_eq_true (Nat.le_add_right _ _)

theorem isFinite_ofRank (negative : Bool) {rank : Nat} (finite : rank < infinityRank) :
    (ofRank negative rank).isFinite = true := by
  rw [isFinite_iff, rank_ofRank negative finite]
  exact finite

/-- The sign bit apart, a float has the parts of its rank. -/
theorem parts_ofRank (negative : Bool) {rank : Nat} (finite : rank < infinityRank) :
    unpackExponent (word (ofRank negative rank)) = BitVec.ofNat 11 (rank / binade) ∧
      unpackMantissa (word (ofRank negative rank)) = BitVec.ofNat 52 rank ∧
      Sign.ofBitVec (unpackSign (word (ofRank negative rank))) =
        if negative then .negative else .positive := by
  have toNat_word : (word (ofRank negative rank)).toNat =
      if negative then signBit + rank else rank := toNat_toBits_ofRank negative finite
  refine ⟨BitVec.eq_of_toNat_eq ?_, BitVec.eq_of_toNat_eq ?_, ?_⟩
  · rw [toNat_unpackExponent_eq, toNat_word]
    show _ = rank / binade % 2048
    unfold infinityRank at finite
    unfold binade at *
    unfold signBit
    split <;> omega
  · rw [toNat_unpackMantissa, toNat_word]
    show _ = rank % binade
    unfold binade signBit
    split <;> omega
  · have below : rank < signBit := Nat.lt_trans finite (by decide)
    rw [unpackSign_eq, toNat_word]
    cases negative with
    | false => exact congrArg Sign.ofBitVec (if_neg (Nat.not_le_of_lt below))
    | true => exact congrArg Sign.ofBitVec (if_pos (Nat.le_add_right _ _))

/-- A nonzero finite float is unpacked into its sign and the magnitude of its rank. -/
theorem unpack_ofRank {rank : Nat} (positive : 0 < rank) (finite : rank < infinityRank) :
    ∃ nonzero, ∀ negative, (ofRank negative rank).toModel.unpack =
      .finite (if negative then .negative else .positive) (magnitude rank).significand
        (magnitude rank).exponent nonzero := by
  have unpacked : ∀ negative, (ofRank negative rank).toModel.unpack =
      unpack .binary64 (word (ofRank negative rank)) := fun _ => rfl
  have notFull : BitVec.ofNat 11 (rank / binade) ≠ -1#_ := by
    intro full
    have all : rank / binade % 2048 = 2047 := congrArg BitVec.toNat full
    unfold infinityRank at finite
    unfold binade at *
    omega
  have biased_eq : (BitVec.ofNat 11 (rank / binade)).toNat = rank / binade := by
    refine Nat.mod_eq_of_lt (Nat.lt_of_lt_of_le (m := 2047) ?_ (by decide))
    exact (Nat.div_lt_iff_lt_mul (by decide)).mpr finite
  by_cases subnormal : rank < binade
  · have float : magnitude rank = ⟨rank, leastExponent⟩ := if_pos subnormal
    have noExponent : rank / binade = 0 := Nat.div_eq_of_lt subnormal
    have mantissa_toNat : (BitVec.ofNat 52 rank).toNat = rank := Nat.mod_eq_of_lt subnormal
    have nonzero : BitVec.ofNat 52 rank ≠ 0#_ := fun zero =>
      absurd (mantissa_toNat.symm.trans (congrArg BitVec.toNat zero)) (Nat.ne_of_gt positive)
    rw [float]
    refine ⟨positive, fun negative => ?_⟩
    obtain ⟨exponent_eq, mantissa_eq, sign_eq⟩ := parts_ofRank negative finite
    rw [unpacked, unpack_eq, if_neg (exponent_eq ▸ notFull),
      if_pos (exponent_eq.trans (by rw [noExponent])), dif_neg (mantissa_eq ▸ nonzero),
      UnpackedFloat.finite.injEq, exponent_eq, mantissa_eq, biased_eq, mantissa_toNat, noExponent]
    exact ⟨sign_eq, rfl, rfl⟩
  · have float : magnitude rank =
        ⟨binade + rank % binade, leastExponent + (rank / binade - 1 : Nat)⟩ := if_neg subnormal
    have places : 0 < rank / binade := Nat.div_pos (Nat.le_of_not_lt subnormal) (by decide)
    have notEmpty : BitVec.ofNat 11 (rank / binade) ≠ 0#_ := fun empty =>
      absurd (biased_eq.symm.trans (congrArg BitVec.toNat empty)) (Nat.ne_of_gt places)
    have exponent_toInt : ((rank / binade : Nat) : Int) - (1023 + 52) =
        leastExponent + (rank / binade - 1 : Nat) := by
      unfold leastExponent
      omega
    rw [float]
    refine ⟨Nat.add_pos_left (by decide) _, fun negative => ?_⟩
    obtain ⟨exponent_eq, mantissa_eq, sign_eq⟩ := parts_ofRank negative finite
    rw [unpacked, unpack_eq, if_neg (exponent_eq ▸ notFull), if_neg (exponent_eq ▸ notEmpty),
      UnpackedFloat.finite.injEq, exponent_eq, mantissa_eq, biased_eq, toNat_implicit]
    exact ⟨sign_eq, rfl, exponent_toInt⟩

/-- A difference from zero has the other sign and nothing else changed. -/
theorem zero_sub_ofRank {rank : Nat} (positive : 0 < rank) (finite : rank < infinityRank) :
    0.0 - ofRank false rank = ofRank true rank := by
  obtain ⟨nonzero, unpacked⟩ := unpack_ofRank positive finite
  have zero : (0.0 : Float).toModel.unpack = .zero .positive := by rfl
  have difference : 0.0 - ofRank false rank =
      .ofModel (.pack (.sub .binary64 (0.0 : Float).toModel.unpack
        (ofRank false rank).toModel.unpack)) := rfl
  rw [difference, zero, unpacked]
  have packed : Float.ofModel (.pack (ofRank true rank).toModel.unpack) = ofRank true rank :=
    ofBits_toBits (ofRank true rank)
  rw [unpacked] at packed
  exact packed

/-- A finite float equals zero when its rank is zero, whatever its sign. -/
theorem beq_zero_iff {value : Float} (finite : value.isFinite = true) :
    (value == 0.0) = true ↔ rank value = 0 := by
  rw [isFinite_iff] at finite
  have whole := ofRank_rank value
  generalize isNegative value = negative at whole
  constructor
  · intro equal
    refine Nat.eq_zero_of_not_pos fun positive => ?_
    obtain ⟨nonzero, unpacked⟩ := unpack_ofRank positive finite
    rw [← whole] at equal
    have compared : (UnpackedFloat.compare (ofRank negative (rank value)).toModel.unpack
      (0.0 : Float).toModel.unpack == some .eq) = true := equal
    rw [unpacked, show (0.0 : Float).toModel.unpack = .zero .positive from rfl] at compared
    cases negative <;> cases compared
  · intro zero
    rw [zero] at whole
    rw [← whole]
    cases negative <;> decide

/-- Only the two zeros equal zero. -/
theorem ofRank_zero_of_beq {value : Float} (number : value.isNaN = false)
    (zero : (value == 0.0) = true) : ofRank (isNegative value) 0 = value := by
  have whole := ofRank_rank value
  cases infinite : value.isInf with
  | true =>
    have different : ∀ negative, (ofRank negative infinityRank == 0.0) = false := by decide
    rw [rank_of_isInf infinite] at whole
    rw [← whole, different] at zero
    cases zero
  | false =>
    rwa [(beq_zero_iff (isFinite_of_number number infinite)).mp zero] at whole

theorem beq_self {value : Float} (number : value.isNaN = false) : (value == value) = true := by
  show (value.toModel.unpack.compare value.toModel.unpack == some .eq) = true
  have unpacked : value.toModel.unpack.isNaN = false := number
  generalize value.toModel.unpack = parts at unpacked ⊢
  cases parts with
  | finite sign mantissa exponent nonzero =>
    have sameExponent : compare exponent exponent = .eq := Std.ReflCmp.compare_self
    have sameMantissa : compare mantissa mantissa = .eq := Std.ReflCmp.compare_self
    have equal : (compare exponent exponent).then (compare mantissa mantissa) = .eq := by
      rw [sameExponent, sameMantissa]
      rfl
    cases sign with
    | positive => exact beq_iff_eq.mpr (congrArg some equal)
    | negative => exact beq_iff_eq.mpr (congrArg (fun order : Ordering => some order.swap) equal)
  | zero sign => rfl
  | infinity sign => cases sign <;> rfl
  | notANumber => cases unpacked

/-! ### Order -/

/-- Of two ranks the greater one has the greater exponent, or with the same exponent the greater
significand. -/
theorem magnitude_lt {lower upper : Nat} (less : lower < upper) :
    (magnitude lower).exponent < (magnitude upper).exponent ∨
      (magnitude lower).exponent = (magnitude upper).exponent ∧
        (magnitude lower).significand < (magnitude upper).significand := by
  unfold magnitude leastExponent
  split <;> split
  all_goals
    unfold binade at *
    dsimp only
    omega

theorem compare_magnitude (left right : Nat) :
    (compare (magnitude left).exponent (magnitude right).exponent).then
        (compare (magnitude left).significand (magnitude right).significand) =
      compare left right := by
  rcases Nat.lt_trichotomy left right with less | rfl | greater
  · rw [Nat.compare_eq_lt.mpr less]
    rcases magnitude_lt less with exponent | ⟨exponent, significand⟩
    · rw [Int.compare_eq_lt.mpr exponent]
      rfl
    · rw [Int.compare_eq_eq.mpr exponent, Nat.compare_eq_lt.mpr significand]
      rfl
  · rw [Int.compare_eq_eq.mpr rfl, Nat.compare_eq_eq.mpr rfl, Nat.compare_eq_eq.mpr rfl]
    rfl
  · rw [Nat.compare_eq_gt.mpr greater]
    rcases magnitude_lt greater with exponent | ⟨exponent, significand⟩
    · rw [Int.compare_eq_gt.mpr exponent]
      rfl
    · rw [Int.compare_eq_eq.mpr exponent.symm, Nat.compare_eq_gt.mpr significand]
      rfl

/-- Positive finite floats are ordered as their ranks. -/
theorem compare_ofRank {left right : Nat} (leftPositive : 0 < left)
    (leftFinite : left < infinityRank) (rightPositive : 0 < right)
    (rightFinite : right < infinityRank) :
    UnpackedFloat.compare (ofRank false left).toModel.unpack (ofRank false right).toModel.unpack =
      some (compare left right) := by
  obtain ⟨_, leftUnpacked⟩ := unpack_ofRank leftPositive leftFinite
  obtain ⟨_, rightUnpacked⟩ := unpack_ofRank rightPositive rightFinite
  rw [leftUnpacked, rightUnpacked, ← compare_magnitude]
  rfl

theorem ofRank_le_iff {left right : Nat} (leftPositive : 0 < left)
    (leftFinite : left < infinityRank) (rightPositive : 0 < right)
    (rightFinite : right < infinityRank) :
    ofRank false left ≤ ofRank false right ↔ left ≤ right := by
  have compared : ofRank false left ≤ ofRank false right ↔
      (UnpackedFloat.compare (ofRank false left).toModel.unpack
        (ofRank false right).toModel.unpack).any Ordering.isLE = true := decide_eq_true_iff
  rw [compared, compare_ofRank leftPositive leftFinite rightPositive rightFinite, Option.any_some,
    Nat.isLE_compare]

theorem ofRank_lt_iff {left right : Nat} (leftPositive : 0 < left)
    (leftFinite : left < infinityRank) (rightPositive : 0 < right)
    (rightFinite : right < infinityRank) :
    ofRank false left < ofRank false right ↔ left < right := by
  have compared : ofRank false left < ofRank false right ↔
      (UnpackedFloat.compare (ofRank false left).toModel.unpack
        (ofRank false right).toModel.unpack == some .lt) = true := decide_eq_true_iff
  rw [compared, compare_ofRank leftPositive leftFinite rightPositive rightFinite, beq_iff_eq,
    Option.some.injEq, Nat.compare_eq_lt]

/-- The absolute value of a nonzero finite float has its rank and no sign. -/
theorem abs_eq {value : Float} (finite : value.isFinite = true) (nonzero : rank value ≠ 0) :
    value.abs = ofRank false (rank value) := by
  rw [isFinite_iff] at finite
  obtain ⟨_, unpacked⟩ := unpack_ofRank (Nat.pos_of_ne_zero nonzero) finite
  calc value.abs
      = (ofRank (isNegative value) (rank value)).abs := by rw [ofRank_rank]
    _ = .ofModel (.pack (ofRank (isNegative value) (rank value)).toModel.unpack.abs) := rfl
    _ = .ofModel (.pack (ofRank false (rank value)).toModel.unpack) := by
      rw [unpacked, unpacked]
      rfl
    _ = ofRank false (rank value) := ofBits_toBits _

end DeskCalculator.Binary
