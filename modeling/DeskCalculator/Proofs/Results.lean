/-
This file proves that the result text of a float loses nothing but the sign of
a zero. It is read back as the float, and it is written in one of two forms: up
to a magnitude of `1e21` and down to a millionth in digits with an optional
point, and beyond with one digit before the point and an exponent. Neither form
holds a zero that could be left out, since the shortest decimal does not end
with one and its exponent is not zero so far from one.
-/

import DeskCalculator.Proofs.Coarsest

namespace DeskCalculator

open Binary (rank isNegative ofRank infinityRank binade leastExponent)

/-! ### First and last digits -/

theorem head?_toDigits {value : ℕ} (positive : 0 < value) :
    (Nat.toDigits 10 value).head? ≠ some '0' := by
  induction value using Nat.strongRecOn with
  | ind value inductionHypothesis =>
    rw [Nat.toDigits_eq_if (by decide)]
    split
    · rename_i single
      have digits : ∀ digit < 10, 0 < digit → [digit.digitChar].head? ≠ some '0' := by decide
      exact digits value single positive
    · rename_i long
      rw [List.head?_append_of_ne_nil _ Nat.toDigits_ne_nil]
      exact inductionHypothesis (value / 10) (by omega) (by omega)

theorem getLast?_toDigits {value : ℕ} (trimmed : value % 10 ≠ 0) :
    (Nat.toDigits 10 value).getLast? ≠ some '0' := by
  have digits : ∀ digit < 10, digit ≠ 0 → digit.digitChar ≠ '0' := by decide
  have last := digits (value % 10) (Nat.mod_lt _ (by decide)) trimmed
  rw [Nat.toDigits_eq_if (by decide)]
  split
  · rename_i single
    rw [Nat.mod_eq_of_lt single] at last
    simpa using last
  · simpa using last

/-! ### Far from one -/

namespace Decimal

/-- The exponent of the leading digit is that of the greatest power of ten up to the decimal. -/
theorem leadingExponent_bounds {decimal : Decimal} (positive : 0 < decimal.coefficient) :
    (10 : ℚ) ^ decimal.leadingExponent ≤ decimal.coefficient * 10 ^ decimal.exponent ∧
      (decimal.coefficient : ℚ) * 10 ^ decimal.exponent < 10 ^ (decimal.leadingExponent + 1) := by
  have power : (0 : ℚ) < 10 ^ decimal.exponent := by positivity
  have length_pos : 0 < decimal.digits.length := Nat.length_toDigits_pos
  have low : (10 : ℚ) ^ (decimal.digits.length - 1) ≤ decimal.coefficient := by
    exact_mod_cast pow_length_toDigits_le positive
  have high : (decimal.coefficient : ℚ) < 10 ^ decimal.digits.length := by
    exact_mod_cast lt_pow_length_toDigits decimal.coefficient
  have leading_eq : decimal.leadingExponent =
      ((decimal.digits.length - 1 : ℕ) : ℤ) + decimal.exponent := by
    unfold leadingExponent
    omega
  have next_eq : decimal.leadingExponent + 1 =
      (decimal.digits.length : ℤ) + decimal.exponent := by
    unfold leadingExponent
    omega
  rw [next_eq, leading_eq, zpow_add₀ (by norm_num), zpow_add₀ (by norm_num), zpow_natCast,
    zpow_natCast]
  exact ⟨mul_le_mul_of_nonneg_right low power.le, mul_lt_mul_of_pos_right high power⟩

end Decimal

namespace Text

/-- The rank of a float decides whether its result text has an exponent. -/
theorem isPositional_iff {value : Float} (finite : value.isFinite = true)
    (nonzero : rank value ≠ 0) : isPositional value = true ↔
      rank leastPositional ≤ rank value ∧ rank value < rank leastScientific := by
  have positive := Nat.pos_of_ne_zero nonzero
  have below := (Binary.isFinite_iff value).mp finite
  have least : leastPositional = ofRank false (rank leastPositional) := by decide
  have greatest : leastScientific = ofRank false (rank leastScientific) := by decide
  have bounds : 0 < rank leastPositional ∧ rank leastPositional < infinityRank ∧
      0 < rank leastScientific ∧ rank leastScientific < infinityRank := by decide
  obtain ⟨least_pos, least_finite, greatest_pos, greatest_finite⟩ := bounds
  rw [isPositional, Bool.and_eq_true, decide_eq_true_iff, decide_eq_true_iff,
    Binary.abs_eq finite nonzero, least, greatest,
    Binary.ofRank_le_iff least_pos least_finite positive below,
    Binary.ofRank_lt_iff positive below greatest_pos greatest_finite, ← least, ← greatest]

/-- An exponent is only written where it is not zero. -/
theorem leadingExponent_ne_zero {value : Float} (finite : value.isFinite = true)
    (nonzero : rank value ≠ 0) (scientific : isPositional value = false) :
    (Decimal.shortest .up (rank value)).leadingExponent ≠ 0 := by
  have positive := Nat.pos_of_ne_zero nonzero
  have holds := Decimal.shortest_holds .up positive
  have trimmed := Decimal.shortest_coefficient_mod_ten .up positive
  obtain ⟨low, high⟩ := Decimal.leadingExponent_bounds
    (Nat.pos_of_ne_zero fun zero => trimmed (by rw [zero]))
  have outside := mt (isPositional_iff finite nonzero).mpr (Bool.eq_false_iff.mp scientific)
  have least : rank leastPositional < (1002 + 2) * binade := by decide
  have greatest : (1090 + 2) * binade ≤ rank leastScientific := by decide
  intro zero
  rw [zero, zpow_zero] at low
  rw [zero, zero_add, zpow_one] at high
  rcases not_and_or.mp outside with small | large
  · have less := holds.lt_pow positive 1002 (by omega)
    norm_num [leastExponent] at less
    linarith
  · have more := holds.pow_le 1090 (by omega)
    norm_num [leastExponent] at more
    linarith

/-! ### Forms of result texts -/

/-- Digits of a fraction behind their point; without digits there is no point. -/
def pointed : List Char → List Char
  | [] => []
  | fraction => '.' :: fraction

/-- Digits with an optional fraction and without an exponent. The whole part does not start with a
zero unless it is one, and the fraction does not end with a zero. -/
def IsPlainForm (text : String) : Prop :=
  ∃ negative whole fraction, text.toList = Decimal.signed negative (whole ++ pointed fraction) ∧
    (∀ digit ∈ whole ++ fraction, digit.isDigit = true) ∧ whole ≠ [] ∧
    (1 < whole.length → whole.head? ≠ some '0') ∧ fraction.getLast? ≠ some '0'

/-- One digit with an optional fraction and an exponent whose sign is always written. Neither the
digit nor the exponent starts with a zero, and the fraction does not end with one. -/
def IsScientificForm (text : String) : Prop :=
  ∃ negative lead fraction sign places,
    text.toList = Decimal.signed negative (lead :: pointed fraction ++ 'e' :: sign :: places) ∧
    (∀ digit ∈ lead :: fraction ++ places, digit.isDigit = true) ∧ lead ≠ '0' ∧
    fraction.getLast? ≠ some '0' ∧ (sign = '+' ∨ sign = '-') ∧ places ≠ [] ∧
    places.head? ≠ some '0'

theorem mem_signed {negative : Bool} {magnitude : List Char} {char : Char} :
    char ∈ Decimal.signed negative magnitude ↔
      negative = true ∧ char = '-' ∨ char ∈ magnitude := by
  cases negative <;> simp [Decimal.signed]

theorem isDigit_or_eq_point {fraction : List Char}
    (areDigits : ∀ digit ∈ fraction, digit.isDigit = true) :
    ∀ char ∈ pointed fraction, char.isDigit = true ∨ char = '.' := by
  intro char member
  cases fraction with
  | nil => cases member
  | cons first rest =>
    rcases List.mem_cons.mp member with point | digit
    · exact .inr point
    · exact .inl (areDigits char digit)

/-- A text in plain form holds no letter. -/
theorem IsPlainForm.not_scientific {text : String} (plain : IsPlainForm text) :
    ¬IsScientificForm text := by
  rintro ⟨otherSign, lead, otherFraction, sign, places, laid, _⟩
  obtain ⟨negative, whole, fraction, plainly, areDigits, _⟩ := plain
  have letter : 'e' ∈ text.toList := by
    rw [laid]
    exact mem_signed.mpr (.inr (List.mem_append_right _ (.head _)))
  obtain ⟨wholeDigits, fractionDigits⟩ := List.forall_mem_append.mp areDigits
  rw [plainly, mem_signed, List.mem_append] at letter
  rcases letter with ⟨_, sign⟩ | digit | digit
  · cases sign
  · exact absurd (wholeDigits _ digit) (by decide)
  · exact absurd (isDigit_or_eq_point fractionDigits _ digit) (by decide)

theorem isPlainForm_positional {decimal : Decimal} (trimmed : decimal.coefficient % 10 ≠ 0)
    (negative : Bool) :
    IsPlainForm (String.ofList (Decimal.signed negative decimal.positional)) := by
  have nonempty : decimal.digits ≠ [] := Nat.toDigits_ne_nil
  have leads : decimal.digits.head? ≠ some '0' :=
    head?_toDigits (Nat.pos_of_ne_zero fun zero => trimmed (by rw [zero]))
  have ends : decimal.digits.getLast? ≠ some '0' := getLast?_toDigits trimmed
  rcases le_or_gt 0 decimal.exponent with integral | fractional
  · have areDigits := List.forall_mem_append.mpr
      ⟨decimal.digits_areDigits, Numeral.forall_mem_zeros decimal.exponent.toNat⟩
    rw [Numeral.positional_of_nonnegative integral]
    refine ⟨negative, _, [], by rw [String.toList_ofList, pointed, List.append_nil],
      by rwa [List.append_nil], List.append_ne_nil_of_left_ne_nil nonempty _, fun _ => ?_,
      by simp⟩
    rwa [List.head?_append_of_ne_nil _ nonempty]
  · obtain ⟨zeros, whole, fraction, laid, padded, places, whole_nonempty, single⟩ :=
      Numeral.positional_of_negative fractional
    have areDigits : ∀ digit ∈ whole ++ fraction, digit.isDigit = true := by
      rw [padded]
      exact List.forall_mem_append.mpr
        ⟨Numeral.forall_mem_zeros zeros, decimal.digits_areDigits⟩
    have fraction_nonempty : fraction ≠ [] := by
      refine List.ne_nil_of_length_pos ?_
      omega
    refine ⟨negative, whole, fraction, ?_, areDigits, whole_nonempty, fun long => ?_, ?_⟩
    · rw [String.toList_ofList, laid, pointed]
      exact fraction_nonempty
    · rcases single with none | one
      · rw [none, List.replicate_zero, List.nil_append] at padded
        rwa [← padded, List.head?_append_of_ne_nil _ whole_nonempty] at leads
      · omega
    · have last := congrArg List.getLast? padded
      rw [List.getLast?_append_of_ne_nil _ fraction_nonempty,
        List.getLast?_append_of_ne_nil _ nonempty] at last
      rwa [last]

theorem isScientificForm_scientific {decimal : Decimal} (trimmed : decimal.coefficient % 10 ≠ 0)
    (exponent : decimal.leadingExponent ≠ 0) (negative : Bool) :
    IsScientificForm (String.ofList (Decimal.signed negative decimal.scientific)) := by
  have leads : decimal.digits.head? ≠ some '0' :=
    head?_toDigits (Nat.pos_of_ne_zero fun zero => trimmed (by rw [zero]))
  have ends : decimal.digits.getLast? ≠ some '0' := getLast?_toDigits trimmed
  have areDigits := decimal.digits_areDigits
  obtain ⟨lead, fraction, digits_eq⟩ : ∃ lead fraction, decimal.digits = lead :: fraction :=
    List.exists_cons_of_ne_nil Nat.toDigits_ne_nil
  have mantissa_eq : decimal.mantissa = lead :: pointed fraction := by
    unfold Decimal.mantissa
    rw [digits_eq]
    cases fraction <;> rfl
  rw [digits_eq] at leads ends areDigits
  refine ⟨negative, lead, fraction, if decimal.leadingExponent < 0 then '-' else '+',
    Nat.toDigits 10 decimal.leadingExponent.natAbs, ?_, ?_, ?_, ?_, ?_, Nat.toDigits_ne_nil,
    head?_toDigits (Int.natAbs_pos.mpr exponent)⟩
  · rw [String.toList_ofList, Decimal.scientific, mantissa_eq, Decimal.signedDigits]
  · exact List.forall_mem_append.mpr ⟨areDigits, toDigits_areDigits _⟩
  · exact fun zero => leads (congrArg some zero)
  · intro last
    refine ends ?_
    cases fraction with
    | nil => cases last
    | cons first rest => rwa [List.getLast?_cons_cons]
  · split
    · exact .inr rfl
    · exact .inl rfl

/-! ### Reading results back -/

theorem result_of_isNaN {value : Float} (noNumber : value.isNaN = true) :
    result value = "NaN" := by
  unfold result
  rw [noNumber]
  rfl

theorem result_of_isInf {value : Float} (number : value.isNaN = false)
    (infinite : value.isInf = true) :
    result value = if isNegative value then "-Infinity" else "Infinity" := by
  unfold result
  rw [number, infinite]
  rfl

theorem result_of_zero {value : Float} (finite : value.isFinite = true)
    (zero : rank value = 0) : result value = "0" := by
  unfold result
  rw [Binary.isNaN_of_isFinite finite, Binary.isInf_of_isFinite finite]
  simp [zero]

theorem result_of_positional {value : Float} (finite : value.isFinite = true)
    (nonzero : rank value ≠ 0) (positional : isPositional value = true) :
    result value = String.ofList
      (Decimal.signed (isNegative value) (Decimal.shortest .up (rank value)).positional) := by
  unfold result
  rw [Binary.isNaN_of_isFinite finite, Binary.isInf_of_isFinite finite, positional]
  simp [nonzero]

theorem result_of_scientific {value : Float} (finite : value.isFinite = true)
    (nonzero : rank value ≠ 0) (scientific : isPositional value = false) :
    result value = String.ofList
      (Decimal.signed (isNegative value) (Decimal.shortest .up (rank value)).scientific) := by
  unfold result
  rw [Binary.isNaN_of_isFinite finite, Binary.isInf_of_isFinite finite, scientific]
  simp [nonzero]

/-- The digits of the shortest decimal are read as the float in either form. -/
theorem read?_result_of_nonzero {value : Float} (finite : value.isFinite = true)
    (nonzero : rank value ≠ 0) : Numeral.read? (result value) = some value := by
  have below := (Binary.isFinite_iff value).mp finite
  have positive := Nat.pos_of_ne_zero nonzero
  have whole_value := Binary.ofRank_rank value
  have holds := Decimal.shortest_holds .up positive
  cases positional : isPositional value with
  | true =>
    obtain ⟨whole, fraction, layout, layout_value⟩ :=
      Numeral.positional_isLayout (Decimal.shortest .up (rank value))
    rw [← layout_value] at holds
    rw [result_of_positional finite nonzero positional, layout.read?_signed,
      Numeral.nearestDecimal_of_holds layout.digits positive below holds, whole_value]
  | false =>
    rw [← Decimal.digitsValue_digits] at holds
    rw [result_of_scientific finite nonzero positional, Numeral.read?_scientific,
      Numeral.nearestDecimal_of_holds (Decimal.digits_areDigits _) positive below holds,
      whole_value]

theorem read?_result {value : Float} (number : value.isNaN = false) :
    Numeral.read? (result value) = some (if value == 0.0 then 0.0 else value) := by
  cases infinite : value.isInf with
  | true =>
    have whole := Binary.ofRank_rank value
    rw [Binary.rank_of_isInf infinite] at whole
    rw [result_of_isInf number infinite, ← whole]
    cases isNegative value <;> decide
  | false =>
    have finite := Binary.isFinite_of_number number infinite
    by_cases zero : rank value = 0
    · rw [result_of_zero finite zero, if_pos ((Binary.beq_zero_iff finite).mpr zero)]
      decide
    · rw [read?_result_of_nonzero finite zero, if_neg (mt (Binary.beq_zero_iff finite).mp zero)]

theorem read?_result_of_isNaN {value : Float} (noNumber : value.isNaN = true) :
    Numeral.read? (result value) = some (0.0 / 0.0) := by
  rw [result_of_isNaN noNumber]
  decide

/-- Numbers with one result text are read back as the same float, so they are equal. -/
theorem beq_of_result_eq {value other : Float} (number : value.isNaN = false)
    (otherNumber : other.isNaN = false) (same : result value = result other) :
    (value == other) = true := by
  have readBack := read?_result number
  rw [same, read?_result otherNumber, Option.some.injEq] at readBack
  by_cases zero : (value == 0.0) = true
  · by_cases otherZero : (other == 0.0) = true
    · rw [← Binary.ofRank_zero_of_beq number zero,
        ← Binary.ofRank_zero_of_beq otherNumber otherZero]
      cases isNegative value <;> cases isNegative other <;> decide
    · rw [if_pos zero, if_neg otherZero] at readBack
      exact absurd (by rw [readBack]; decide) otherZero
  · by_cases otherZero : (other == 0.0) = true
    · rw [if_neg zero, if_pos otherZero] at readBack
      exact absurd (by rw [← readBack]; decide) zero
    · rw [if_neg zero, if_neg otherZero] at readBack
      rw [readBack]
      exact Binary.beq_self number

/-- What shares its text with no number is no number. -/
theorem isNaN_of_result_eq {value other : Float} (noNumber : value.isNaN = true)
    (same : result value = result other) : other.isNaN = true := by
  cases number : other.isNaN with
  | true => rfl
  | false =>
    have readBack := read?_result number
    rw [← same, read?_result_of_isNaN noNumber, Option.some.injEq] at readBack
    split at readBack
    · exact absurd readBack (by decide)
    · rw [← readBack] at number
      cases number

theorem result_ne_signed_zero (value : Float) : result value ≠ "-0" := by
  intro signed
  cases number : value.isNaN with
  | true =>
    rw [result_of_isNaN number] at signed
    exact absurd signed (by decide)
  | false =>
    have readBack := read?_result number
    rw [signed, show Numeral.read? "-0" = some (-0.0) by decide,
      Option.some.injEq] at readBack
    split at readBack
    · exact absurd readBack (by decide)
    · rename_i nonzero
      exact nonzero (by rw [← readBack]; decide)

/-- The form of a result text follows from the magnitude of the float. -/
theorem result_form {value : Float} (finite : value.isFinite = true) :
    (IsPlainForm (result value) ↔ (value == 0.0) = true ∨ isPositional value = true) ∧
      (IsScientificForm (result value) ↔
        ¬((value == 0.0) = true ∨ isPositional value = true)) := by
  have decided : ((value == 0.0) = true ∨ isPositional value = true) ∧
        IsPlainForm (result value) ∨
      ¬((value == 0.0) = true ∨ isPositional value = true) ∧
        IsScientificForm (result value) := by
    rw [Binary.beq_zero_iff finite]
    by_cases zero : rank value = 0
    · refine .inl ⟨.inl zero, false, ['0'], [], ?_, List.forall_mem_singleton.mpr rfl, by simp,
        by simp, by simp⟩
      rw [result_of_zero finite zero]
      rfl
    · have trimmed := Decimal.shortest_coefficient_mod_ten .up (Nat.pos_of_ne_zero zero)
      cases positional : isPositional value with
      | true =>
        refine .inl ⟨.inr rfl, ?_⟩
        rw [result_of_positional finite zero positional]
        exact isPlainForm_positional trimmed _
      | false =>
        refine .inr ⟨by simp [zero], ?_⟩
        rw [result_of_scientific finite zero positional]
        exact isScientificForm_scientific trimmed (leadingExponent_ne_zero finite zero positional) _
  rcases decided with ⟨written, plain⟩ | ⟨beyond, scientific⟩
  · exact ⟨iff_of_true plain written, iff_of_false plain.not_scientific (not_not_intro written)⟩
  · exact ⟨iff_of_false (fun plain => plain.not_scientific scientific) beyond,
      iff_of_true scientific beyond⟩

/-- The result text of a float is read back as the float, up to the sign of a zero, so values with
one text are equal or both no numbers. The text of a finite float is in plain form where the float
is zero or its magnitude is from a millionth up to `1e21`, in scientific form otherwise, and never
a zero with a sign. -/
theorem result_reads_back (value : Float) :
    (∃ found, Numeral.read? (result value) = some found ∧
      (value.isNaN = true → found.isNaN = true) ∧
      (value.isNaN = false → found = if value == 0.0 then 0.0 else value)) ∧
    (∀ other, result value = result other →
      (value == other) = true ∨ value.isNaN = true ∧ other.isNaN = true) ∧
    (value.isFinite = true →
      (IsPlainForm (result value) ↔
        (value == 0.0) = true ∨ 1e-6 ≤ value.abs ∧ value.abs < 1e21) ∧
      (IsScientificForm (result value) ↔
        ¬((value == 0.0) = true ∨ 1e-6 ≤ value.abs ∧ value.abs < 1e21))) ∧
    result value ≠ "-0" := by
  have written : isPositional value = true ↔ 1e-6 ≤ value.abs ∧ value.abs < 1e21 := by
    rw [isPositional, Bool.and_eq_true, decide_eq_true_iff, decide_eq_true_iff]
    rfl
  rw [← written]
  refine ⟨?_, fun other same => ?_, result_form, result_ne_signed_zero value⟩
  · cases number : value.isNaN with
    | true => exact ⟨_, read?_result_of_isNaN number, fun _ => by decide, nofun⟩
    | false => exact ⟨_, read?_result number, nofun, fun _ => rfl⟩
  · cases number : value.isNaN with
    | true => exact .inr ⟨rfl, isNaN_of_result_eq number same⟩
    | false =>
      cases otherNumber : other.isNaN with
      | true =>
        have noNumber := isNaN_of_result_eq otherNumber same.symm
        rw [number] at noNumber
        cases noNumber
      | false => exact .inl (beq_of_result_eq number otherNumber same)

/-- The two zeros share their text and are equal. The text of `1e21` has an exponent and is read
back. -/
theorem result_reads_back_zeros_large :
    ((-0.0 : Float) == 0.0) = true ∧ (1e21 : Float).isFinite = true ∧
      Numeral.read? (result 1e21) = some 1e21 ∧ IsScientificForm (result 1e21) := by
  obtain ⟨_, zeros, _⟩ := result_reads_back (-0.0)
  obtain ⟨⟨found, readBack, _, found_eq⟩, _, forms, _⟩ := result_reads_back 1e21
  have finite : (1e21 : Float).isFinite = true := by decide
  refine ⟨?_, finite, ?_, (forms finite).2.mpr (by decide)⟩
  · exact (zeros 0.0 (by decide)).resolve_right (by decide +kernel)
  · rw [readBack, found_eq (by decide)]
    decide

end Text

end DeskCalculator
