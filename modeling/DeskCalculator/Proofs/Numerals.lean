/-
This file proves that the plain text of a float reads back as the float. The
text is laid out in digits with an optional point, whose value is that of the
shortest decimal; the leading digit keeps it in the range in which numerals are
rounded, and the shortest decimal lies in the basin of the float.
-/

import DeskCalculator.Decimal.Numeral
import DeskCalculator.Decimal.Text
import DeskCalculator.Proofs.Bits
import DeskCalculator.Proofs.Lexing
import DeskCalculator.Proofs.Shortest

namespace DeskCalculator

/-! ### The value of digits -/

theorem digitsValue_eq (digits : List Char) : digitsValue digits = Nat.ofDigitChars 10 digits 0 :=
  Nat.ofDigitChars_eq_foldl.symm

theorem digitsValue_cons (digit : Char) (digits : List Char) :
    digitsValue (digit :: digits) =
      (digit.toNat - '0'.toNat) * 10 ^ digits.length + digitsValue digits := by
  rw [digitsValue_eq, digitsValue_eq, Nat.ofDigitChars_cons, Nat.ofDigitChars_eq_ofDigitChars_zero,
    Nat.mul_zero, Nat.zero_add, Nat.mul_comm]

theorem digitsValue_append_zeros (digits : List Char) (zeros : ℕ) :
    digitsValue (digits ++ List.replicate zeros '0') = digitsValue digits * 10 ^ zeros := by
  rw [digitsValue_eq, digitsValue_eq, Nat.ofDigitChars_append, Nat.ofDigitChars_replicate_zero,
    Nat.mul_comm]

theorem digitsValue_zeros_append (zeros : ℕ) (digits : List Char) :
    digitsValue (List.replicate zeros '0' ++ digits) = digitsValue digits := by
  rw [digitsValue_eq, digitsValue_eq, Nat.ofDigitChars_append, Nat.ofDigitChars_replicate_zero,
    Nat.mul_zero]

theorem digitsValue_dropWhile_zeros (digits : List Char) :
    digitsValue (digits.dropWhile (· == '0')) = digitsValue digits := by
  induction digits with
  | nil => rfl
  | cons digit digits inductionHypothesis =>
    by_cases zero : digit = '0'
    · subst zero
      rw [List.dropWhile_cons_of_pos rfl, inductionHypothesis, digitsValue_cons, Nat.sub_self,
        Nat.zero_mul, Nat.zero_add]
    · rw [List.dropWhile_cons_of_neg (by simpa using zero)]

theorem digitsValue_lt {digits : List Char} (areDigits : ∀ digit ∈ digits, digit.isDigit = true) :
    digitsValue digits < 10 ^ digits.length := by
  induction digits with
  | nil => decide
  | cons digit digits inductionHypothesis =>
    have lower := inductionHypothesis fun other member => areDigits other (.tail _ member)
    have digit_le : digit.toNat - '0'.toNat ≤ 9 := by
      have bound := (Char.isDigit_iff_toNat.mp (areDigits digit (.head _))).2
      exact Nat.sub_le_of_le_add bound
    rw [digitsValue_cons, List.length_cons, Nat.pow_succ]
    have scaled := Nat.mul_le_mul_right (10 ^ digits.length) digit_le
    omega

/-- Digits without a leading zero have a leading power of ten. -/
theorem pow_le_digitsValue {digit : Char} (digits : List Char) (isDigit : digit.isDigit = true)
    (nonzero : digit ≠ '0') : 10 ^ digits.length ≤ digitsValue (digit :: digits) := by
  have positive : 1 ≤ digit.toNat - '0'.toNat := by
    have bound := (Char.isDigit_iff_toNat.mp isDigit).1
    have different : digit.toNat ≠ '0'.toNat := fun same => nonzero (Char.toNat_inj.mp same)
    omega
  rw [digitsValue_cons]
  have scaled := Nat.mul_le_mul_right (10 ^ digits.length) positive
  omega

theorem toDigits_areDigits (value : ℕ) : ∀ digit ∈ Nat.toDigits 10 value, digit.isDigit = true :=
  fun _ member => Nat.isDigit_of_mem_toDigits (by decide) (by decide) member

theorem isEmpty_toDigits (value : ℕ) : (Nat.toDigits 10 value).isEmpty = false := by
  rw [List.isEmpty_eq_false_iff]
  exact Nat.toDigits_ne_nil

theorem digitsValue_toDigits (value : ℕ) : digitsValue (Nat.toDigits 10 value) = value := by
  rw [digitsValue_eq]
  exact Nat.ofDigitChars_ten_toDigits

theorem lt_pow_length_toDigits (value : ℕ) : value < 10 ^ (Nat.toDigits 10 value).length :=
  (Nat.length_toDigits_le_iff (by decide) Nat.length_toDigits_pos).mp (Nat.le_refl _)

theorem pow_length_toDigits_le {value : ℕ} (positive : 0 < value) :
    10 ^ ((Nat.toDigits 10 value).length - 1) ≤ value := by
  have some : 0 < (Nat.toDigits 10 value).length := Nat.length_toDigits_pos
  refine Nat.le_of_not_lt fun less => ?_
  rcases Nat.eq_zero_or_pos ((Nat.toDigits 10 value).length - 1) with single | more
  · rw [single, Nat.pow_zero] at less
    omega
  · have shorter := (Nat.length_toDigits_le_iff (by decide) more).mpr less
    omega

theorem Decimal.digits_areDigits (decimal : Decimal) :
    ∀ digit ∈ decimal.digits, digit.isDigit = true :=
  toDigits_areDigits decimal.coefficient

theorem Decimal.digitsValue_digits (decimal : Decimal) :
    digitsValue decimal.digits = decimal.coefficient :=
  digitsValue_toDigits decimal.coefficient

namespace Numeral

open Binary (infinityRank ofRank)

/-! ### Digits near a float -/

theorem ten_le_two : (10 : ℚ) ^ leastTen ≤ 2 ^ (-1075 : ℤ) := by
  have powers : 2 ^ 1075 ≤ 10 ^ 324 := by decide +kernel
  rw [leastTen, zpow_neg, zpow_neg]
  exact inv_anti₀ (by positivity) (by exact_mod_cast powers)

theorem two_le_ten : (2 : ℚ) ^ (1024 : ℤ) ≤ 10 ^ (greatestTen + 1) := by
  have powers : 2 ^ 1024 ≤ 10 ^ 309 := by decide +kernel
  show (2 : ℚ) ^ ((1024 : ℕ) : ℤ) ≤ 10 ^ ((309 : ℕ) : ℤ)
  rw [zpow_natCast, zpow_natCast]
  exact_mod_cast powers

/-- Digits whose value lies in the basin of a finite rank are read as the float of this rank: the
leading digit is in the range of floats, and the quotient is rounded to the rank. -/
theorem nearestDecimal_of_holds {coefficient : List Char} {exponent : ℤ} {rank : ℕ}
    (areDigits : ∀ digit ∈ coefficient, digit.isDigit = true) (positive : 0 < rank)
    (finite : rank < infinityRank)
    (holds : (Decimal.Basin.ofRank rank).Holds (digitsValue coefficient * 10 ^ exponent))
    (negative : Bool) :
    nearestDecimal negative coefficient exponent = ofRank negative rank := by
  obtain ⟨low, high⟩ := holds.range positive finite
  have power : (0 : ℚ) < 10 ^ exponent := by positivity
  have number_pos : (0 : ℚ) < digitsValue coefficient * 10 ^ exponent :=
    lt_of_lt_of_le (zpow_pos (by norm_num) _) low
  have value_pos : 0 < digitsValue coefficient := by
    refine Nat.pos_of_ne_zero fun zero => ?_
    rw [zero, Nat.cast_zero, zero_mul] at number_pos
    exact lt_irrefl _ number_pos
  unfold nearestDecimal
  rw [← digitsValue_dropWhile_zeros] at holds low high value_pos
  have kept : ∀ digit ∈ coefficient.dropWhile (· == '0'), digit.isDigit = true :=
    fun digit member => areDigits digit (List.dropWhile_subset _ member)
  have noZero : ∀ digit ∈ (coefficient.dropWhile (· == '0')).head?, digit ≠ '0' := by
    intro digit head
    have notZero := List.head?_dropWhile_not (· == '0') coefficient
    rw [Option.mem_def.mp head] at notZero
    simpa using notZero
  generalize coefficient.dropWhile (· == '0') = significant at *
  cases significant with
  | nil => exact absurd value_pos (Nat.lt_irrefl _)
  | cons lead digits =>
    have value_low : (10 : ℚ) ^ digits.length ≤ digitsValue (lead :: digits) := by
      exact_mod_cast pow_le_digitsValue digits (kept lead (.head _)) (noZero lead rfl)
    have value_high : (digitsValue (lead :: digits) : ℚ) < 10 ^ (digits.length + 1) := by
      exact_mod_cast digitsValue_lt kept
    have magnitude_low : (10 : ℚ) ^ (digits.length + exponent) ≤
        digitsValue (lead :: digits) * 10 ^ exponent := by
      rw [zpow_add₀ (by norm_num), zpow_natCast]
      exact mul_le_mul_of_nonneg_right value_low power.le
    have magnitude_high : digitsValue (lead :: digits) * (10 : ℚ) ^ exponent <
        10 ^ (digits.length + 1 + exponent) := by
      rw [zpow_add₀ (by norm_num)]
      exact mul_lt_mul_of_pos_right (by exact_mod_cast value_high) power
    have not_small : ¬(((lead :: digits).length : ℤ) + exponent ≤ leastTen) := by
      intro small
      have negligible : (10 : ℚ) ^ (digits.length + 1 + exponent) ≤ 10 ^ leastTen :=
        zpow_le_zpow_right₀ (by norm_num) (by exact_mod_cast small)
      have below := lt_of_lt_of_le magnitude_high (negligible.trans ten_le_two)
      exact absurd low (not_le.mpr below)
    have not_large : ¬(greatestTen + 1 < ((lead :: digits).length : ℤ) + exponent) := by
      intro large
      have huge : (10 : ℚ) ^ (greatestTen + 1) ≤ 10 ^ (digits.length + exponent) := by
        refine zpow_le_zpow_right₀ (by norm_num) ?_
        rw [List.length_cons] at large
        push_cast at large
        omega
      have above := two_le_ten.trans (huge.trans magnitude_low)
      exact absurd high (not_lt.mpr above)
    dsimp only
    rw [if_neg, if_neg not_large]
    · refine congrArg (ofRank negative) ?_
      refine Decimal.nearestRank_of_holds positive finite ?_ (tenTo_pos _) ?_
      · exact Nat.mul_pos value_pos (tenTo_pos _)
      · rwa [Nat.cast_mul, tenTo_eq exponent, ← mul_assoc, mul_div_assoc, div_self, mul_one]
        exact_mod_cast (tenTo_pos _).ne'
    · rw [Bool.or_eq_true, decide_eq_true_iff]
      exact fun either => either.elim Bool.false_ne_true not_small

/-! ### Plain layouts -/

/-- The characters are digits, at least one, and after a point the digits of a fraction; without a
point the fraction is empty. -/
structure IsLayout (chars whole fraction : List Char) : Prop where
  nonempty : whole ≠ []
  whole_digits : ∀ digit ∈ whole, digit.isDigit = true
  fraction_digits : ∀ digit ∈ fraction, digit.isDigit = true
  laid : chars = whole ∧ fraction = [] ∨ chars = whole ++ '.' :: fraction

theorem IsLayout.digits {chars whole fraction : List Char}
    (layout : IsLayout chars whole fraction) :
    ∀ digit ∈ whole ++ fraction, digit.isDigit = true :=
  List.forall_mem_append.mpr ⟨layout.whole_digits, layout.fraction_digits⟩

theorem IsLayout.exists_head {chars whole fraction : List Char}
    (layout : IsLayout chars whole fraction) : ∃ digit more, chars = digit :: more ∧
      digit.isDigit = true ∧ ∀ char ∈ more, Lexeme.isNumeralChar char = true := by
  have numeral : ∀ char ∈ chars, Lexeme.isNumeralChar char = true := by
    intro char member
    rcases layout.laid with ⟨rfl, _⟩ | rfl
    · rw [Lexeme.isNumeralChar, layout.whole_digits char member, Bool.true_or]
    · rcases List.mem_append.mp member with inWhole | inFraction
      · rw [Lexeme.isNumeralChar, layout.whole_digits char inWhole, Bool.true_or]
      · rcases List.mem_cons.mp inFraction with rfl | inFraction
        · rfl
        · rw [Lexeme.isNumeralChar, layout.fraction_digits char inFraction, Bool.true_or]
  obtain ⟨digit, rest, whole_eq⟩ := List.exists_cons_of_ne_nil layout.nonempty
  have isDigit : digit.isDigit = true := layout.whole_digits digit (by rw [whole_eq]; exact .head _)
  obtain ⟨more, chars_eq⟩ : ∃ more, chars = digit :: more := by
    rcases layout.laid with ⟨rfl, _⟩ | rfl
    · exact ⟨rest, whole_eq⟩
    · exact ⟨rest ++ '.' :: fraction, by rw [whole_eq, List.cons_append]⟩
  refine ⟨digit, more, chars_eq, isDigit, fun char member => numeral char ?_⟩
  rw [chars_eq]
  exact .tail _ member

/-- Digits of a layout are read with the exponent of what stands behind them. -/
theorem IsLayout.readDecimal?_append {chars whole fraction : List Char}
    (layout : IsLayout chars whole fraction) {tail : List Char}
    (ended : ∀ next ∈ tail.head?, next.isDigit = false ∧ next ≠ '.') (negative : Bool) :
    Numeral.readDecimal? negative (chars ++ tail) = (readTail? tail).map fun exponent =>
      nearestDecimal negative (whole ++ fraction) (exponent - fraction.length) := by
  have notEmpty : whole.isEmpty = false := by
    rw [List.isEmpty_eq_false_iff]
    exact layout.nonempty
  have noneTaken : tail.takeWhile Char.isDigit = [] := by
    cases tail with
    | nil => rfl
    | cons next rest => exact List.takeWhile_cons_of_neg (by simp [(ended next rfl).1])
  have noneDropped : tail.dropWhile Char.isDigit = tail := by
    cases tail with
    | nil => rfl
    | cons next rest => exact List.dropWhile_cons_of_neg (by simp [(ended next rfl).1])
  have noPoint : splitFraction tail = ([], tail) := by
    cases tail with
    | nil => rfl
    | cons next rest =>
      unfold splitFraction
      split
      · rename_i same
        exact absurd (List.cons.inj same).1 (ended next rfl).2
      · rfl
  unfold Numeral.readDecimal?
  rcases layout.laid with ⟨rfl, rfl⟩ | rfl
  · rw [List.takeWhile_append_of_pos layout.whole_digits,
      List.dropWhile_append_of_pos layout.whole_digits, noneTaken, noneDropped, noPoint]
    simp [notEmpty]
  · rw [List.append_assoc, List.cons_append, List.takeWhile_append_of_pos layout.whole_digits,
      List.dropWhile_append_of_pos layout.whole_digits]
    simp [splitFraction, notEmpty, List.takeWhile_append_of_pos layout.fraction_digits,
      List.dropWhile_append_of_pos layout.fraction_digits, noneTaken, noneDropped]

theorem toLower_of_isDigit {digit : Char} (isDigit : digit.isDigit = true) :
    digit.toLower = digit := by
  have bound := (Char.isDigit_iff_toNat.mp isDigit).2
  unfold Char.toLower
  rw [dif_neg]
  rintro ⟨letter, _⟩
  have above : 'A'.toNat ≤ digit.toNat := letter
  exact absurd (Nat.le_trans above bound) (by decide)

/-- What starts with a digit, after its sign, is none of the words. -/
theorem read?_signed (negative : Bool) {digit : Char} (isDigit : digit.isDigit = true)
    (more : List Char) :
    Numeral.read? (String.ofList (Decimal.signed negative (digit :: more))) =
      readDecimal? negative (digit :: more) := by
  have split : splitSign (Decimal.signed negative (digit :: more)) = (negative, digit :: more) := by
    cases negative with
    | true => rfl
    | false =>
      show splitSign (digit :: more) = _
      unfold splitSign
      split
      · rename_i same
        cases same
        cases isDigit
      · rename_i same
        cases same
        cases isDigit
      · rfl
  have noWord : ∀ (word : String) (letter : Char), word.toList.head? = some letter →
      letter.isDigit = false → String.ofList ((digit :: more).map Char.toLower) ≠ word := by
    rintro _ letter head notDigit rfl
    rw [String.toList_ofList, List.map_cons, List.head?_cons, toLower_of_isDigit isDigit] at head
    rw [← Option.some.inj head, isDigit] at notDigit
    cases notDigit
  unfold Numeral.read?
  rw [String.toList_ofList, split]
  dsimp only
  rw [if_neg, if_neg (noWord nanWord 'n' (by decide) rfl)]
  rw [List.contains_iff_mem]
  intro member
  rcases List.mem_pair.mp member with same | same
  · exact noWord "inf" 'i' (by decide) rfl same
  · exact noWord "infinity" 'i' (by decide) rfl same

/-- A layout with a sign in front of it and an exponent, or nothing, behind it is a numeral. -/
theorem IsLayout.read?_signed_append {chars whole fraction : List Char}
    (layout : IsLayout chars whole fraction) {tail : List Char}
    (ended : ∀ next ∈ tail.head?, next.isDigit = false ∧ next ≠ '.') (negative : Bool) :
    Numeral.read? (String.ofList (Decimal.signed negative (chars ++ tail))) =
      (readTail? tail).map fun exponent =>
        nearestDecimal negative (whole ++ fraction) (exponent - fraction.length) := by
  rw [← layout.readDecimal?_append ended negative]
  obtain ⟨digit, more, rfl, isDigit, _⟩ := layout.exists_head
  exact Numeral.read?_signed negative isDigit (more ++ tail)

theorem IsLayout.read?_signed {chars whole fraction : List Char}
    (layout : IsLayout chars whole fraction) (negative : Bool) :
    Numeral.read? (String.ofList (Decimal.signed negative chars)) =
      some (nearestDecimal negative (whole ++ fraction) (-(fraction.length : ℤ))) := by
  have ended : ∀ next ∈ ([] : List Char).head?, next.isDigit = false ∧ next ≠ '.' := by simp
  have read := layout.read?_signed_append ended negative
  rw [List.append_nil] at read
  rw [read]
  simp [readTail?]

theorem IsLayout.read? {chars whole fraction : List Char}
    (layout : IsLayout chars whole fraction) :
    Numeral.read? (String.ofList chars) =
      some (nearestDecimal false (whole ++ fraction) (-(fraction.length : ℤ))) :=
  layout.read?_signed false

/-- No exponent is spelled in digits and points. -/
theorem readTail?_eq_none {letter : Char} (numeral : Lexeme.isNumeralChar letter = true)
    (rest : List Char) : readTail? (letter :: rest) = none := by
  refine if_neg fun exponent => ?_
  rcases Bool.or_eq_true_iff.mp numeral with isDigit | point
  · rw [toLower_of_isDigit isDigit] at exponent
    rw [exponent] at isDigit
    cases isDigit
  · rw [beq_iff_eq.mp point] at exponent
    cases exponent

/-- Digits and points that start with a digit and are read as a numeral are a layout: they hold
one point at most. -/
theorem exists_isLayout_of_read? {digit : Char} {more : List Char}
    (isDigit : digit.isDigit = true)
    (numeral : ∀ char ∈ more, Lexeme.isNumeralChar char = true)
    (readable : Numeral.read? (String.ofList (digit :: more)) ≠ none) :
    ∃ whole fraction, IsLayout (digit :: more) whole fraction := by
  rw [show Numeral.read? (String.ofList (digit :: more)) = _ from
    read?_signed false isDigit more] at readable
  have whole_eq : (digit :: more).takeWhile Char.isDigit = digit :: more.takeWhile Char.isDigit :=
    List.takeWhile_cons_of_pos isDigit
  have rest_eq : (digit :: more).dropWhile Char.isDigit = more.dropWhile Char.isDigit :=
    List.dropWhile_cons_of_pos isDigit
  have whole_digits : ∀ char ∈ digit :: more.takeWhile Char.isDigit, char.isDigit = true :=
    List.forall_mem_cons.mpr ⟨isDigit, fun _ => List.mem_takeWhile_imp⟩
  have split : more.takeWhile Char.isDigit ++ more.dropWhile Char.isDigit = more :=
    List.takeWhile_append_dropWhile
  have notDigit := List.head?_dropWhile_not Char.isDigit more
  have restNumeral : ∀ char ∈ more.dropWhile Char.isDigit, Lexeme.isNumeralChar char = true :=
    fun char member => numeral char ((List.dropWhile_sublist _).mem member)
  unfold Numeral.readDecimal? at readable
  rw [whole_eq, rest_eq] at readable
  cases rest : more.dropWhile Char.isDigit with
  | nil =>
    rw [rest, List.append_nil] at split
    refine ⟨digit :: more.takeWhile Char.isDigit, [], List.cons_ne_nil _ _, whole_digits,
      List.forall_mem_nil _, .inl ⟨?_, rfl⟩⟩
    rw [split]
  | cons point fraction =>
    rw [rest] at split notDigit readable restNumeral
    obtain ⟨isPoint, fractionNumeral⟩ := List.forall_mem_cons.mp restNumeral
    have pointNotDigit : point.isDigit = false := by simpa using notDigit
    obtain rfl : point = '.' := by simpa [Lexeme.isNumeralChar, pointNotDigit] using isPoint
    have noTail : fraction.dropWhile Char.isDigit = [] := by
      cases tail : fraction.dropWhile Char.isDigit with
      | nil => rfl
      | cons letter behind =>
        have letterNumeral : Lexeme.isNumeralChar letter = true :=
          fractionNumeral letter ((List.dropWhile_sublist _).mem (by rw [tail]; exact .head _))
        refine absurd ?_ readable
        simp [splitFraction, tail, readTail?_eq_none letterNumeral]
    refine ⟨digit :: more.takeWhile Char.isDigit, fraction, List.cons_ne_nil _ _, whole_digits,
      List.dropWhile_eq_nil_iff.mp noTail, .inr ?_⟩
    rw [List.cons_append, split]

/-! ### Layouts of decimals -/

theorem forall_mem_zeros (zeros : ℕ) :
    ∀ digit ∈ List.replicate zeros '0', digit.isDigit = true := by
  intro digit member
  rw [List.eq_of_mem_replicate member]
  rfl

theorem positional_of_nonnegative {decimal : Decimal} (nonnegative : 0 ≤ decimal.exponent) :
    decimal.positional = decimal.digits ++ List.replicate decimal.exponent.toNat '0' := by
  unfold Decimal.positional
  exact if_pos nonnegative

/-- The places of a fraction are filled up with zeros in front, so that one digit stands before
the point. -/
theorem positional_of_negative {decimal : Decimal} (negative : decimal.exponent < 0) :
    ∃ zeros whole fraction, decimal.positional = whole ++ '.' :: fraction ∧
      whole ++ fraction = List.replicate zeros '0' ++ decimal.digits ∧
      (fraction.length : ℤ) = -decimal.exponent ∧ whole ≠ [] ∧ (zeros = 0 ∨ whole.length = 1) := by
  unfold Decimal.positional
  dsimp only
  rw [if_neg (not_le.mpr negative)]
  generalize places_eq : (-decimal.exponent).toNat = places
  generalize padded_eq :
    List.replicate (places + 1 - decimal.digits.length) '0' ++ decimal.digits = padded
  have padded_length : padded.length =
      places + 1 - decimal.digits.length + decimal.digits.length := by
    rw [← padded_eq, List.length_append, List.length_replicate]
  refine ⟨places + 1 - decimal.digits.length, padded.take (padded.length - places),
    padded.drop (padded.length - places), rfl, ?_, ?_, ?_, ?_⟩
  · rw [List.take_append_drop, padded_eq]
  · rw [List.length_drop]
    omega
  · refine List.ne_nil_of_length_pos ?_
    rw [List.length_take]
    omega
  · rw [List.length_take]
    omega

/-- A decimal without an exponent is laid out with its own value. -/
theorem positional_isLayout (decimal : Decimal) :
    ∃ whole fraction, IsLayout decimal.positional whole fraction ∧
      (digitsValue (whole ++ fraction) : ℚ) * 10 ^ (-(fraction.length : ℤ)) =
        decimal.coefficient * 10 ^ decimal.exponent := by
  rcases le_or_gt 0 decimal.exponent with nonnegative | negative
  · rw [positional_of_nonnegative nonnegative]
    refine ⟨_, [], ⟨?_, ?_, by simp, .inl ⟨rfl, rfl⟩⟩, ?_⟩
    · exact List.append_ne_nil_of_left_ne_nil Nat.toDigits_ne_nil _
    · exact List.forall_mem_append.mpr ⟨decimal.digits_areDigits, forall_mem_zeros _⟩
    · rw [List.append_nil, digitsValue_append_zeros, decimal.digitsValue_digits]
      have exponent_eq : decimal.exponent = (decimal.exponent.toNat : ℤ) :=
        (Int.toNat_of_nonneg nonnegative).symm
      rw [exponent_eq, Int.toNat_natCast, zpow_natCast]
      simp
  · obtain ⟨zeros, whole, fraction, laid, padded, places, nonempty, _⟩ :=
      positional_of_negative negative
    have areDigits : ∀ digit ∈ whole ++ fraction, digit.isDigit = true := by
      rw [padded]
      exact List.forall_mem_append.mpr ⟨forall_mem_zeros _, decimal.digits_areDigits⟩
    refine ⟨whole, fraction, ⟨nonempty, fun digit member => ?_, fun digit member => ?_, .inr laid⟩,
      ?_⟩
    · exact areDigits digit (List.mem_append_left _ member)
    · exact areDigits digit (List.mem_append_right _ member)
    · rw [padded, digitsValue_zeros_append, decimal.digitsValue_digits, places, neg_neg]

/-- A mantissa is laid out with one digit before its point. -/
theorem mantissa_isLayout (decimal : Decimal) :
    ∃ whole fraction, IsLayout decimal.mantissa whole fraction ∧
      whole ++ fraction = decimal.digits ∧ whole.length = 1 := by
  have areDigits := decimal.digits_areDigits
  unfold Decimal.mantissa
  split
  case h_1 lead second rest digits_eq =>
    rw [digits_eq] at areDigits ⊢
    obtain ⟨leadDigit, restDigits⟩ := List.forall_mem_cons.mp areDigits
    exact ⟨[lead], second :: rest, ⟨List.cons_ne_nil _ _, by simpa using leadDigit, restDigits,
      .inr rfl⟩, rfl, rfl⟩
  case h_2 notLong =>
    cases digits_eq : decimal.digits with
    | nil => exact absurd digits_eq Nat.toDigits_ne_nil
    | cons lead rest =>
      cases rest with
      | cons second rest => exact absurd digits_eq (notLong _ _ _)
      | nil =>
        rw [digits_eq] at areDigits
        exact ⟨[lead], [], ⟨List.cons_ne_nil _ _, areDigits, List.forall_mem_nil _,
          .inl ⟨rfl, rfl⟩⟩, rfl, rfl⟩

/-- The digits of an exponent are read with their sign. -/
theorem readExponent?_signedDigits (value : Int) :
    readExponent? (Decimal.signedDigits value) = some value := by
  have areDigits : (Nat.toDigits 10 value.natAbs).all Char.isDigit = true :=
    List.all_eq_true.mpr (toDigits_areDigits value.natAbs)
  have nonempty := isEmpty_toDigits value.natAbs
  have digits_value := digitsValue_toDigits value.natAbs
  unfold readExponent? Decimal.signedDigits
  by_cases negative : value < 0
  · rw [if_pos negative]
    simp [splitSign, areDigits, nonempty, digits_value, -Nat.cast_natAbs]
    omega
  · rw [if_neg negative]
    simp [splitSign, areDigits, nonempty, digits_value, -Nat.cast_natAbs]
    omega

/-- A decimal with an exponent is a numeral, in which its digits stand with its exponent. -/
theorem read?_scientific (decimal : Decimal) (negative : Bool) :
    Numeral.read? (String.ofList (Decimal.signed negative decimal.scientific)) =
      some (nearestDecimal negative decimal.digits decimal.exponent) := by
  obtain ⟨whole, fraction, layout, digits_eq, whole_length⟩ := mantissa_isLayout decimal
  have tail : readTail? ('e' :: Decimal.signedDigits decimal.leadingExponent) =
      some decimal.leadingExponent :=
    readExponent?_signedDigits decimal.leadingExponent
  have exponent_eq : decimal.leadingExponent - fraction.length = decimal.exponent := by
    have length_eq := congrArg List.length digits_eq
    rw [List.length_append] at length_eq
    unfold Decimal.leadingExponent
    omega
  have ended : ∀ next ∈ ('e' :: Decimal.signedDigits decimal.leadingExponent).head?,
      next.isDigit = false ∧ next ≠ '.' := by simp
  have read := layout.read?_signed_append ended negative
  rwa [tail, Option.map_some, exponent_eq, digits_eq] at read

end Numeral

/-! ### Plain texts -/

namespace Text

open Binary (rank isNegative)

/-- The plain text of a finite float without a sign is laid out in digits. -/
theorem plain_isLayout {value : Float} (finite : value.isFinite = true)
    (positive : isNegative value = false) :
    ∃ chars whole fraction, plain value = String.ofList chars ∧
      Numeral.IsLayout chars whole fraction ∧
      Numeral.nearestDecimal false (whole ++ fraction) (-(fraction.length : ℤ)) = value := by
  have whole_value := Binary.ofRank_rank value
  rw [positive] at whole_value
  unfold plain
  rw [Binary.isNaN_of_isFinite finite, Binary.isInf_of_isFinite finite, positive]
  by_cases zero : rank value = 0
  · refine ⟨['0'], ['0'], [], ?_, ⟨by simp, by simp, by simp, .inl ⟨rfl, rfl⟩⟩, ?_⟩
    · simp [zero, Decimal.signed]
    · rw [← whole_value, zero]
      rfl
  · have rank_pos := Nat.pos_of_ne_zero zero
    obtain ⟨whole, fraction, layout, layout_value⟩ :=
      Numeral.positional_isLayout (Decimal.shortest .up (rank value))
    refine ⟨_, whole, fraction, ?_, layout, ?_⟩
    · simp [zero, Decimal.signed]
    · have holds := Decimal.shortest_holds .up rank_pos
      rw [← layout_value] at holds
      have read := Numeral.nearestDecimal_of_holds
        (List.forall_mem_append.mpr ⟨layout.whole_digits, layout.fraction_digits⟩) rank_pos
        ((Binary.isFinite_iff value).mp finite) holds false
      rw [read, whole_value]

theorem plain_spells {value : Float} (finite : value.isFinite = true)
    (positive : isNegative value = false) :
    TokenKind.number.Spells (plain value).toList := by
  obtain ⟨chars, whole, fraction, plain_eq, layout, _⟩ := plain_isLayout finite positive
  obtain ⟨digit, more, chars_eq, isDigit, numeral⟩ := layout.exists_head
  rw [plain_eq, String.toList_ofList]
  exact ⟨digit, more, chars_eq, isDigit, numeral⟩

/-- The plain text of a finite float without a sign reads back as the float. -/
theorem read?_plain {value : Float} (finite : value.isFinite = true)
    (positive : isNegative value = false) : Numeral.read? (plain value) = some value := by
  obtain ⟨chars, whole, fraction, plain_eq, layout, value_eq⟩ := plain_isLayout finite positive
  rw [plain_eq, layout.read?, value_eq]

end Text

end DeskCalculator
