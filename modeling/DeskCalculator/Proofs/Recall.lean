/-
This file proves what comes of bringing the memory back into an empty entry and
evaluating it. The result text of a finite float is an operand, or the negation
of one, as long as it is written without an exponent, and its value is then the
float again. An exponent is no part of the language: a text with one is refused
at the letter in front of it.
-/

import DeskCalculator.Proofs.Composition
import DeskCalculator.Proofs.Journal
import DeskCalculator.Proofs.Results

namespace DeskCalculator

open Binary (rank isNegative ofRank infinityRank)

/-! ### Result texts without an exponent -/

namespace Text

/-- Without its sign, a result text without an exponent is the plain text of the magnitude. -/
theorem toList_result_of_positional {value : Float} (finite : value.isFinite = true)
    (nonzero : rank value ≠ 0) (positional : isPositional value = true) :
    (result value).toList =
      Decimal.signed (isNegative value) (plain (ofRank false (rank value))).toList := by
  have below := (Binary.isFinite_iff value).mp finite
  have magnitude := Binary.isFinite_ofRank false below
  rw [result_of_positional finite nonzero positional, String.toList_ofList]
  unfold plain
  rw [Binary.isNaN_of_isFinite magnitude, Binary.isInf_of_isFinite magnitude,
    Binary.isNegative_ofRank false below, Binary.rank_ofRank false below]
  simp [nonzero, Decimal.signed]

theorem plain_occurs {value : Float} (finite : value.isFinite = true)
    (positive : isNegative value = false) :
    Expr.Occurs .operand (plain value).toList (.number value) 0 := by
  intro position
  have scans := Expr.scansAs_word_of_spells (plain_spells finite positive) position
  rw [String.ofList_toList] at scans
  exact ⟨_, scans, .number rfl (read?_plain finite positive)⟩

/-- The result text of a float without an exponent is a sum of two levels at most, whose value
equals the float. -/
theorem result_occurs {value : Float} (finite : value.isFinite = true)
    (written : rank value = 0 ∨ isPositional value = true) :
    ∃ expr nesting found, Expr.Occurs .sum (result value).toList expr nesting ∧ nesting ≤ 2 ∧
      (∀ mode, expr.evaluate mode = .ok found) ∧ (found == value) = true := by
  have below := (Binary.isFinite_iff value).mp finite
  have whole := Binary.ofRank_rank value
  by_cases zero : rank value = 0
  · have shown : result value = plain 0.0 := by
      rw [result_of_zero finite zero]
      rfl
    have operand : Expr.Occurs .operand (plain 0.0).toList (.number 0.0) 0 :=
      plain_occurs (by decide) (by decide)
    rw [shown]
    refine ⟨_, _, 0.0, operand.sum_of_operand, by decide,
      fun mode => Expr.evaluate_number mode 0.0, ?_⟩
    rw [← whole, zero]
    cases isNegative value <;> decide
  · have positional := written.resolve_left zero
    have magnitude := Binary.isFinite_ofRank false below
    have operand := plain_occurs magnitude (Binary.isNegative_ofRank false below)
    rw [toList_result_of_positional finite zero positional]
    cases negative : isNegative value with
    | false =>
      rw [negative] at whole
      rw [whole] at operand ⊢
      exact ⟨_, _, value, operand.sum_of_operand, by decide,
        fun mode => Expr.evaluate_number mode value,
        Binary.beq_self (Binary.isNaN_of_isFinite finite)⟩
    | true =>
      rw [negative] at whole
      have nonempty : (plain (ofRank false (rank value))).toList ≠ [] :=
        (plain_spells magnitude (Binary.isNegative_ofRank false below)).ne_nil
      refine ⟨_, _, value, (operand.negate nonempty).sum_of_operand, by decide, fun mode => ?_,
        Binary.beq_self (Binary.isNaN_of_isFinite finite)⟩
      rw [Expr.negate, Expr.evaluate_binary, Expr.evaluate_number, Expr.evaluate_number]
      show Except.ok (0.0 - ofRank false (rank value)) = _
      rw [Binary.zero_sub_ofRank (Nat.pos_of_ne_zero zero) below, whole]

/-! ### Result texts with an exponent -/

theorem mantissa_spells (decimal : Decimal) : TokenKind.number.Spells decimal.mantissa := by
  obtain ⟨_, _, layout, _⟩ := Numeral.mantissa_isLayout decimal
  exact layout.exists_head

theorem scan_exponent (value : Int) (position : Nat) (found : List Token) :
    Token.scan ('e' :: Decimal.signedDigits value) position 0 found =
      .error (.unknownWord "e" position) := by
  have read : Lexeme.read 'e' (Decimal.signedDigits value) = .unknown ['e'] := by
    rw [Lexeme.read_of_lower rfl]
    unfold Decimal.signedDigits
    split <;> rfl
  exact Token.scan_of_unknown read position found

/-- The result text of a float with an exponent is refused at the letter before the exponent. -/
theorem lex_result_of_scientific {value : Float} (finite : value.isFinite = true)
    (nonzero : rank value ≠ 0) (scientific : isPositional value = false) :
    ∃ position, Token.lex (result value) = .error (.unknownWord "e" position) := by
  have spelled := mantissa_spells (Decimal.shortest .up (rank value))
  have minus : (TokenKind.operator .subtract).Spells ['-'] := rfl
  have ended : ∀ next ∈ ('e' :: Decimal.signedDigits
      (Decimal.shortest .up (rank value)).leadingExponent).head?,
      TokenKind.number.goesOn next = false := by
    intro next head
    cases head
    rfl
  unfold Token.lex
  rw [result_of_scientific finite nonzero scientific, String.toList_ofList, Decimal.scientific]
  cases isNegative value with
  | false =>
    rw [Decimal.signed, if_neg Bool.false_ne_true, Expr.scansAs_word spelled 0 _ _ ended]
    exact ⟨_, scan_exponent _ _ _⟩
  | true =>
    have scans := (Expr.scansAs_word spelled (0 + 1)).after_sign minus rfl spelled.ne_nil
    rw [Decimal.signed, if_pos rfl, ← List.cons_append, ← List.singleton_append,
      scans _ _ ended]
    exact ⟨_, scan_exponent _ _ _⟩

theorem isBlankText_of_mem_digit {text : String} {digit : Char} (member : digit ∈ text.toList)
    (isDigit : digit.isDigit = true) : isBlankText text = false := by
  have wordChar : Expr.isWordChar digit = true := by
    simp [Expr.isWordChar, Lexeme.isNumeralChar, isDigit]
  refine List.all_eq_false.mpr ⟨digit, member, ?_⟩
  rw [Expr.isBlank_of_isWordChar wordChar]
  exact Bool.false_ne_true

theorem isBlankText_result {value : Float} (finite : value.isFinite = true) :
    isBlankText (result value) = false := by
  by_cases zero : rank value = 0
  · rw [result_of_zero finite zero]
    rfl
  · cases positional : isPositional value with
    | true =>
      have below := (Binary.isFinite_iff value).mp finite
      obtain ⟨digit, more, plain_eq, isDigit, _⟩ :=
        plain_spells (Binary.isFinite_ofRank false below) (Binary.isNegative_ofRank false below)
      refine isBlankText_of_mem_digit ?_ isDigit
      rw [toList_result_of_positional finite zero positional, plain_eq]
      exact mem_signed.mpr (.inr (.head _))
    | false =>
      obtain ⟨digit, more, mantissa_eq, isDigit, _⟩ :=
        mantissa_spells (Decimal.shortest .up (rank value))
      refine isBlankText_of_mem_digit ?_ isDigit
      rw [result_of_scientific finite zero positional, String.toList_ofList, Decimal.scientific,
        mantissa_eq]
      exact mem_signed.mpr (.inr (.head _))

end Text

/-! ### Recall -/

namespace Session

/-- The session after its entry is emptied and the memory is brought back into it. -/
def recalled (session : Session) : Session :=
  (session.perform .clear).perform .memoryRecall

theorem entry_recalled (session : Session) :
    session.recalled.entry = Text.result session.memory := by
  simp [recalled, perform, clear, memoryRecall, append]

/-- What evaluating the memory comes to, if it is finite. -/
theorem evaluate_recalled (session : Session) (finite : session.memory.isFinite = true) :
    session.recalled.evaluate.2 =
      (session.engine.evaluate (Text.result session.memory) session.mode).map some := by
  have entered := session.entry_recalled
  have settled : session.recalled.engine = session.engine ∧ session.recalled.mode = session.mode :=
    ⟨rfl, rfl⟩
  unfold evaluate
  rw [entered, Text.isBlankText_result finite, settled.1, settled.2]
  cases session.engine.evaluate (Text.result session.memory) session.mode <;> rfl

theorem engine_after (settings : Settings) (inputs : List Input) :
    ((start settings).after inputs).engine = settings.engine := by
  rw [after_eq_foldl]
  exact ((follows_start settings).foldl_perform _).engine_eq

/-- A finite memory that is zero, or whose magnitude is from a millionth up to `1e21`, is a value
again when it is brought back into an empty entry and evaluated, and the value equals the memory.
Any other finite memory is written with an exponent, and is refused for it. -/
theorem memory_recalled (settings : Settings) (inputs : List Input)
    (deep : 2 ≤ settings.engine.limit)
    (finite : ((start settings).after inputs).memory.isFinite = true) :
    let session := (start settings).after inputs
    let isWritten := (session.memory == 0.0) = true ∨
      1e-6 ≤ session.memory.abs ∧ session.memory.abs < 1e21
    (isWritten → ∃ value, session.recalled.evaluate.2 = .ok (some value) ∧
      (value == session.memory) = true) ∧
    (¬isWritten → ∃ position,
      session.recalled.evaluate.2 = .error (.unknownWord "e" position)) := by
  intro session isWritten
  have engine_eq : session.engine = settings.engine := engine_after settings inputs
  have written_iff : isWritten ↔
      Binary.rank session.memory = 0 ∨ Text.isPositional session.memory = true := by
    refine or_congr (Binary.beq_zero_iff finite) ?_
    rw [Text.isPositional, Bool.and_eq_true, decide_eq_true_iff, decide_eq_true_iff]
    rfl
  rw [session.evaluate_recalled finite, written_iff, not_or, Bool.not_eq_true]
  constructor
  · intro written
    obtain ⟨expr, nesting, found, occurs, fits, value_eq, equal⟩ :=
      Text.result_occurs finite written
    refine ⟨found, ?_, equal⟩
    have reads := session.engine.readsWithin_of_occurs occurs
    rw [reads.evaluate_eq (engine_eq ▸ Nat.le_trans fits deep), Engine.value, value_eq]
    rfl
  · rintro ⟨nonzero, scientific⟩
    obtain ⟨position, lexed⟩ := Text.lex_result_of_scientific finite nonzero scientific
    refine ⟨position, ?_⟩
    unfold Engine.evaluate
    rw [show session.engine.tokens _ = _ from lexed]
    rfl

/-- The inputs that put the value of an expression into the memory. -/
def storing (text : String) : List Input :=
  [.act (.assign text), .act .evaluate, .act .memoryStore]

theorem memory_after_storing {settings : Settings} {text : String} {expr : Expr} {value : Float}
    (visible : isBlankText text = false) (read : settings.engine.read text = .ok expr)
    (value_eq : expr.evaluate settings.mode = .ok value) :
    ((start settings).after (storing text)).memory = value := by
  have evaluated : settings.engine.evaluate text settings.mode = .ok value := by
    rw [Engine.evaluate_of_read read, Engine.value, value_eq]
    rfl
  simp [after, storing, receive, perform, assign, evaluate, start, visible, evaluated, record,
    memoryStore]

/-- A negative memory is brought back as a negation. -/
theorem memory_recalled_negative :
    2 ≤ ({} : Settings).engine.limit ∧ ((start {}).after (storing "-2.5")).memory = -2.5 ∧
      ∃ value, ((start {}).after (storing "-2.5")).recalled.evaluate.2 = .ok (some value) ∧
        (value == -2.5) = true := by
  have memory_eq : ((start {}).after (storing "-2.5")).memory = -2.5 := by
    have read : Engine.read {} "-2.5" = .ok (Expr.number 2.5).negate := rfl
    refine memory_after_storing rfl read ?_
    rw [Expr.negate, Expr.evaluate_binary, Expr.evaluate_number, Expr.evaluate_number]
    decide +kernel
  have finite : ((start {}).after (storing "-2.5")).memory.isFinite = true := by
    rw [memory_eq]
    decide +kernel
  have deep : 2 ≤ ({} : Settings).engine.limit := by decide
  have outcome := (memory_recalled {} (storing "-2.5") deep finite).1
  rw [memory_eq] at outcome
  exact ⟨deep, memory_eq, outcome (.inr (by decide +kernel))⟩

/-- The memory `1e21` is brought back as `1e+21`, which has no value. -/
theorem large_memory_refused :
    2 ≤ ({} : Settings).engine.limit ∧
      ((start {}).after (storing "1000000000000000000000")).memory.isFinite = true ∧
      ((start {}).after (storing "1000000000000000000000")).recalled.evaluate.2 =
        .error (.unknownWord "e" 1) ∧
      ¬∃ value, ((start {}).after (storing "1000000000000000000000")).recalled.evaluate.2 =
          .ok (some value) ∧
        (value == ((start {}).after (storing "1000000000000000000000")).memory) = true := by
  have read : Engine.read {} "1000000000000000000000" = .ok (.number 1e21) := rfl
  have memory_eq : ((start {}).after (storing "1000000000000000000000")).memory = 1e21 :=
    memory_after_storing rfl read (Expr.evaluate_number _ _)
  have finite : ((start {}).after (storing "1000000000000000000000")).memory.isFinite = true := by
    rw [memory_eq]
    decide +kernel
  have shown : Text.result 1e21 = "1e+21" := by decide +kernel
  have refused : ((start {}).after (storing "1000000000000000000000")).recalled.evaluate.2 =
      .error (.unknownWord "e" 1) := by
    rw [evaluate_recalled _ finite, memory_eq, shown]
    rfl
  refine ⟨by decide, finite, refused, ?_⟩
  rintro ⟨value, accepted, _⟩
  rw [refused] at accepted
  cases accepted

end Session

end DeskCalculator
