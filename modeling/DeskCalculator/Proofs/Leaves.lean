/-
This file follows numbers from a text into its tree. The lexer lets digits and
points through, so a numeral from a text has no sign, no exponent and no letters:
it can be read exactly when it holds one point at most, and then it is a number
without a sign or, where it overflows, infinity. The leaves of a tree are read
from such numerals, are constants, or are the zero of a negation.
-/

import DeskCalculator.Proofs.Bits
import DeskCalculator.Proofs.Following
import DeskCalculator.Proofs.Lexing
import DeskCalculator.Proofs.Numerals

namespace DeskCalculator

/-! ### Points of a numeral -/

namespace Numeral

theorem count_point_of_digits {digits : List Char}
    (areDigits : ∀ digit ∈ digits, digit.isDigit = true) : digits.count '.' = 0 := by
  rw [List.count_eq_zero]
  intro member
  exact absurd (areDigits '.' member) Bool.false_ne_true

theorem IsLayout.count_point_le {chars whole fraction : List Char}
    (layout : IsLayout chars whole fraction) : chars.count '.' ≤ 1 := by
  have noneWhole := count_point_of_digits layout.whole_digits
  have noneFraction := count_point_of_digits layout.fraction_digits
  rcases layout.laid with ⟨rfl, _⟩ | rfl
  · omega
  · rw [List.count_append, List.count_cons_self, noneWhole, noneFraction]

/-- Digits and points that start with a digit are laid out around their only point. -/
theorem exists_isLayout_of_count_point_le {digit : Char} {more : List Char}
    (isDigit : digit.isDigit = true)
    (numeral : ∀ char ∈ more, Lexeme.isNumeralChar char = true)
    (single : (digit :: more).count '.' ≤ 1) :
    ∃ whole fraction, IsLayout (digit :: more) whole fraction := by
  have split : more.takeWhile Char.isDigit ++ more.dropWhile Char.isDigit = more :=
    List.takeWhile_append_dropWhile
  have whole_digits : ∀ char ∈ digit :: more.takeWhile Char.isDigit, char.isDigit = true :=
    List.forall_mem_cons.mpr ⟨isDigit, fun _ => List.mem_takeWhile_imp⟩
  have notDigit := List.head?_dropWhile_not Char.isDigit more
  cases rest : more.dropWhile Char.isDigit with
  | nil =>
    rw [rest, List.append_nil] at split
    rw [split] at whole_digits
    exact ⟨digit :: more, [], List.cons_ne_nil _ _, whole_digits, List.forall_mem_nil _,
      .inl ⟨rfl, rfl⟩⟩
  | cons point fraction =>
    rw [rest] at split notDigit
    obtain ⟨isPoint, fractionNumeral⟩ := List.forall_mem_cons.mp fun char member =>
      numeral char ((List.dropWhile_sublist Char.isDigit).mem (rest ▸ member))
    have pointNotDigit : point.isDigit = false := by simpa using notDigit
    obtain rfl : point = '.' := by simpa [Lexeme.isNumeralChar, pointNotDigit] using isPoint
    have chars_eq : digit :: more = (digit :: more.takeWhile Char.isDigit) ++ '.' :: fraction := by
      rw [List.cons_append, split]
    rw [chars_eq, List.count_append, List.count_cons_self] at single
    have noPoint : '.' ∉ fraction := List.count_eq_zero.mp (by omega)
    refine ⟨_, fraction, List.cons_ne_nil _ _, whole_digits, ?_, .inr chars_eq⟩
    intro char member
    have notPoint : char ≠ '.' := by
      rintro rfl
      exact noPoint member
    simpa [Lexeme.isNumeralChar, notPoint] using fractionNumeral char member

/-- A numeral of a text cannot be read exactly when it holds more than one point. -/
theorem read?_eq_none_iff {text : String} (spelled : TokenKind.number.Spells text.toList) :
    read? text = none ↔ 2 ≤ text.toList.count '.' := by
  obtain ⟨digit, more, text_eq, isDigit, numeral⟩ := spelled
  have text_ofList : text = String.ofList (digit :: more) := by
    rw [← text_eq, String.ofList_toList]
  rw [text_eq, text_ofList]
  constructor
  · intro unread
    refine Nat.lt_of_not_le fun single => ?_
    obtain ⟨whole, fraction, layout⟩ := exists_isLayout_of_count_point_le isDigit numeral single
    rw [layout.read?] at unread
    cases unread
  · intro several
    refine Decidable.byContradiction fun readable => ?_
    obtain ⟨whole, fraction, layout⟩ := exists_isLayout_of_read? isDigit numeral readable
    exact absurd layout.count_point_le (Nat.not_le_of_lt several)

end Numeral

/-! ### Values without a sign -/

open Binary

/-- The float is a number or infinity, and its sign bit is clear. -/
structure IsUnsigned (value : Float) : Prop where
  number : value.isNaN = false
  unsigned : isNegative value = false

theorem isUnsigned_ofRank {rank : Nat} (within : rank ≤ infinityRank) :
    IsUnsigned (ofRank false rank) := by
  rcases Nat.lt_or_eq_of_le within with finite | rfl
  · exact ⟨isNaN_of_isFinite (isFinite_ofRank false finite), isNegative_ofRank false finite⟩
  · exact ⟨by decide +kernel, by decide +kernel⟩

theorem isUnsigned_nearestDecimal (coefficient : List Char) (exponent : Int) :
    IsUnsigned (Numeral.nearestDecimal false coefficient exponent) := by
  unfold Numeral.nearestDecimal
  dsimp only
  split
  · exact isUnsigned_ofRank (Nat.zero_le _)
  · split
    · exact isUnsigned_ofRank (Nat.le_refl _)
    · exact isUnsigned_ofRank (nearestRank_le _ _)

theorem isUnsigned_of_read? {text : String} {value : Float}
    (spelled : TokenKind.number.Spells text.toList) (read : Numeral.read? text = some value) :
    IsUnsigned value := by
  obtain ⟨digit, more, text_eq, isDigit, numeral⟩ := spelled
  obtain rfl : text = String.ofList (digit :: more) := by rw [← text_eq, String.ofList_toList]
  have readable : Numeral.read? (String.ofList (digit :: more)) ≠ none := by
    rw [read]
    exact Option.some_ne_none value
  obtain ⟨whole, fraction, layout⟩ := Numeral.exists_isLayout_of_read? isDigit numeral readable
  rw [layout.read?] at read
  cases read
  exact isUnsigned_nearestDecimal _ _

theorem isFinite_constant (constant : Constant) : constant.value.isFinite = true := by
  cases constant <;> decide +kernel

theorem isUnsigned_constant (constant : Constant) : IsUnsigned constant.value :=
  ⟨isNaN_of_isFinite (isFinite_constant constant), by cases constant <;> decide +kernel⟩

/-! ### Leaves of a tree -/

namespace Expr

/-- The numbers of a tree, from left to right. -/
def leaves : Expr → List Float
  | .number value => [value]
  | .binary _ left right => left.leaves ++ right.leaves
  | .call _ argument => argument.leaves

/-- Where a leaf of a tree comes from: one of the tokens spells it, or it is a constant, or the
zero of a negation. -/
inductive IsSource (tokens : List Token) (value : Float) : Prop where
  | numeral {token : Token} (member : token ∈ tokens) (kind : token.kind = .number)
      (spelled : Numeral.read? token.text = some value)
  | constant (constant : Constant) (same : value = constant.value)
  | zero (same : value = 0.0)

theorem IsSource.mono {tokens other : List Token} {value : Float}
    (source : IsSource tokens value) (sub : tokens ⊆ other) : IsSource other value := by
  cases source with
  | numeral member kind spelled => exact .numeral (sub member) kind spelled
  | constant constant same => exact .constant constant same
  | zero same => exact .zero same

/-- What comes from the numerals of a text has no sign, and only a numeral is ever infinite. -/
theorem IsSource.isUnsigned {tokens : List Token} {value : Float} (source : IsSource tokens value)
    (spelled : ∀ token ∈ tokens, token.kind = .number →
      TokenKind.number.Spells token.text.toList) :
    IsUnsigned value ∧ (value.isFinite = true ∨ value.isInf = true ∧
      ∃ token ∈ tokens, token.kind = .number ∧ Numeral.read? token.text = some value) := by
  cases source with
  | @numeral token member kind read =>
    have unsigned := isUnsigned_of_read? (spelled token member kind) read
    refine ⟨unsigned, ?_⟩
    cases bounded : value.isInf with
    | false => exact .inl (isFinite_of_number unsigned.number bounded)
    | true => exact .inr ⟨rfl, token, member, kind, read⟩
  | constant constant same =>
    rw [same]
    exact ⟨isUnsigned_constant constant, .inl (isFinite_constant constant)⟩
  | zero same =>
    rw [same]
    exact ⟨⟨by decide +kernel, by decide +kernel⟩, .inl (by decide +kernel)⟩

theorem forall_leaves_joined {operator : Operator} {left right : Expr} {front back : List Token}
    {sign : Token} (leftSources : ∀ value ∈ left.leaves, IsSource front value)
    (rightSources : ∀ value ∈ right.leaves, IsSource back value) :
    ∀ value ∈ (Expr.binary operator left right).leaves,
      IsSource (front ++ sign :: back) value :=
  List.forall_mem_append.mpr
    ⟨fun value member => (leftSources value member).mono (by simp),
      fun value member => (rightSources value member).mono (by simp)⟩

/-- Every leaf of a phrase comes from one of its tokens. -/
theorem Derivation.isSource_of_mem_leaves {phrase : Phrase} {tokens : List Token} {expr : Expr}
    {nesting : Nat} (derived : Derivation phrase tokens expr nesting) :
    ∀ value ∈ expr.leaves, IsSource tokens value := by
  induction derived with
  | number kind spelled =>
    exact List.forall_mem_singleton.mpr (.numeral (List.mem_singleton_self _) kind spelled)
  | @constant _ constant _ => exact List.forall_mem_singleton.mpr (.constant constant rfl)
  | negation _ _ inductionHypothesis =>
    exact List.forall_mem_cons.mpr ⟨.zero rfl, fun value member =>
      (inductionHypothesis value member).mono (by simp)⟩
  | group _ _ _ inductionHypothesis =>
    exact fun value member => (inductionHypothesis value member).mono (by simp)
  | call _ _ _ _ inductionHypothesis =>
    exact fun value member => (inductionHypothesis value member).mono fun token inner =>
      .tail _ (.tail _ (List.mem_append_left _ inner))
  | base _ inductionHypothesis => exact inductionHypothesis
  | raised _ _ _ operandHypothesis powerHypothesis =>
    exact forall_leaves_joined operandHypothesis powerHypothesis
  | factor _ inductionHypothesis => exact inductionHypothesis
  | times _ _ _ _ productHypothesis powerHypothesis =>
    exact forall_leaves_joined productHypothesis powerHypothesis
  | term _ inductionHypothesis => exact inductionHypothesis
  | plus _ _ _ _ sumHypothesis productHypothesis =>
    exact forall_leaves_joined sumHypothesis productHypothesis

/-! ### Texts -/

theorem exists_words_of_lex {text : String} {tokens : List Token}
    (lexed : Token.lex text = .ok tokens) :
    ∃ words stop, tokens = words ++ [stop] ∧ stop.isStop = true ∧ body tokens = words ∧
      ∀ token ∈ tokens, token.kind = .number →
        token ∈ words ∧ TokenKind.number.Spells token.text.toList := by
  have partitioned := Token.lex_isLexing text
  rw [lexed] at partitioned
  obtain ⟨words, rfl, partition⟩ := partitioned
  have inside : ∀ word ∈ words, word.isStop = false := fun _ => partition.isStop_eq_false
  refine ⟨words, .stop text.toList.length, rfl, rfl, ?_, ?_⟩
  · rw [body_append inside, body_cons_of_stop rfl, List.append_nil]
  · intro token member kind
    rcases List.mem_append.mp member with among | last
    · refine ⟨among, ?_⟩
      rw [← kind]
      exact partition.spelled token among
    · rw [List.mem_singleton.mp last] at kind
      cases kind

/-- A tree from a text has unsigned leaves, and all numerals of the text are spelled in full. -/
theorem leaves_of_ofTokens {text : String} {tokens : List Token} {requested : Nat} {expr : Expr}
    (lexed : Token.lex text = .ok tokens) (read : ofTokens requested tokens = .ok expr) :
    (∀ value ∈ expr.leaves, IsUnsigned value ∧ (value.isFinite = true ∨ value.isInf = true ∧
      ∃ token ∈ tokens, token.kind = .number ∧ Numeral.read? token.text = some value)) ∧
    ∀ token ∈ tokens, token.kind = .number → token.text.toList.count '.' ≤ 1 := by
  obtain ⟨words, stop, tokens_eq, _, body_eq, numerals⟩ := exists_words_of_lex lexed
  obtain ⟨nesting, derived, _⟩ := exists_derivation_of_ofTokens read
  rw [body_eq] at derived
  refine ⟨?_, ?_⟩
  · intro value member
    have source : IsSource tokens value :=
      (derived.isSource_of_mem_leaves value member).mono (by simp [tokens_eq])
    exact source.isUnsigned fun token member kind => (numerals token member kind).2
  · intro token member kind
    obtain ⟨among, spelled⟩ := numerals token member kind
    have readable := (derived.word_fits token among).2 kind
    exact Nat.le_of_lt_succ (Nat.lt_of_not_le fun several =>
      readable ((Numeral.read?_eq_none_iff spelled).mpr several))

/-- Every leaf of a tree from a text is a number without a sign, and finite unless it is the value
of a numeral that overflows; and no numeral of the text has more than one point. A numeral of any
text is refused, once the walk has taken it, exactly if it has more than one point; and the numeral
that is refused is one that the walk has taken. -/
theorem leaves_of_lex (text : String) (tokens : List Token) (requested : Nat)
    (lexed : Token.lex text = .ok tokens) :
    (∀ expr, ofTokens requested tokens = .ok expr →
      (∀ value ∈ expr.leaves, IsUnsigned value ∧ (value.isFinite = true ∨ value.isInf = true ∧
        ∃ token ∈ tokens, token.kind = .number ∧ Numeral.read? token.text = some value)) ∧
      ∀ token ∈ tokens, token.kind = .number → token.text.toList.count '.' ≤ 1) ∧
    ∃ steps, (∀ depth, 6 * tokens.length ≤ depth →
        walkTokens depth requested tokens = some (ofTokens requested tokens, steps)) ∧
      (∀ step ∈ steps, step.action = .advance → ∀ token, tokens[step.cursor]? = some token →
        token.kind = .number →
          (ofTokens requested tokens =
              .error (.grammar (.badNumeral token.text) token.position) ↔
            2 ≤ token.text.toList.count '.')) ∧
      ∀ numeral position,
        ofTokens requested tokens = .error (.grammar (.badNumeral numeral) position) →
        ∃ step ∈ steps, step.action = .advance ∧
          tokens[step.cursor]? = some ⟨.number, numeral, position⟩ := by
  refine ⟨fun expr => leaves_of_ofTokens lexed, ?_⟩
  obtain ⟨words, stop, tokens_eq, ends, _, numerals⟩ := exists_words_of_lex lexed
  have ended : EndsInStop tokens := ⟨stop, by rw [tokens_eq, List.getLast?_concat], ends⟩
  obtain ⟨steps, walked, fit, caused⟩ := walkTokens_of_endsInStop ended requested
  refine ⟨steps, walked, ?_, fun numeral position refused => (caused _ refused).2⟩
  intro step member action token found kind
  have spelled := (numerals token (List.mem_of_getElem? found) kind).2
  rw [← Numeral.read?_eq_none_iff spelled]
  constructor
  · exact fun refused => (caused _ refused).1
  · intro unread
    exact (fit step member).takes action token _ found kind (by rw [numberOf, unread])

/-- A number with a point is read as a leaf; a text with two points in a number is refused for the
first token, which the walk has taken. -/
theorem leaves_of_lex_points :
    (∃ tokens, Token.lex "0.5" = .ok tokens ∧ ofTokens 1 tokens = .ok (.number 0.5) ∧
      IsUnsigned 0.5) ∧
    ∃ tokens steps, Token.lex "1.2.3" = .ok tokens ∧
      ofTokens 1 tokens = .error (.grammar (.badNumeral "1.2.3") 0) ∧
      walkTokens 12 1 tokens = some (ofTokens 1 tokens, steps) ∧
      ∃ step ∈ steps, step.action = .advance ∧
        tokens[step.cursor]? = some ⟨.number, "1.2.3", 0⟩ := by
  have halfLexed : Token.lex "0.5" = .ok [⟨.number, "0.5", 0⟩, .stop 3] := by decide +kernel
  have halfRead : ofTokens 1 [⟨.number, "0.5", 0⟩, .stop 3] = .ok (.number 0.5) := by
    decide +kernel
  have pointsLexed : Token.lex "1.2.3" = .ok [⟨.number, "1.2.3", 0⟩, .stop 5] := by
    decide +kernel
  have pointsRefused : ofTokens 1 [⟨.number, "1.2.3", 0⟩, .stop 5] =
      .error (.grammar (.badNumeral "1.2.3") 0) := by decide +kernel
  obtain ⟨clean, -⟩ := leaves_of_lex "0.5" _ 1 halfLexed
  obtain ⟨-, steps, walked, -, taken⟩ := leaves_of_lex "1.2.3" _ 1 pointsLexed
  exact ⟨⟨_, halfLexed, halfRead, ((clean _ halfRead).1 0.5 (.head _)).1⟩,
    _, steps, pointsLexed, pointsRefused, walked 12 (Nat.le_refl _), taken _ _ pointsRefused⟩

end Expr

end DeskCalculator
