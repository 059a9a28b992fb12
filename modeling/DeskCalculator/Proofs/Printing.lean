/-
This file proves that the text of a tree reads back as the tree. The text puts
every operation between parentheses, so each operand is one operand of the
grammar; the lexer finds its words because words are read whole before whatever
the text puts after them. Only the limit on the levels can stand in the way, and
how deeply the text nests is computed from the tree.
-/

import DeskCalculator.Engine
import DeskCalculator.Proofs.Numerals
import DeskCalculator.Proofs.Reading

namespace DeskCalculator

/-! ### Spelled words are read whole -/

theorem isBlank_of_visible {char : Char} (low : 0x21 ≤ char.toNat) (high : char.toNat ≤ 0x7E) :
    isBlank char = false := by
  simp [isBlank, blankRanges]
  omega

theorem isLower_bounds {char : Char} (lower : char.isLower = true) :
    'a'.toNat ≤ char.toNat ∧ char.toNat ≤ 'z'.toNat := by
  have both : (decide ('a'.val ≤ char.val) && decide (char.val ≤ 'z'.val)) = true := lower
  rw [Bool.and_eq_true, decide_eq_true_iff, decide_eq_true_iff] at both
  exact both

theorem isUpper_bounds {char : Char} (upper : char.isUpper = true) :
    'A'.toNat ≤ char.toNat ∧ char.toNat ≤ 'Z'.toNat :=
  of_decide_eq_true upper

theorem isDigit_of_above {char : Char} (above : '9'.toNat < char.toNat) : char.isDigit = false := by
  rw [Bool.eq_false_iff]
  intro digit
  exact absurd (Char.isDigit_iff_toNat.mp digit).2 (Nat.not_le_of_lt above)

theorem isUpper_of_above {char : Char} (above : 'Z'.toNat < char.toNat) : char.isUpper = false := by
  rw [Bool.eq_false_iff]
  intro upper
  exact absurd (isUpper_bounds upper).2 (Nat.not_le_of_lt above)

theorem takeWhile_append_of_ended {isMember : Char → Bool} {members remaining : List Char}
    (inside : ∀ char ∈ members, isMember char = true)
    (ended : ∀ next ∈ remaining.head?, isMember next = false) :
    (members ++ remaining).takeWhile isMember = members := by
  rw [List.takeWhile_append_of_pos inside]
  cases remaining with
  | nil => rw [List.takeWhile_nil, List.append_nil]
  | cons next rest =>
    rw [List.takeWhile_cons_of_neg (by rw [ended next rfl]; exact Bool.false_ne_true),
      List.append_nil]

namespace Lexeme

theorem ofLetters_of_known {kind? : String → Option TokenKind} {letters : List Char}
    {kind : TokenKind} (known : kind? (String.ofList letters) = some kind) :
    ofLetters kind? letters = .word kind letters := by
  rw [ofLetters, known]

theorem read_of_upper {char : Char} (upper : char.isUpper = true) (rest : List Char) :
    Lexeme.read char rest = ofLetters (fun text => (Constant.ofName? text).map .constant)
      (char :: rest.takeWhile Char.isUpper) := by
  have bounds := isUpper_bounds upper
  have visible : isBlank char = false :=
    isBlank_of_visible (Nat.le_trans (by decide) bounds.1) (Nat.le_trans bounds.2 (by decide))
  have noDigit : char.isDigit = false :=
    isDigit_of_above (Nat.lt_of_lt_of_le (by decide) bounds.1)
  unfold Lexeme.read
  rw [visible, noDigit, upper]
  rfl

theorem read_of_lower {char : Char} (lower : char.isLower = true) (rest : List Char) :
    Lexeme.read char rest = ofLetters (fun text => (UnaryFunction.ofName? text).map .function)
      (char :: rest.takeWhile Char.isLower) := by
  have bounds := isLower_bounds lower
  have visible : isBlank char = false :=
    isBlank_of_visible (Nat.le_trans (by decide) bounds.1) (Nat.le_trans bounds.2 (by decide))
  have noDigit : char.isDigit = false :=
    isDigit_of_above (Nat.lt_of_lt_of_le (by decide) bounds.1)
  have noUpper : char.isUpper = false :=
    isUpper_of_above (Nat.lt_of_lt_of_le (by decide) bounds.1)
  unfold Lexeme.read
  rw [visible, noDigit, noUpper, lower]
  rfl

/-- A word is read whole before anything that would not make it longer. -/
theorem read_of_spells {kind : TokenKind} {char : Char} {more remaining : List Char}
    (spelled : kind.Spells (char :: more))
    (ended : ∀ next ∈ remaining.head?, kind.goesOn next = false) :
    Lexeme.read char (more ++ remaining) = .word kind (char :: more) := by
  cases kind with
  | number =>
    obtain ⟨_, _, same, digit, members⟩ := spelled
    cases same
    have bounds := Char.isDigit_iff_toNat.mp digit
    have visible : isBlank char = false :=
      isBlank_of_visible (Nat.le_trans (by decide) bounds.1) (Nat.le_trans bounds.2 (by decide))
    unfold Lexeme.read
    rw [visible, digit, takeWhile_append_of_ended members ended]
    rfl
  | operator operator =>
    cases spelled
    cases operator <;> rfl
  | opening =>
    cases spelled
    rfl
  | closing =>
    cases spelled
    rfl
  | constant constant =>
    have members : ∀ letter ∈ constant.name.toList, letter.isUpper = true := by
      rw [← List.all_eq_true]
      cases constant <;> decide
    have known : Constant.ofName? constant.name = some constant := by
      cases constant <;> rfl
    rw [← (show char :: more = constant.name.toList from spelled)] at members
    rw [read_of_upper (members char (.head _)), takeWhile_append_of_ended
      (fun letter member => members letter (.tail _ member)) ended]
    refine ofLetters_of_known ?_
    rw [show char :: more = constant.name.toList from spelled, String.ofList_toList, known]
    rfl
  | function function =>
    have members : ∀ letter ∈ function.name.toList, letter.isLower = true := by
      rw [← List.all_eq_true]
      cases function <;> decide
    rw [← (show char :: more = function.name.toList from spelled)] at members
    rw [read_of_lower (members char (.head _)), takeWhile_append_of_ended
      (fun letter member => members letter (.tail _ member)) ended]
    refine ofLetters_of_known ?_
    rw [show char :: more = function.name.toList from spelled, String.ofList_toList,
      UnaryFunction.ofName?_name]
    rfl
  | stop => cases spelled

end Lexeme

namespace Token

theorem scan_of_spells {kind : TokenKind} {text remaining : List Char}
    (spelled : kind.Spells text) (ended : ∀ next ∈ remaining.head?, kind.goesOn next = false)
    (position : Nat) (found : List Token) :
    scan (text ++ remaining) position 0 found =
      scan remaining (position + text.length) 0
        (⟨kind, String.ofList text, position⟩ :: found) := by
  cases text with
  | nil => exact absurd rfl spelled.ne_nil
  | cons char more =>
    exact scan_of_word (Lexeme.read_of_spells spelled ended) rfl (List.cons_ne_nil _ _) _ _

theorem scan_of_isBlank {char : Char} (blank : isBlank char = true) (rest : List Char)
    (position : Nat) (found : List Token) :
    scan (char :: rest) position 0 found = scan rest (position + 1) 0 found :=
  scan_of_blank (if_pos blank) position found

end Token

namespace Expr

/-! ### The nesting of a text -/

/-- How deeply an operation nests inside its parentheses when its operands nest this deeply; an
exponent nests one level deeper than a base. -/
def joinedNesting (operator : Operator) (left right : Nat) : Nat :=
  match operator with
  | .raise => max (1 + left) (2 + right)
  | _ => 1 + max left right

/-- How deeply the text of a tree nests below its outermost level. -/
def nesting : Expr → Nat
  | number _ => 0
  | binary operator left right => joinedNesting operator left.nesting right.nesting
  | call _ argument => 1 + argument.nesting

/-- Every number of the tree is finite and has a clear sign bit, so its text is a numeral. -/
def HasNumerals : Expr → Prop
  | number value => value.isFinite = true ∧ Binary.isNegative value = false
  | binary _ left right => left.HasNumerals ∧ right.HasNumerals
  | call _ argument => argument.HasNumerals

theorem Derivation.sum_of_operand {tokens : List Token} {expr : Expr} {nesting : Nat}
    (operand : Derivation .operand tokens expr nesting) :
    Derivation .sum tokens expr (1 + nesting) := by
  rw [Nat.add_comm]
  exact .term (.factor (.base operand))

/-- Two operands with any operator between them form a sum. -/
theorem Derivation.joined {sign : Token} {operator : Operator} {front back : List Token}
    {left right : Expr} {leftNesting rightNesting : Nat} (kind : sign.kind = .operator operator)
    (leftDerived : Derivation .operand front left leftNesting)
    (rightDerived : Derivation .operand back right rightNesting) :
    Derivation .sum (front ++ sign :: back) (.binary operator left right)
      (joinedNesting operator leftNesting rightNesting) := by
  have leftPower := leftDerived.base
  have rightPower := rightDerived.base
  have flat : 1 + max leftNesting rightNesting = max (leftNesting + 1) (rightNesting + 1) := by
    omega
  have steep : max (1 + leftNesting) (2 + rightNesting) =
      max leftNesting (rightNesting + 1) + 1 := by omega
  cases operator with
  | add =>
    show Derivation _ _ _ (1 + max leftNesting rightNesting)
    rw [flat]
    exact .plus kind rfl (.term (.factor leftPower)) (.factor rightPower)
  | subtract =>
    show Derivation _ _ _ (1 + max leftNesting rightNesting)
    rw [flat]
    exact .plus kind rfl (.term (.factor leftPower)) (.factor rightPower)
  | multiply =>
    show Derivation _ _ _ (1 + max leftNesting rightNesting)
    rw [flat]
    exact .term (.times kind rfl (.factor leftPower) rightPower)
  | divide =>
    show Derivation _ _ _ (1 + max leftNesting rightNesting)
    rw [flat]
    exact .term (.times kind rfl (.factor leftPower) rightPower)
  | raise =>
    show Derivation _ _ _ (max (1 + leftNesting) (2 + rightNesting))
    rw [steep]
    exact .term (.factor (.raised kind leftDerived rightPower))

/-! ### The words of a text -/

/-- From this position on the lexer finds these words in the characters, whatever follows them
except for something that goes on with the last of them. -/
def ScansAs (goesOn : Char → Bool) (chars : List Char) (position : Nat) (words : List Token) :
    Prop :=
  ∀ remaining found, (∀ next ∈ remaining.head?, goesOn next = false) →
    Token.scan (chars ++ remaining) position 0 found =
      Token.scan remaining (position + chars.length) 0 (words.reverse ++ found)

theorem ScansAs.append {goesOn lastGoesOn : Char → Bool} {front back : List Char}
    {position : Nat} {frontWords backWords : List Token}
    (frontScans : ScansAs goesOn front position frontWords)
    (backScans : ScansAs lastGoesOn back (position + front.length) backWords) (nonempty : back ≠ [])
    (apart : ∀ next ∈ back.head?, goesOn next = false) :
    ScansAs lastGoesOn (front ++ back) position (frontWords ++ backWords) := by
  intro remaining found ended
  have apartAll : ∀ next ∈ (back ++ remaining).head?, goesOn next = false := by
    rw [List.head?_append_of_ne_nil _ nonempty]
    exact apart
  rw [List.append_assoc, frontScans _ _ apartAll, backScans _ _ ended, List.length_append,
    Nat.add_assoc, List.reverse_append, List.append_assoc]

/-- A text whose characters scan as words is accepted by the lexer. -/
theorem ScansAs.lex {goesOn : Char → Bool} {text : String} {words : List Token}
    (scans : ScansAs goesOn text.toList 0 words) :
    Token.lex text = .ok (words ++ [Token.stop (0 + text.toList.length)]) := by
  have scanned := scans [] [] (by simp)
  rw [List.append_nil, List.append_nil] at scanned
  rw [Token.lex, scanned, Token.scan, List.reverse_cons, List.reverse_reverse]

theorem scansAs_word {kind : TokenKind} {text : List Char} (spelled : kind.Spells text)
    (position : Nat) :
    ScansAs kind.goesOn text position [⟨kind, String.ofList text, position⟩] := by
  intro remaining found ended
  exact Token.scan_of_spells spelled ended position found

/-- A sign of one character stands apart from whatever comes after it. -/
theorem ScansAs.after_sign {goesOn : Char → Bool} {kind : TokenKind} {sign : Char}
    {back : List Char} {position : Nat} {words : List Token} (spelled : kind.Spells [sign])
    (short : kind.goesOn = fun _ => false) (scans : ScansAs goesOn back (position + 1) words)
    (nonempty : back ≠ []) :
    ScansAs goesOn ([sign] ++ back) position
      (⟨kind, String.ofList [sign], position⟩ :: words) := by
  refine (scansAs_word spelled position).append scans nonempty fun next _ => ?_
  rw [short]

theorem ScansAs.after_blank {goesOn : Char → Bool} {char : Char} {back : List Char}
    {position : Nat} {words : List Token} (blank : isBlank char = true)
    (scans : ScansAs goesOn back (position + 1) words) :
    ScansAs goesOn ([char] ++ back) position words := by
  intro remaining found ended
  rw [List.append_assoc, List.singleton_append, Token.scan_of_isBlank blank, scans _ _ ended,
    List.length_append, List.length_singleton, Nat.add_assoc]

/-- A closing parenthesis stands apart from the word before it and from whatever comes after. -/
theorem ScansAs.closed {lastGoesOn : Char → Bool} {chars : List Char} {position : Nat}
    {words : List Token} (apart : lastGoesOn ')' = false)
    (scans : ScansAs lastGoesOn chars position words) (goesOn : Char → Bool) :
    ScansAs goesOn (chars ++ [')']) position
      (words ++ [⟨.closing, ")", position + chars.length⟩]) := by
  refine scans.append ?_ (List.cons_ne_nil _ _) ?_
  · intro remaining found _
    have spelled : TokenKind.closing.Spells [')'] := rfl
    exact Token.scan_of_spells spelled (fun _ _ => rfl) _ found
  · intro next head
    cases head
    exact apart

theorem toList_text_binary (operator : Operator) (left right : Expr) :
    (Expr.binary operator left right).text.toList =
      ['('] ++ (left.text.toList ++ ([' '] ++ ([operator.symbol] ++ ([' '] ++
        (right.text.toList ++ [')']))))) := by
  simp [text_binary, infixText]

theorem toList_text_call (function : UnaryFunction) (argument : Expr) :
    (Expr.call function argument).text.toList =
      function.name.toList ++ (['('] ++ (argument.text.toList ++ [')'])) := by
  simp [text_call]

/-- The lexer finds in the text of a tree the words of one operand that stands for the tree. -/
theorem exists_scansAs_text {expr : Expr} (numerals : expr.HasNumerals) (position : Nat) :
    ∃ words, ScansAs Lexeme.isNumeralChar expr.text.toList position words ∧
      Derivation .operand words expr expr.nesting := by
  induction expr generalizing position with
  | number value =>
    obtain ⟨finite, positive⟩ := numerals
    have scans := scansAs_word (Text.plain_spells finite positive) position
    rw [String.ofList_toList] at scans
    rw [text_number]
    exact ⟨_, scans, .number rfl (Text.read?_plain finite positive)⟩
  | binary operator left right leftHypothesis rightHypothesis =>
    obtain ⟨leftNumerals, rightNumerals⟩ := numerals
    obtain ⟨front, frontScans, leftDerived⟩ := leftHypothesis leftNumerals (position + 1)
    obtain ⟨back, backScans, rightDerived⟩ := rightHypothesis rightNumerals
      (position + 1 + left.text.toList.length + 1 + 1 + 1)
    have closed := backScans.closed rfl Lexeme.isNumeralChar
    have spelled : (TokenKind.operator operator).Spells [operator.symbol] := rfl
    have space : isBlank ' ' = true := rfl
    have signed := (closed.after_blank space).after_sign spelled rfl (by simp)
    have apart : ∀ next ∈ ([' '] ++ ([operator.symbol] ++ ([' '] ++
        (right.text.toList ++ [')'])))).head?, Lexeme.isNumeralChar next = false := by
      intro next head
      cases head
      rfl
    have joined := frontScans.append (signed.after_blank space) (by simp) apart
    have opens : TokenKind.opening.Spells ['('] := rfl
    rw [toList_text_binary]
    refine ⟨_, joined.after_sign opens rfl (by simp), ?_⟩
    have regroup : ∀ sign closing : Token,
        front ++ sign :: (back ++ [closing]) = (front ++ sign :: back) ++ [closing] := by
      intro sign closing
      rw [List.append_assoc, List.cons_append]
    rw [regroup]
    exact .group rfl rfl (.joined rfl leftDerived rightDerived)
  | call function argument inductionHypothesis =>
    obtain ⟨words, scans, derived⟩ :=
      inductionHypothesis numerals (position + function.name.toList.length + 1)
    have opens : TokenKind.opening.Spells ['('] := rfl
    have opened := (scans.closed rfl Lexeme.isNumeralChar).after_sign opens rfl (by simp)
    have spelled : (TokenKind.function function).Spells function.name.toList := rfl
    have apart : ∀ next ∈ (['('] ++ (argument.text.toList ++ [')'])).head?,
        (TokenKind.function function).goesOn next = false := by
      intro next head
      cases head
      rfl
    have called := (scansAs_word spelled position).append opened (by simp) apart
    rw [toList_text_call]
    exact ⟨_, called, .call rfl rfl rfl derived.sum_of_operand⟩

/-! ### Texts read back -/

theorem clampLimit_clampLimit (requested : Nat) :
    clampLimit (clampLimit requested) = clampLimit requested := by
  unfold clampLimit greatestLimit
  omega

/-- The text of a tree of numerals is accepted by the lexer. Where it fits the limit it is read as
the tree, and its value is the value of the tree; otherwise it is refused for its depth. -/
theorem text_reads_back (expr : Expr) (numerals : expr.HasNumerals) (requested : Nat) :
    ∃ tokens, Token.lex expr.text = .ok tokens ∧
      (1 + expr.nesting ≤ clampLimit requested →
        ofTokens requested tokens = .ok expr ∧
        ∀ mode, (Engine.ofLimit requested).evaluate expr.text mode = Engine.value mode expr) ∧
      (clampLimit requested < 1 + expr.nesting →
        ∃ position, ofTokens requested tokens =
          .error (.tooDeep (clampLimit requested) position)) := by
  obtain ⟨words, scans, operand⟩ := exists_scansAs_text numerals 0
  have derived := operand.sum_of_operand
  have inside : ∀ word ∈ words, word.isStop = false := fun word member =>
    (derived.word_fits word member).1
  have lexed := scans.lex
  refine ⟨_, lexed, ?_, ?_⟩
  · intro fits
    have read : ∀ limit, clampLimit limit = clampLimit requested →
        ofTokens limit (words ++ [Token.stop (0 + expr.text.toList.length)]) = .ok expr := by
      intro limit same
      rw [ofTokens_append_stop inside rfl, same]
      exact ofBody_eq_ok_iff.mpr ⟨_, derived, fits⟩
    refine ⟨read requested rfl, fun mode => ?_⟩
    have tree := read (clampLimit requested) (clampLimit_clampLimit requested)
    simp only [Engine.evaluate, Engine.tokens, Engine.tree, Engine.ofLimit, lexed, tree]
  · intro deep
    rw [ofTokens_append_stop inside rfl]
    exact ofBody_of_lt derived deep _

/-- The tree of `2 - 3 ^ 0.5`. -/
def differenceOfPower : Expr :=
  .binary .subtract (.number 2) (.binary .raise (.number 3) (.number 0.5))

/-- Its text `(2 - (3 ^ 0.5))` nests four levels. -/
theorem text_reads_back_differenceOfPower :
    differenceOfPower.HasNumerals ∧ 1 + differenceOfPower.nesting = 4 ∧
      ∃ tokens, Token.lex differenceOfPower.text = .ok tokens ∧
        ofTokens 4 tokens = .ok differenceOfPower := by
  have numerals : differenceOfPower.HasNumerals := by
    refine ⟨⟨?_, ?_⟩, ⟨?_, ?_⟩, ?_, ?_⟩ <;> decide +kernel
  have nesting_eq : 1 + differenceOfPower.nesting = 4 := by rfl
  obtain ⟨tokens, lexed, fits, _⟩ := text_reads_back differenceOfPower numerals 4
  exact ⟨numerals, nesting_eq, tokens, lexed, (fits (by decide)).1⟩

end Expr

end DeskCalculator
