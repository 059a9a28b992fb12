/-
This file proves that reading and evaluating a text are compositional. What the
lexer finds in an accepted text depends neither on where the text starts nor on
what follows it, unless that makes its last word longer; so a text keeps its
words between parentheses inside another text. Two accepted texts with an
operator between them, and one under a function, a minus sign or parentheses
alone, are read as the tree that joins their trees, if it fits the limit, and
the value of this tree comes from the values of the texts.
-/

import DeskCalculator.Proofs.Language

namespace DeskCalculator

/-- What a token stands for and how it is spelled, wherever it stands. -/
def Token.spelling (token : Token) : TokenKind × String :=
  (token.kind, token.text)

namespace Expr

/-! ### Words in other places -/

/-- The same words form the same phrase in any places. -/
theorem Derivation.of_spelling_eq {phrase : Phrase} {tokens : List Token} {expr : Expr}
    {nesting : Nat} (derived : Derivation phrase tokens expr nesting) {moved : List Token}
    (same : moved.map Token.spelling = tokens.map Token.spelling) :
    Derivation phrase moved expr nesting := by
  have kind_eq : ∀ {token other : Token}, token.spelling = other.spelling →
      token.kind = other.kind := congrArg Prod.fst
  induction derived generalizing moved with
  | number kind spelled =>
    obtain ⟨token, rfl, tokenSame⟩ := List.map_eq_singleton_iff.mp same
    exact .number ((kind_eq tokenSame).trans kind)
      ((congrArg Numeral.read? (congrArg Prod.snd tokenSame)).trans spelled)
  | constant kind =>
    obtain ⟨token, rfl, tokenSame⟩ := List.map_eq_singleton_iff.mp same
    exact .constant ((kind_eq tokenSame).trans kind)
  | negation minus _ inductionHypothesis =>
    obtain ⟨sign, operand, rfl, signSame, operandSame⟩ := List.map_eq_cons_iff.mp same
    exact .negation ((kind_eq signSame).trans minus) (inductionHypothesis operandSame)
  | group opens closes _ inductionHypothesis =>
    obtain ⟨opening, _, rfl, openingSame, same⟩ := List.map_eq_cons_iff.mp same
    rw [List.map_append] at same
    obtain ⟨inner, _, rfl, innerSame, same⟩ := List.map_eq_append_iff.mp same
    obtain ⟨closing, rfl, closingSame⟩ := List.map_eq_singleton_iff.mp same
    exact .group ((kind_eq openingSame).trans opens) ((kind_eq closingSame).trans closes)
      (inductionHypothesis innerSame)
  | call kind opens closes _ inductionHypothesis =>
    obtain ⟨name, _, rfl, nameSame, same⟩ := List.map_eq_cons_iff.mp same
    obtain ⟨opening, _, rfl, openingSame, same⟩ := List.map_eq_cons_iff.mp same
    rw [List.map_append] at same
    obtain ⟨inner, _, rfl, innerSame, same⟩ := List.map_eq_append_iff.mp same
    obtain ⟨closing, rfl, closingSame⟩ := List.map_eq_singleton_iff.mp same
    exact .call ((kind_eq nameSame).trans kind) ((kind_eq openingSame).trans opens)
      ((kind_eq closingSame).trans closes) (inductionHypothesis innerSame)
  | base _ inductionHypothesis => exact .base (inductionHypothesis same)
  | raised raises _ _ operandHypothesis powerHypothesis =>
    rw [List.map_append] at same
    obtain ⟨lower, _, rfl, lowerSame, same⟩ := List.map_eq_append_iff.mp same
    obtain ⟨sign, upper, rfl, signSame, upperSame⟩ := List.map_eq_cons_iff.mp same
    exact .raised ((kind_eq signSame).trans raises) (operandHypothesis lowerSame)
      (powerHypothesis upperSame)
  | factor _ inductionHypothesis => exact .factor (inductionHypothesis same)
  | times kind joins _ _ productHypothesis powerHypothesis =>
    rw [List.map_append] at same
    obtain ⟨front, _, rfl, frontSame, same⟩ := List.map_eq_append_iff.mp same
    obtain ⟨sign, back, rfl, signSame, backSame⟩ := List.map_eq_cons_iff.mp same
    exact .times ((kind_eq signSame).trans kind) joins (productHypothesis frontSame)
      (powerHypothesis backSame)
  | term _ inductionHypothesis => exact .term (inductionHypothesis same)
  | plus kind joins _ _ sumHypothesis productHypothesis =>
    rw [List.map_append] at same
    obtain ⟨front, _, rfl, frontSame, same⟩ := List.map_eq_append_iff.mp same
    obtain ⟨sign, back, rfl, signSame, backSame⟩ := List.map_eq_cons_iff.mp same
    exact .plus ((kind_eq signSame).trans kind) joins (sumHypothesis frontSame)
      (productHypothesis backSame)

/-- The lexer finds these words in the characters from any position on, before anything that
makes no word longer. -/
def ScansAnywhere (words : List Token) (chars : List Char) : Prop :=
  ∀ position, ∃ moved, moved.map Token.spelling = words.map Token.spelling ∧
    ScansAs isWordChar chars position moved

theorem ScansAnywhere.after_word {kind : TokenKind} {text : List Char} {position : Nat}
    {words : List Token} {chars : List Char} (spelled : kind.Spells text)
    (ended : ∀ next ∈ chars.head?, kind.goesOn next = false)
    (scans : ScansAnywhere words chars) :
    ScansAnywhere (⟨kind, String.ofList text, position⟩ :: words) (text ++ chars) := by
  intro start
  obtain ⟨moved, same, backScans⟩ := scans (start + text.length)
  refine ⟨⟨kind, String.ofList text, start⟩ :: moved, ?_, ?_⟩
  · rw [List.map_cons, List.map_cons, same]
    rfl
  · cases chars with
    | nil =>
      -- Without characters behind it the word is the last one, and any of them could follow.
      have alone := scansAs_word_of_spells spelled start
      intro remaining found apart
      have rest := backScans remaining (⟨kind, String.ofList text, start⟩ :: found) apart
      rw [List.append_nil, alone remaining found apart]
      simpa using rest
    | cons next rest =>
      exact (scansAs_word spelled start).append backScans (List.cons_ne_nil _ _) ended

/-- The words of an accepted text are found in it from any position on. -/
theorem exists_scansAnywhere_of_lex {text : String} {tokens : List Token}
    (lexed : Token.lex text = .ok tokens) :
    ∃ words, tokens = words ++ [Token.stop (0 + text.toList.length)] ∧
      ScansAnywhere words text.toList := by
  have nil : ScansAnywhere [] [] := fun position => ⟨[], rfl, fun _ _ _ => rfl⟩
  obtain ⟨words, same, scans⟩ := Token.exists_words_of_scan nil
    (fun blank scans position => by
      obtain ⟨moved, same, backScans⟩ := scans (position + 1)
      exact ⟨moved, same, backScans.after_blank blank⟩)
    ScansAnywhere.after_word lexed
  refine ⟨words, ?_, scans⟩
  simpa using same

/-! ### Phrases inside texts -/

/-- Wherever the characters stand before anything that makes no word longer, the lexer finds in
them a phrase of this kind, which stands for this tree and nests this many levels. -/
def Occurs (phrase : Phrase) (chars : List Char) (expr : Expr) (nesting : Nat) : Prop :=
  ∀ position, ∃ words, ScansAs isWordChar chars position words ∧
    Derivation phrase words expr nesting

theorem ScansAnywhere.occurs {words : List Token} {chars : List Char}
    (scans : ScansAnywhere words chars) {phrase : Phrase} {expr : Expr} {nesting : Nat}
    (derived : Derivation phrase words expr nesting) : Occurs phrase chars expr nesting := by
  intro position
  obtain ⟨moved, same, movedScans⟩ := scans position
  exact ⟨moved, movedScans, derived.of_spelling_eq same⟩

theorem Occurs.sum_of_operand {chars : List Char} {expr : Expr} {nesting : Nat}
    (occurs : Occurs .operand chars expr nesting) : Occurs .sum chars expr (1 + nesting) := by
  intro position
  obtain ⟨words, scans, derived⟩ := occurs position
  exact ⟨words, scans, derived.sum_of_operand⟩

theorem Occurs.group {chars : List Char} {expr : Expr} {nesting : Nat}
    (occurs : Occurs .sum chars expr nesting) :
    Occurs .operand (['('] ++ (chars ++ [')'])) expr nesting := by
  intro position
  obtain ⟨words, scans, derived⟩ := occurs (position + 1)
  exact ⟨_, scans.grouped, .group rfl rfl derived⟩

theorem Occurs.call {chars : List Char} {argument : Expr} {nesting : Nat}
    (occurs : Occurs .sum chars argument nesting) (function : UnaryFunction) :
    Occurs .operand (function.name.toList ++ (['('] ++ (chars ++ [')'])))
      (.call function argument) nesting := by
  intro position
  have spelled : (TokenKind.function function).Spells function.name.toList := rfl
  have apart : ∀ next ∈ (['('] ++ (chars ++ [')'])).head?, isWordChar next = false := by
    intro next head
    cases head
    rfl
  obtain ⟨words, scans, derived⟩ := occurs (position + function.name.toList.length + 1)
  have called := (scansAs_word_of_spells spelled position).append scans.grouped (by simp) apart
  exact ⟨_, called, .call rfl rfl rfl derived⟩

theorem Occurs.negate {chars : List Char} {expr : Expr} {nesting : Nat}
    (occurs : Occurs .operand chars expr nesting) (nonempty : chars ≠ []) :
    Occurs .operand (['-'] ++ chars) expr.negate (nesting + 1) := by
  intro position
  have spelled : (TokenKind.operator .subtract).Spells ['-'] := rfl
  obtain ⟨words, scans, derived⟩ := occurs (position + 1)
  exact ⟨_, scans.after_sign spelled rfl nonempty, .negation rfl derived⟩

theorem Occurs.join {front back : List Char} {left right : Expr} {leftNesting rightNesting : Nat}
    (frontOccurs : Occurs .operand front left leftNesting)
    (backOccurs : Occurs .operand back right rightNesting) (nonempty : back ≠ [])
    (operator : Operator) :
    Occurs .sum (front ++ ([operator.symbol] ++ back)) (.binary operator left right)
      (joinedNesting operator leftNesting rightNesting) := by
  intro position
  obtain ⟨frontWords, frontScans, leftDerived⟩ := frontOccurs position
  obtain ⟨backWords, backScans, rightDerived⟩ := backOccurs (position + front.length + 1)
  exact ⟨_, frontScans.joined operator backScans nonempty, .joined rfl leftDerived rightDerived⟩

end Expr

namespace Engine

open DeskCalculator.Expr

/-! ### Trees of texts -/

/-- The tree of a text. -/
def read (engine : Engine) (text : String) : Except Fault Expr :=
  (engine.tokens text).bind engine.tree

theorem evaluate_eq_bind (engine : Engine) (text : String) (mode : AngleMode) :
    engine.evaluate text mode = (engine.read text).bind (value mode) := by
  unfold evaluate read
  cases engine.tokens text with
  | error fault => rfl
  | ok tokens =>
    dsimp only [Except.bind]
    cases engine.tree tokens <;> rfl

/-- A text is evaluated to the value of its tree. -/
theorem evaluate_of_read {engine : Engine} {text : String} {expr : Expr}
    (found : engine.read text = .ok expr) (mode : AngleMode) :
    engine.evaluate text mode = value mode expr := by
  rw [evaluate_eq_bind, found]
  rfl

theorem evaluate_product : evaluate {} "6*7" .degrees = .ok 42.0 := by
  have found : read {} "6*7" = .ok (.binary .multiply (.number 6.0) (.number 7.0)) := rfl
  rw [evaluate_of_read found, value, evaluate_binary, evaluate_number, evaluate_number]
  decide +kernel

theorem evaluate_quotientByZero :
    evaluate {} "1/0" .degrees = .error (.math .divisionByZero) := by
  have found : read {} "1/0" = .ok (.binary .divide (.number 1.0) (.number 0.0)) := rfl
  rw [evaluate_of_read found, value, evaluate_binary, evaluate_number, evaluate_number]
  decide +kernel

/-- The words of the text form a sum that stands for the tree and nests this many levels. -/
def Writes (text : String) (expr : Expr) (nesting : Nat) : Prop :=
  ∃ words place, Token.lex text = .ok (words ++ [Token.stop place]) ∧
    Derivation .sum words expr nesting

theorem Writes.unique {text : String} {first second : Expr} {firstNesting secondNesting : Nat}
    (left : Writes text first firstNesting) (right : Writes text second secondNesting) :
    first = second ∧ firstNesting = secondNesting := by
  obtain ⟨words, place, lexed, derived⟩ := left
  obtain ⟨otherWords, otherPlace, otherLexed, otherDerived⟩ := right
  rw [lexed, Except.ok.injEq] at otherLexed
  obtain rfl : words = otherWords := (List.append_inj' otherLexed rfl).1
  exact derived.unique otherDerived

theorem Writes.occurs {text : String} {expr : Expr} {nesting : Nat}
    (writes : Writes text expr nesting) : Occurs .sum text.toList expr nesting := by
  obtain ⟨words, place, lexed, derived⟩ := writes
  obtain ⟨found, same, scans⟩ := exists_scansAnywhere_of_lex lexed
  obtain rfl : words = found := (List.append_inj' same rfl).1
  exact scans.occurs derived

theorem exists_writes_of_read {engine : Engine} {text : String} {expr : Expr}
    (read : engine.read text = .ok expr) :
    ∃ nesting, Writes text expr nesting ∧ nesting ≤ engine.limit := by
  unfold Engine.read at read
  cases lexed : engine.tokens text with
  | error fault =>
    rw [lexed] at read
    cases read
  | ok tokens =>
    rw [lexed] at read
    obtain ⟨words, place, rfl, laid⟩ := exists_laid_of_scan lexed
    rw [List.reverse_nil, List.nil_append] at lexed read
    obtain ⟨nesting, derived, fits⟩ := exists_derivation_of_ofTokens read
    rw [body_append laid.isStop_eq_false, body_cons_of_stop rfl, List.append_nil] at derived
    rw [engine.clampLimit_limit] at fits
    exact ⟨nesting, ⟨words, place, lexed, derived⟩, fits⟩

/-- The engine reads the text as the tree if its limit allows this many levels, and then the text
has this outcome; otherwise it refuses the text for its depth. -/
structure ReadsWithin (engine : Engine) (text : String) (expr : Expr) (nesting : Nat)
    (outcome : AngleMode → Except Fault Float) : Prop where
  read_iff : engine.read text = .ok expr ↔ nesting ≤ engine.limit
  evaluate_eq : nesting ≤ engine.limit → ∀ mode, engine.evaluate text mode = outcome mode
  refused : engine.limit < nesting →
    ∃ position, engine.read text = .error (.tooDeep engine.limit position) ∧
      ∀ mode, engine.evaluate text mode = .error (.tooDeep engine.limit position)

theorem readsWithin_of_occurs (engine : Engine) {text : String} {expr : Expr} {nesting : Nat}
    (occurs : Occurs .sum text.toList expr nesting) :
    engine.ReadsWithin text expr nesting fun mode => value mode expr := by
  obtain ⟨words, scans, derived⟩ := occurs 0
  have inside : ∀ word ∈ words, word.isStop = false := fun word member =>
    (derived.word_fits word member).1
  have read_eq : engine.read text = ofBody engine.limit (0 + text.toList.length) words := by
    rw [read, show engine.tokens text = _ from scans.lex]
    dsimp only [Except.bind]
    rw [tree, ofTokens_append_stop inside rfl, engine.clampLimit_limit]
    rfl
  have accepted : nesting ≤ engine.limit → engine.read text = .ok expr := fun fits =>
    read_eq.trans (ofBody_eq_ok_iff.mpr ⟨nesting, derived, fits⟩)
  have refused : engine.limit < nesting →
      ∃ position, engine.read text = .error (.tooDeep engine.limit position) := fun deep => by
    rw [read_eq]
    exact ofBody_of_lt derived deep _
  refine ⟨⟨fun read => Nat.le_of_not_lt fun deep => ?_, accepted⟩, fun fits mode => ?_,
    fun deep => ?_⟩
  · obtain ⟨position, refused⟩ := refused deep
    rw [read] at refused
    cases refused
  · rw [evaluate_eq_bind, accepted fits]
    rfl
  · obtain ⟨position, refused⟩ := refused deep
    refine ⟨position, refused, fun mode => ?_⟩
    rw [evaluate_eq_bind, refused]
    rfl

/-! ### Texts made of texts -/

/-- A text between parentheses. -/
def grouped (text : String) : String :=
  "(" ++ text ++ ")"

/-- Two texts, each between parentheses, with an operator between them. -/
def joined (operator : Operator) (front back : String) : String :=
  grouped front ++ operator.symbol.toString ++ grouped back

/-- A text between parentheses after the name of a function. -/
def called (function : UnaryFunction) (text : String) : String :=
  function.name ++ grouped text

/-- A text between parentheses after a minus sign. -/
def negated (text : String) : String :=
  "-" ++ grouped text

theorem toList_grouped (text : String) :
    (grouped text).toList = ['('] ++ (text.toList ++ [')']) := by
  simp [grouped]

theorem toList_joined (operator : Operator) (front back : String) :
    (joined operator front back).toList =
      (grouped front).toList ++ ([operator.symbol] ++ (grouped back).toList) := by
  simp [joined]

theorem toList_called (function : UnaryFunction) (text : String) :
    (called function text).toList =
      function.name.toList ++ (['('] ++ (text.toList ++ [')'])) := by
  simp [called, grouped]

theorem toList_negated (text : String) :
    (negated text).toList = ['-'] ++ (grouped text).toList := by
  simp [negated]

theorem value_binary (mode : AngleMode) (operator : Operator) (left right : Expr) :
    value mode (.binary operator left right) =
      (value mode left).bind fun leftValue => (value mode right).bind fun rightValue =>
        (operator.apply leftValue rightValue).mapError .math := by
  unfold value
  rw [evaluate_binary]
  cases left.evaluate mode with
  | error cause => rfl
  | ok leftValue =>
    dsimp only [Except.bind]
    cases right.evaluate mode <;> rfl

theorem value_call (mode : AngleMode) (function : UnaryFunction) (argument : Expr) :
    value mode (.call function argument) =
      (value mode argument).bind fun operand => (function.apply mode operand).mapError .math := by
  unfold value
  rw [evaluate_call]
  cases argument.evaluate mode <;> rfl

theorem value_negate (mode : AngleMode) (operand : Expr) :
    value mode operand.negate = (value mode operand).map fun found => 0.0 - found := by
  rw [Expr.negate, value_binary, value, evaluate_number]
  rfl

/-- Reading and evaluating are compositional. Two texts that are read as trees nest some levels
each, and so many levels are opened by the text that joins them with an operator, by the call of a
function, by the negation and by the group of one of them. Within the limit these texts are read
as the trees joined likewise, and their outcomes are computed from the outcomes of the texts, where
the fault of the first text comes first. Beyond the limit they are refused for their depth. -/
theorem read_composes (engine : Engine) (front back : String) (left right : Expr)
    (frontRead : engine.read front = .ok left) (backRead : engine.read back = .ok right) :
    ∃ leftNesting rightNesting, Writes front left leftNesting ∧ Writes back right rightNesting ∧
      (∀ operator, engine.ReadsWithin (joined operator front back) (.binary operator left right)
        (joinedNesting operator leftNesting rightNesting)
        fun mode => (engine.evaluate front mode).bind fun leftValue =>
          (engine.evaluate back mode).bind fun rightValue =>
            (operator.apply leftValue rightValue).mapError .math) ∧
      (∀ function, engine.ReadsWithin (called function front) (.call function left)
        (1 + leftNesting)
        fun mode => (engine.evaluate front mode).bind fun operand =>
          (function.apply mode operand).mapError .math) ∧
      engine.ReadsWithin (negated front) left.negate (2 + leftNesting)
        (fun mode => (engine.evaluate front mode).map fun operand => 0.0 - operand) ∧
      engine.ReadsWithin (grouped front) left (1 + leftNesting) (engine.evaluate front) := by
  obtain ⟨leftNesting, frontWrites, _⟩ := exists_writes_of_read frontRead
  obtain ⟨rightNesting, backWrites, _⟩ := exists_writes_of_read backRead
  have frontGroup := frontWrites.occurs.group
  have backGroup := backWrites.occurs.group
  rw [← toList_grouped] at frontGroup backGroup
  have nonempty : ∀ text, (grouped text).toList ≠ [] := fun text => by
    rw [toList_grouped]
    exact List.cons_ne_nil _ _
  have frontValue := evaluate_of_read frontRead
  have backValue := evaluate_of_read backRead
  refine ⟨leftNesting, rightNesting, frontWrites, backWrites, fun operator => ?_,
    fun function => ?_, ?_, ?_⟩
  · have occurs := frontGroup.join backGroup (nonempty back) operator
    rw [← toList_joined] at occurs
    simpa only [frontValue, backValue, ← value_binary] using engine.readsWithin_of_occurs occurs
  · have occurs := (frontWrites.occurs.call function).sum_of_operand
    rw [← toList_called] at occurs
    simpa only [frontValue, ← value_call] using engine.readsWithin_of_occurs occurs
  · have occurs := (frontGroup.negate (nonempty front)).sum_of_operand
    rw [← toList_negated, Nat.add_left_comm, Nat.add_comm] at occurs
    simpa only [frontValue, ← value_negate] using engine.readsWithin_of_occurs occurs
  · rw [show engine.evaluate front = fun mode => value mode left from funext frontValue]
    exact engine.readsWithin_of_occurs frontGroup.sum_of_operand

/-- The power of `2` with the exponent `-3` opens four levels, two of them for the exponent and one
for its sign. -/
theorem read_composes_negatedExponent :
    (ofLimit 4).read "2" = .ok (.number 2.0) ∧
      (ofLimit 4).read "-3" = .ok (Expr.number 3.0).negate ∧
      (ofLimit 4).read "(2)^(-3)" = .ok (.binary .raise (.number 2.0) (Expr.number 3.0).negate) ∧
      (ofLimit 3).read "2" = .ok (.number 2.0) ∧
      (ofLimit 3).read "-3" = .ok (Expr.number 3.0).negate ∧
      ∃ position, (ofLimit 3).read "(2)^(-3)" = .error (.tooDeep 3 position) := by
  have two : Writes "2" (.number 2.0) 1 :=
    ⟨[⟨.number, "2", 0⟩], 1, rfl, .term (.factor (.base (.number rfl (by decide +kernel))))⟩
  have minusThree : Writes "-3" (Expr.number 3.0).negate 2 :=
    ⟨[⟨.operator .subtract, "-", 0⟩, ⟨.number, "3", 1⟩], 2, rfl,
      .term (.factor (.base (.negation rfl (.number rfl (by decide +kernel)))))⟩
  have nests : ∀ {leftNesting rightNesting : Nat}, Writes "2" (.number 2.0) leftNesting →
      Writes "-3" (Expr.number 3.0).negate rightNesting →
      joinedNesting .raise leftNesting rightNesting = 4 := by
    intro leftNesting rightNesting twoWrites minusThreeWrites
    obtain ⟨_, rfl⟩ := twoWrites.unique two
    obtain ⟨_, rfl⟩ := minusThreeWrites.unique minusThree
    rfl
  have joins : joined .raise "2" "-3" = "(2)^(-3)" := rfl
  refine ⟨rfl, rfl, ?_, rfl, rfl, ?_⟩
  · obtain ⟨_, _, twoWrites, minusThreeWrites, power, _⟩ :=
      read_composes (ofLimit 4) "2" "-3" _ _ rfl rfl
    rw [← joins]
    exact (power .raise).read_iff.mpr (nests twoWrites minusThreeWrites).le
  · obtain ⟨_, _, twoWrites, minusThreeWrites, power, _⟩ :=
      read_composes (ofLimit 3) "2" "-3" _ _ rfl rfl
    rw [← joins]
    obtain ⟨position, refused, _⟩ :=
      (power .raise).refused ((nests twoWrites minusThreeWrites).symm ▸ by decide)
    exact ⟨position, refused⟩

end Engine

end DeskCalculator
