/-
This file bounds how deeply evaluating and writing a tree recurse. Both walk
down a chain of left operands in one activation, and start another activation
for each right operand and each argument. On a bounded stack every activation
takes one frame, and the number of frames that a tree needs is computed from the
tree. A tree that was read needs at most three frames for every level of its
limit, however long its text is: one for the right operand of a sum, one for
that of a product, and one for an argument. Some text needs all of them.
-/

import DeskCalculator.Proofs.Composition

namespace DeskCalculator.Expr

/-! ### Nested activations -/

/-- How many activations are nested at most when a tree is evaluated or written. -/
def activations : Expr → Nat
  | number _ => 1
  | binary _ left right => max left.activations (1 + right.activations)
  | call _ argument => 1 + argument.activations

/-- How many activations are nested at most for the operands that wait in an activation. -/
def Pending.activations : Pending → Nat
  | [] => 1
  | (_, operand) :: pending => max (1 + operand.activations) (activations pending)

theorem activations_pos (expr : Expr) : 0 < expr.activations := by
  induction expr with
  | number value => exact Nat.one_pos
  | binary operator left right leftHypothesis _ => exact lt_max_of_lt_left leftHypothesis
  | call function argument _ => exact Nat.add_pos_left Nat.one_pos _

/-! ### Evaluation on a bounded stack -/

/-- The outcome of an activation; without one the stack did not suffice. -/
abbrev Bounded := Option (Except MathFault Float)

/-- Evaluates the waiting operations, each right operand in an activation of its own. -/
def replayOn (nested : Expr → Bounded) (left : Float) : Pending → Bounded
  | [] => some (.ok left)
  | (operator, operand) :: pending =>
    match nested operand with
    | none => none
    | some (.error cause) => some (.error cause)
    | some (.ok right) =>
      match operator.apply left right with
      | .error cause => some (.error cause)
      | .ok value => replayOn nested value pending

/-- One activation: walks down the left operands, evaluates an argument in an activation of its
own, and then the operations that wait. -/
def evaluateThenOn (nested : Expr → Bounded) (mode : AngleMode) (pending : Pending) :
    Expr → Bounded
  | number value => replayOn nested value pending
  | binary operator left right => evaluateThenOn nested mode ((operator, right) :: pending) left
  | call function argument =>
    match nested argument with
    | none => none
    | some (.error cause) => some (.error cause)
    | some (.ok operand) =>
      match function.apply mode operand with
      | .error cause => some (.error cause)
      | .ok value => replayOn nested value pending

/-- The value of a tree on a stack of this many frames. -/
def evaluateWithin (mode : AngleMode) : Nat → Expr → Bounded
  | 0, _ => none
  | frames + 1, expr => evaluateThenOn (evaluateWithin mode frames) mode [] expr

section Evaluation

variable {nested : Expr → Bounded} {mode : AngleMode} {frames : Nat}
  (enough : ∀ expr : Expr, expr.activations ≤ frames → nested expr = some (expr.evaluate mode))

include enough

theorem replayOn_eq (left : Float) {pending : Pending} (fits : pending.activations ≤ frames + 1) :
    replayOn nested left pending = some (replay mode left pending) := by
  induction pending generalizing left with
  | nil => rw [replayOn, replay]
  | cons waiting pending inductionHypothesis =>
    obtain ⟨operator, operand⟩ := waiting
    obtain ⟨operandFits, pendingFits⟩ := Nat.max_le.mp fits
    rw [replayOn, replay, enough operand (by omega), ← evaluate]
    cases operand.evaluate mode with
    | error cause => rfl
    | ok right =>
      dsimp only
      cases operator.apply left right with
      | error cause => rfl
      | ok value => exact inductionHypothesis value pendingFits

theorem evaluateThenOn_eq {expr : Expr} {pending : Pending}
    (exprFits : expr.activations ≤ frames + 1) (pendingFits : pending.activations ≤ frames + 1) :
    evaluateThenOn nested mode pending expr = some (evaluateThen mode pending expr) := by
  induction expr generalizing pending with
  | number value =>
    rw [evaluateThenOn, evaluateThen]
    exact replayOn_eq enough value pendingFits
  | binary operator left right leftHypothesis _ =>
    obtain ⟨leftFits, rightFits⟩ := Nat.max_le.mp exprFits
    rw [evaluateThenOn, evaluateThen]
    exact leftHypothesis leftFits (Nat.max_le.mpr ⟨rightFits, pendingFits⟩)
  | call function argument _ =>
    have argumentFits : 1 + argument.activations ≤ frames + 1 := exprFits
    rw [evaluateThenOn, evaluateThen, enough argument (by omega), ← evaluate]
    cases argument.evaluate mode with
    | error cause => rfl
    | ok operand =>
      dsimp only
      cases function.apply mode operand with
      | error cause => rfl
      | ok value => exact replayOn_eq enough value pendingFits

end Evaluation

/-- A stack with a frame for every nested activation suffices for the value of a tree. -/
theorem evaluateWithin_of_le (mode : AngleMode) {expr : Expr} {frames : Nat}
    (fits : expr.activations ≤ frames) :
    expr.evaluateWithin mode frames = some (expr.evaluate mode) := by
  induction frames generalizing expr with
  | zero => exact absurd fits (Nat.not_le_of_lt expr.activations_pos)
  | succ frames inductionHypothesis =>
    exact evaluateThenOn_eq (fun _ => inductionHypothesis) fits (Nat.le_add_left 1 frames)

/-! ### Writing on a bounded stack -/

/-- Writes the waiting operations, each right operand in an activation of its own. -/
def writePendingOn (nested : String → Expr → Option String) (written : String) :
    Pending → Option String
  | [] => some written
  | (operator, operand) :: pending =>
    match nested (written ++ infixText operator) operand with
    | none => none
    | some written => writePendingOn nested (written ++ ")") pending

/-- One activation: walks down the left operands, writes an argument in an activation of its own,
and then the operations that wait. -/
def writeThenOn (nested : String → Expr → Option String) (written : String)
    (pending : Pending) : Expr → Option String
  | number value => writePendingOn nested (written ++ openings pending ++ Text.plain value) pending
  | binary operator left right => writeThenOn nested written ((operator, right) :: pending) left
  | call function argument =>
    match nested (written ++ openings pending ++ function.name ++ "(") argument with
    | none => none
    | some written => writePendingOn nested (written ++ ")") pending

/-- Adds a tree to what is written so far, on a stack of this many frames. -/
def writeWithin : Nat → String → Expr → Option String
  | 0, _, _ => none
  | frames + 1, written, expr => writeThenOn (writeWithin frames) written [] expr

section Writing

variable {nested : String → Expr → Option String} {frames : Nat}
  (limited : ∀ (written : String) (expr : Expr), nested written expr =
    if expr.activations ≤ frames then some (writeThen written [] expr) else none)

include limited

theorem writePendingOn_eq (written : String) (pending : Pending) :
    writePendingOn nested written pending =
      if pending.activations ≤ frames + 1 then some (writePending written pending) else none := by
  induction pending generalizing written with
  | nil => rw [writePendingOn, writePending, Pending.activations, if_pos (Nat.le_add_left 1 frames)]
  | cons waiting pending inductionHypothesis =>
    obtain ⟨operator, operand⟩ := waiting
    rw [writePendingOn, writePending, Pending.activations, limited]
    by_cases operandFits : operand.activations ≤ frames
    · rw [if_pos operandFits]
      dsimp only
      rw [inductionHypothesis]
      refine if_congr ?_ rfl rfl
      omega
    · rw [if_neg operandFits, if_neg]
      omega

theorem writeThenOn_eq (written : String) (pending : Pending) (expr : Expr) :
    writeThenOn nested written pending expr =
      if max expr.activations pending.activations ≤ frames + 1 then
        some (writeThen written pending expr)
      else none := by
  induction expr generalizing pending with
  | number value =>
    rw [writeThenOn, writeThen, writePendingOn_eq limited, activations]
    refine if_congr ?_ rfl rfl
    omega
  | binary operator left right leftHypothesis _ =>
    rw [writeThenOn, writeThen, leftHypothesis, activations, Pending.activations]
    refine if_congr ?_ rfl rfl
    omega
  | call function argument _ =>
    rw [writeThenOn, writeThen, limited, activations]
    by_cases argumentFits : argument.activations ≤ frames
    · rw [if_pos argumentFits]
      dsimp only
      rw [writePendingOn_eq limited]
      refine if_congr ?_ rfl rfl
      omega
    · rw [if_neg argumentFits, if_neg]
      omega

end Writing

/-- A stack suffices for the text of a tree exactly when it has a frame for every nested
activation. -/
theorem writeWithin_eq (frames : Nat) (written : String) (expr : Expr) :
    writeWithin frames written expr =
      if expr.activations ≤ frames then some (writeThen written [] expr) else none := by
  induction frames generalizing written expr with
  | zero => rw [writeWithin, if_neg (Nat.not_le_of_lt expr.activations_pos)]
  | succ frames inductionHypothesis =>
    rw [writeWithin, writeThenOn_eq inductionHypothesis, Pending.activations]
    refine if_congr ?_ rfl rfl
    omega

/-! ### What was read needs few activations -/

/-- How much fewer activations than three for each level the phrases of a kind need. An operand
needs one more: a number needs one and opens no level. -/
theorem Derivation.activations_le {phrase : Phrase} {tokens : List Token} {expr : Expr}
    {nesting : Nat} (derived : Derivation phrase tokens expr nesting) :
    match phrase with
    | .operand => expr.activations ≤ 3 * nesting + 1
    | .power => expr.activations + 2 ≤ 3 * nesting
    | .product => expr.activations + 1 ≤ 3 * nesting
    | .sum => expr.activations ≤ 3 * nesting := by
  induction derived with
  | number => exact Nat.le_refl 1
  | constant => exact Nat.le_refl 1
  | negation _ _ inductionHypothesis =>
    simp only [negate, activations] at *
    omega
  | group _ _ _ inductionHypothesis =>
    dsimp only at *
    omega
  | call _ _ _ _ inductionHypothesis =>
    simp only [activations] at *
    omega
  | base _ inductionHypothesis =>
    dsimp only at *
    omega
  | raised _ _ _ operandHypothesis powerHypothesis =>
    simp only [activations] at *
    omega
  | factor _ inductionHypothesis =>
    dsimp only at *
    omega
  | times _ _ _ _ productHypothesis powerHypothesis =>
    simp only [activations] at *
    omega
  | term _ inductionHypothesis =>
    dsimp only at *
    omega
  | plus _ _ _ _ sumHypothesis productHypothesis =>
    simp only [activations] at *
    omega

/-! ### Texts that need them all -/

/-- Two levels of operations whose right operands need an activation each. -/
def steepSum (operand : Expr) : Expr :=
  .binary .add (.number 0.0) (.binary .multiply (.number 0.0) operand)

/-- The text of these operations, given the text of the operand. -/
def steepSumText (operand : List Char) : List Char :=
  ['0'] ++ (['+'] ++ (['0'] ++ (['*'] ++ operand)))

/-- An operand that nests this many levels and needs three activations for each of them, and one
for the number in it. -/
def steepOperand : Nat → Expr
  | 0 => .number 0.0
  | levels + 1 => .call .abs (steepSum (steepOperand levels))

/-- The text of this operand. -/
def steepOperandText : Nat → List Char
  | 0 => ['0']
  | levels + 1 =>
    UnaryFunction.abs.name.toList ++ (['('] ++ (steepSumText (steepOperandText levels) ++ [')']))

theorem activations_steepOperand (levels : Nat) :
    (steepOperand levels).activations = 3 * levels + 1 := by
  induction levels with
  | zero => rfl
  | succ levels inductionHypothesis =>
    simp only [steepOperand, steepSum, activations, inductionHypothesis]
    omega

theorem steepOperandText_ne_nil (levels : Nat) : steepOperandText levels ≠ [] := by
  cases levels with
  | zero => exact List.cons_ne_nil _ _
  | succ levels =>
    exact List.append_ne_nil_of_right_ne_nil _ (List.append_ne_nil_of_left_ne_nil
      (List.cons_ne_nil _ _) _)

theorem zero_occurs : Occurs .operand ['0'] (.number 0.0) 0 := by
  intro position
  have spelled : TokenKind.number.Spells ['0'] := ⟨'0', [], rfl, rfl, List.forall_mem_nil _⟩
  have read : Numeral.read? (String.ofList ['0']) = some 0.0 := by decide +kernel
  exact ⟨_, scansAs_word_of_spells spelled position, .number rfl read⟩

theorem Occurs.steepSum {operand : List Char} {expr : Expr} {nesting : Nat}
    (occurs : Occurs .operand operand expr nesting) (nonempty : operand ≠ []) :
    Occurs .sum (steepSumText operand) (Expr.steepSum expr) (nesting + 1) := by
  intro position
  obtain ⟨first, firstScans, firstDerived⟩ := zero_occurs position
  obtain ⟨second, secondScans, secondDerived⟩ := zero_occurs (position + 1 + 1)
  obtain ⟨words, scans, derived⟩ := occurs (position + 1 + 1 + 1 + 1)
  have productScans := secondScans.joined .multiply scans nonempty
  refine ⟨_, firstScans.joined .add productScans (by simp), ?_⟩
  have nesting_eq : max (0 + 1) (max (0 + 1) (nesting + 1)) = nesting + 1 := by omega
  rw [← nesting_eq]
  exact .plus rfl rfl (.term (.factor firstDerived.base))
    (.times rfl rfl (.factor secondDerived.base) derived.base)

theorem steepOperand_occurs (levels : Nat) :
    Occurs .operand (steepOperandText levels) (steepOperand levels) levels := by
  induction levels with
  | zero => exact zero_occurs
  | succ levels inductionHypothesis =>
    exact (inductionHypothesis.steepSum (steepOperandText_ne_nil levels)).call .abs

/-! ### Stacks -/

/-- A tree that was read needs at most three activations for every level of its limit, and on a
stack of as many frames it has its value and its text. For every limit there is a text that is
accepted and needs all of them. -/
theorem activations_bounded :
    (∀ requested tokens expr, ofTokens requested tokens = .ok expr →
      expr.activations ≤ 3 * clampLimit requested ∧
      (∀ mode, expr.evaluateWithin mode (3 * clampLimit requested) = some (expr.evaluate mode)) ∧
      writeWithin (3 * clampLimit requested) "" expr = some expr.text) ∧
    ∀ limit, 1 ≤ limit → limit ≤ greatestLimit → ∃ text tokens expr,
      Token.lex text = .ok tokens ∧ ofTokens limit tokens = .ok expr ∧
      expr.activations = 3 * limit ∧ writeWithin (3 * limit - 1) "" expr = none := by
  constructor
  · intro requested tokens expr read
    obtain ⟨nesting, derived, fits⟩ := exists_derivation_of_ofTokens read
    have bound : expr.activations ≤ 3 * nesting := derived.activations_le
    have enough : expr.activations ≤ 3 * clampLimit requested := by omega
    refine ⟨enough, fun mode => evaluateWithin_of_le mode enough, ?_⟩
    rw [writeWithin_eq, if_pos enough]
    rfl
  · intro limit positive inside
    obtain ⟨levels, rfl⟩ := Nat.exists_eq_add_of_le' positive
    have occurs := (steepOperand_occurs levels).steepSum (steepOperandText_ne_nil levels)
    obtain ⟨words, scans, derived⟩ := occurs 0
    rw [← String.toList_ofList (l := steepSumText (steepOperandText levels))] at scans
    have clamped : clampLimit (levels + 1) = levels + 1 := by
      unfold clampLimit
      omega
    have needed : (steepSum (steepOperand levels)).activations = 3 * (levels + 1) := by
      simp only [steepSum, activations, activations_steepOperand]
      omega
    refine ⟨_, _, _, scans.lex, ?_, needed, ?_⟩
    · rw [ofTokens_append_stop (fun word member => (derived.word_fits word member).1) rfl,
        clamped]
      exact ofBody_eq_ok_iff.mpr ⟨_, derived, Nat.le_refl _⟩
    · rw [writeWithin_eq, needed, if_neg]
      omega

/-- The tokens of `2-3*4`. -/
def differenceOfProduct : List Token :=
  [⟨.number, "2", 0⟩, ⟨.operator .subtract, "-", 1⟩, ⟨.number, "3", 2⟩,
    ⟨.operator .multiply, "*", 3⟩, ⟨.number, "4", 4⟩, .stop 5]

/-- One level suffices for `2-3*4`, and its tree is written on a stack of three frames. -/
theorem activations_bounded_differenceOfProduct :
    ∃ expr, ofTokens 1 differenceOfProduct = .ok expr ∧ expr.activations ≤ 3 ∧
      writeWithin 3 "" expr = some "(2 - (3 * 4))" ∧
      ∃ text tokens steep, Token.lex text = .ok tokens ∧ ofTokens 256 tokens = .ok steep ∧
        steep.activations = 768 := by
  have read : ofTokens 1 differenceOfProduct =
      .ok (.binary .subtract (.number 2.0) (.binary .multiply (.number 3.0) (.number 4.0))) := rfl
  obtain ⟨fits, _, written⟩ := activations_bounded.1 1 differenceOfProduct _ read
  obtain ⟨text, tokens, steep, lexed, steepRead, needed, _⟩ :=
    activations_bounded.2 256 (by decide) (by decide)
  refine ⟨_, read, fits, ?_, text, tokens, steep, lexed, steepRead, needed⟩
  refine written.trans (congrArg some ?_)
  rw [text_binary, text_binary]
  simp only [text_number]
  decide +kernel

end DeskCalculator.Expr
