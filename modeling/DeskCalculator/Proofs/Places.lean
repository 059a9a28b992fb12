/-
This file proves that reading tokens looks at their positions only to report
one. When every token is moved to another place, each rule reads the same tree
from the same tokens, and a refusal is the same refusal at the moved place. The
moves are arbitrary: nothing is asked about the order of the places.
-/

import DeskCalculator.Proofs.Reading

namespace DeskCalculator

/-- The token at another place. -/
def Token.move (places : Nat → Nat) (token : Token) : Token :=
  { token with position := places token.position }

/-- The fault at another place; faults of operations have none. -/
def Fault.move (places : Nat → Nat) : Fault → Fault
  | unknownWord text position => .unknownWord text (places position)
  | grammar cause position => .grammar cause (places position)
  | tooDeep limit position => .tooDeep limit (places position)
  | math cause => .math cause

/-- The outcome with a fault at another place, and with a change of what was found. -/
def moveOutcome {α : Type} (places : Nat → Nat) (change : α → α) : Except Fault α → Except Fault α
  | .error fault => .error (fault.move places)
  | .ok found => .ok (change found)

namespace Expr

variable (places : Nat → Nat)

/-! ### Tokens at other places -/

theorem startsWith_move (operators : Operator → Bool) (tokens : List Token) :
    startsWith operators (tokens.map (.move places)) = startsWith operators tokens := by
  cases tokens <;> rfl

theorem nextPosition_move (stop : Nat) (tokens : List Token) :
    nextPosition (places stop) (tokens.map (.move places)) = places (nextPosition stop tokens) := by
  cases tokens <;> rfl

theorem numberOf_move (token : Token) :
    numberOf (token.move places) = moveOutcome places id (numberOf token) := by
  have sameText : (token.move places).text = token.text := rfl
  unfold numberOf
  rw [sameText]
  cases Numeral.read? token.text <;> rfl

theorem expect_move (stop : Nat) (kind : TokenKind) (cause : GrammarFault) (tokens : List Token) :
    expect (places stop) kind cause (tokens.map (.move places)) =
      moveOutcome places (List.map (.move places)) (expect stop kind cause tokens) := by
  cases tokens with
  | nil => rfl
  | cons token rest =>
    by_cases same : token.kind = kind
    · have movedSame : (token.move places).kind = kind := same
      rw [List.map_cons, expect_cons same, expect_cons movedSame]
      rfl
    · simp only [List.map_cons, expect, Token.move, same, if_false]
      rfl

/-! ### Readers at other places -/

/-- What a reader returns, with every token at another place. -/
def moveRead : Except Fault (Expr × List Token) → Except Fault (Expr × List Token) :=
  moveOutcome places (Prod.map id (List.map (.move places)))

/-- From the moved tokens the second reader reads what the first one reads from the tokens. -/
def MovesTo (read moved : Reader) : Prop :=
  ∀ tokens, moved (tokens.map (.move places)) = moveRead places (read tokens)

variable {places}

theorem refuseLevel_moves (limit stop : Nat) :
    MovesTo places (refuseLevel limit stop) (refuseLevel limit (places stop)) := by
  intro tokens
  rw [refuseLevel, nextPosition_move]
  rfl

theorem chainFrom_move {joins : Operator → Bool} {operand moved : Reader}
    (moves : MovesTo places operand moved) (bound : List Token) (left : Expr)
    (tokens : List Token) :
    chainFrom joins moved (bound.map (.move places)) left (tokens.map (.move places)) =
      moveRead places (chainFrom joins operand bound left tokens) := by
  induction bound generalizing left tokens with
  | nil => rfl
  | cons next bound inductionHypothesis =>
    cases joined : startsWith joins tokens with
    | false =>
      have unjoined := joined
      rw [← startsWith_move places] at unjoined
      rw [chainFrom_of_startsWith_eq_false joined, chainFrom_of_startsWith_eq_false unjoined]
      rfl
    | true =>
      obtain ⟨sign, operator, behind, rfl, kind, member⟩ := startsWith_eq_true_iff.mp joined
      have movedKind : (sign.move places).kind = .operator operator := kind
      have operandMoves := moves behind
      rw [List.map_cons, List.map_cons]
      cases operandRead : operand behind with
      | error fault =>
        rw [operandRead] at operandMoves
        rw [chainFrom_cons_of_error kind member operandRead,
          chainFrom_cons_of_error movedKind member operandMoves]
        rfl
      | ok result =>
        obtain ⟨right, rest⟩ := result
        rw [operandRead] at operandMoves
        rw [chainFrom_cons_of_ok kind member operandRead,
          chainFrom_cons_of_ok movedKind member operandMoves]
        exact inductionHypothesis _ rest

theorem chain_moves {joins : Operator → Bool} {operand moved : Reader}
    (moves : MovesTo places operand moved) :
    MovesTo places (chain joins operand) (chain joins moved) := by
  intro tokens
  unfold chain
  rw [moves tokens]
  cases operand tokens with
  | error fault => rfl
  | ok result => exact chainFrom_move moves result.2 result.1 result.2

theorem powerRule_moves {operand movedOperand exponent movedExponent : Reader}
    (operandMoves : MovesTo places operand movedOperand)
    (exponentMoves : MovesTo places exponent movedExponent) :
    MovesTo places (powerRule operand exponent) (powerRule movedOperand movedExponent) := by
  intro tokens
  have readMoved := operandMoves tokens
  cases read : operand tokens with
  | error fault =>
    rw [read] at readMoved
    rw [powerRule_of_error read, powerRule_of_error readMoved]
    rfl
  | ok result =>
    obtain ⟨base, rest⟩ := result
    rw [read] at readMoved
    cases raised : startsWith Phrase.power.goesOn rest with
    | false =>
      have ended := raised
      rw [← startsWith_move places] at ended
      rw [powerRule_of_ended read raised, powerRule_of_ended readMoved ended]
      rfl
    | true =>
      obtain ⟨sign, operator, behind, rfl, kind, member⟩ := startsWith_eq_true_iff.mp raised
      obtain rfl : operator = .raise := of_decide_eq_true member
      have movedKind : (sign.move places).kind = .operator .raise := kind
      rw [powerRule_of_raised kind read, powerRule_of_raised movedKind readMoved,
        exponentMoves behind]
      cases exponent behind <;> rfl

theorem enclosed_moves {sum moved : Reader} (moves : MovesTo places sum moved) (stop : Nat)
    (cause : GrammarFault) :
    MovesTo places (enclosed stop sum cause) (enclosed (places stop) moved cause) := by
  intro tokens
  unfold enclosed
  rw [moves tokens]
  cases sum tokens with
  | error fault => rfl
  | ok result =>
    have expected := expect_move places stop .closing cause result.2
    show (expect (places stop) .closing cause (result.2.map (.move places))).map _ = _
    rw [expected]
    dsimp only
    cases expect stop .closing cause result.2 <;> rfl

theorem operandRule_moves {sum movedSum negated movedNegated : Reader}
    (sumMoves : MovesTo places sum movedSum) (negatedMoves : MovesTo places negated movedNegated)
    (stop : Nat) :
    MovesTo places (operandRule stop sum negated)
      (operandRule (places stop) movedSum movedNegated) := by
  intro tokens
  cases tokens with
  | nil => rfl
  | cons token rest =>
    rw [List.map_cons]
    cases kind : token.kind with
    | number =>
      have movedKind : (token.move places).kind = .number := kind
      simp only [operandRule, kind, movedKind, numberOf_move]
      cases numberOf token <;> rfl
    | operator operator =>
      have movedKind : (token.move places).kind = .operator operator := kind
      cases operator with
      | subtract =>
        rw [operandRule_negation kind, operandRule_negation movedKind, negatedMoves rest]
        cases negated rest <;> rfl
      | _ =>
        simp only [operandRule, kind, movedKind]
        rfl
    | opening =>
      have movedKind : (token.move places).kind = .opening := kind
      rw [operandRule_group kind, operandRule_group movedKind]
      exact enclosed_moves sumMoves stop .unclosedGroup rest
    | function function =>
      have movedKind : (token.move places).kind = .function function := kind
      simp only [operandRule, kind, movedKind, expect_move]
      cases expect stop .opening .missingArgument rest with
      | error fault => rfl
      | ok behind =>
        have inner := enclosed_moves sumMoves stop .unclosedArgument behind
        show (enclosed (places stop) movedSum .unclosedArgument (behind.map (.move places))).map _ =
          _
        rw [inner]
        dsimp only
        cases enclosed stop sum .unclosedArgument behind <;> rfl
    | _ =>
      have movedKind : (token.move places).kind = _ := kind
      simp only [operandRule, kind, movedKind]
      rfl

/-- Every rule reads the same at other places. -/
theorem reader_moves (limit stop levels : Nat) (phrase : Phrase) :
    MovesTo places (reader limit stop levels phrase)
      (reader limit (places stop) levels phrase) := by
  refine rule_induction (motive := fun phrase levels =>
    MovesTo places (reader limit stop levels phrase)
      (reader limit (places stop) levels phrase)) ?_ ?_ ?_ ?_ ?_ phrase levels
  · intro whole part joins rule levels partMoves
    rw [rule.reader_eq, rule.reader_eq]
    exact chain_moves partMoves
  · exact refuseLevel_moves limit stop
  · intro levels operandMoves powerMoves
    rw [reader_power_succ, reader_power_succ]
    exact powerRule_moves operandMoves powerMoves
  · intro sumMoves
    rw [reader_operand, reader_operand]
    exact operandRule_moves sumMoves (refuseLevel_moves limit stop) stop
  · intro levels sumMoves operandMoves
    rw [reader_operand, reader_operand]
    exact operandRule_moves sumMoves operandMoves stop

/-- A whole input at other places is read as the same tree, or refused with the same fault at the
moved place. -/
theorem ofBody_move (limit stop : Nat) (body : List Token) :
    ofBody limit (places stop) (body.map (.move places)) =
      moveOutcome places id (ofBody limit stop body) := by
  have moves : sumOf (rules limit (places stop) limit).power (body.map (.move places)) =
      moveRead places (sumOf (rules limit stop limit).power body) :=
    reader_moves limit stop limit .sum body
  unfold ofBody
  rw [moves]
  cases sumOf (rules limit stop limit).power body with
  | error fault => rfl
  | ok result =>
    obtain ⟨expr, rest⟩ := result
    cases rest <;> rfl

end Expr

end DeskCalculator
