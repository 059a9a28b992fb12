/-
This file writes expression trees with a pair of parentheses around every
operation, so that the text shows the whole shape of the tree. The opening
parentheses of a chain of operations come first, all at once.
-/

import DeskCalculator.Decimal.Text
import DeskCalculator.Expr.Basic

namespace DeskCalculator.Expr

/-- The opening parentheses of the operations that wait for their left operand. -/
def openings (pending : Pending) : String :=
  String.ofList (List.replicate pending.length '(')

/-- What stands between the operands of an operation. -/
def infixText (operator : Operator) : String :=
  String.ofList [' ', operator.symbol, ' ']

mutual

/-- Adds a tree to what is written so far, and then the operations that it is the innermost left
operand of. -/
def writeThen (written : String) (pending : Pending) : Expr → String
  | number value => writePending (written ++ openings pending ++ Text.plain value) pending
  | binary operator left right => writeThen written ((operator, right) :: pending) left
  | call function argument =>
    let opened := written ++ openings pending ++ function.name ++ "("
    writePending (writeThen opened [] argument ++ ")") pending
termination_by expr => (expr.weight + Pending.weight pending, 0)
decreasing_by all_goals simp [Prod.lex_def, weight, Pending.weight]; try omega

/-- Adds the waiting operations from the innermost one outwards. -/
def writePending (written : String) : Pending → String
  | [] => written
  | (operator, operand) :: pending =>
    writePending (writeThen (written ++ infixText operator) [] operand ++ ")") pending
termination_by pending => (Pending.weight pending, 1)
decreasing_by
  · simp [Prod.lex_def, Pending.weight]; omega
  · have := weight_pos operand; simp [Prod.lex_def, Pending.weight]; omega

end

/-- The text of a tree. -/
def text (expr : Expr) : String :=
  writeThen "" [] expr

/-! ### Texts by the form of the tree -/

theorem openings_cons (operator : Operator) (operand : Expr) (pending : Pending) :
    openings ((operator, operand) :: pending) = openings pending ++ "(" := by
  simp [openings, List.replicate_succ', String.ofList_append]

theorem writeThen_eq (written : String) (pending : Pending) (expr : Expr) :
    writeThen written pending expr =
      writePending (written ++ openings pending ++ text expr) pending := by
  unfold text
  induction expr generalizing written pending with
  | number value => simp [writeThen, writePending, openings, String.append_assoc]
  | binary operator left right leftHypothesis rightHypothesis =>
    rw [writeThen, leftHypothesis, writeThen, leftHypothesis "" [(operator, right)],
      writePending, writePending, writePending, rightHypothesis,
      rightHypothesis (_ ++ infixText operator)]
    simp only [openings_cons, writePending]
    simp [openings, String.append_assoc]
  | call function argument argumentHypothesis =>
    rw [writeThen, writeThen, argumentHypothesis, argumentHypothesis (_ ++ "(")]
    simp [openings, String.append_assoc, writePending]

@[simp] theorem text_number (value : Float) : (Expr.number value).text = Text.plain value := by
  simp [text, writeThen, writePending, openings]

theorem text_binary (operator : Operator) (left right : Expr) :
    (Expr.binary operator left right).text =
      "(" ++ left.text ++ infixText operator ++ right.text ++ ")" := by
  rw [text, writeThen, writeThen_eq, writePending, writeThen_eq, writePending, writePending]
  simp [openings]

theorem text_call (function : UnaryFunction) (argument : Expr) :
    (Expr.call function argument).text = function.name ++ "(" ++ argument.text ++ ")" := by
  rw [text, writeThen, writeThen_eq]
  simp [writePending, openings]

end DeskCalculator.Expr
