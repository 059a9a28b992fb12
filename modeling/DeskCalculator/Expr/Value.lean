/-
This file evaluates expression trees. A left operand is evaluated before the
right one and both before their operation, so the first fault in this order is
the fault of the whole tree.
-/

import DeskCalculator.Arithmetic
import DeskCalculator.Expr.Basic

namespace DeskCalculator.Expr

mutual

/-- Evaluates a tree and then the operations that wait for its value. -/
def evaluateThen (mode : AngleMode) (pending : Pending) : Expr → Except MathFault Float
  | number value => replay mode value pending
  | binary operator left right => evaluateThen mode ((operator, right) :: pending) left
  | call function argument =>
    match evaluateThen mode [] argument with
    | .error cause => .error cause
    | .ok operand =>
      match function.apply mode operand with
      | .error cause => .error cause
      | .ok value => replay mode value pending
termination_by expr => (expr.weight + Pending.weight pending, 0)
decreasing_by all_goals simp [Prod.lex_def, weight, Pending.weight]; try omega

/-- Evaluates the waiting operations from the innermost one outwards. -/
def replay (mode : AngleMode) (left : Float) : Pending → Except MathFault Float
  | [] => .ok left
  | (operator, operand) :: pending =>
    match evaluateThen mode [] operand with
    | .error cause => .error cause
    | .ok right =>
      match operator.apply left right with
      | .error cause => .error cause
      | .ok value => replay mode value pending
termination_by pending => (Pending.weight pending, 1)
decreasing_by
  · simp [Prod.lex_def, Pending.weight]; omega
  · have := weight_pos operand; simp [Prod.lex_def, Pending.weight]; omega

end

/-- The value of a tree, with angles measured in the given mode. -/
def evaluate (mode : AngleMode) (expr : Expr) : Except MathFault Float :=
  evaluateThen mode [] expr

/-! ### Values by the form of the tree -/

theorem evaluateThen_eq (mode : AngleMode) (expr : Expr) (pending : Pending) :
    evaluateThen mode pending expr =
      (evaluate mode expr).bind fun value => replay mode value pending := by
  unfold evaluate
  induction expr generalizing pending with
  | number value => simp [evaluateThen, replay, Except.bind]
  | binary operator left right leftHypothesis rightHypothesis =>
    rw [evaluateThen, evaluateThen, leftHypothesis, leftHypothesis [(operator, right)]]
    cases evaluateThen mode [] left with
    | error cause => rfl
    | ok value =>
      simp only [Except.bind, replay]
      cases evaluateThen mode [] right with
      | error cause => rfl
      | ok operand =>
        dsimp only
        cases operator.apply value operand <;> rfl
  | call function argument argumentHypothesis =>
    rw [evaluateThen, evaluateThen]
    cases evaluateThen mode [] argument with
    | error cause => rfl
    | ok operand =>
      dsimp only
      cases function.apply mode operand <;> simp [Except.bind, replay]

@[simp] theorem evaluate_number (mode : AngleMode) (value : Float) :
    evaluate mode (.number value) = .ok value := by
  simp [evaluate, evaluateThen, replay]

/-- The left operand is evaluated first. -/
theorem evaluate_binary (mode : AngleMode) (operator : Operator) (left right : Expr) :
    evaluate mode (.binary operator left right) =
      (evaluate mode left).bind fun leftValue =>
        (evaluate mode right).bind fun rightValue => operator.apply leftValue rightValue := by
  rw [evaluate, evaluateThen, evaluateThen_eq]
  congr 1
  funext value
  rw [replay, ← evaluate]
  cases evaluate mode right with
  | error cause => rfl
  | ok operand =>
    simp only [Except.bind, replay]
    cases operator.apply value operand <;> rfl

theorem evaluate_call (mode : AngleMode) (function : UnaryFunction) (argument : Expr) :
    evaluate mode (.call function argument) =
      (evaluate mode argument).bind fun value => function.apply mode value := by
  rw [evaluate, evaluateThen, ← evaluate]
  cases evaluate mode argument with
  | error cause => rfl
  | ok operand =>
    simp only [Except.bind, replay]
    cases function.apply mode operand <;> rfl

end DeskCalculator.Expr
