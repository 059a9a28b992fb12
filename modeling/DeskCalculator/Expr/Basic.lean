/-
This file defines expression trees. Constants stand in a tree as their values
and a unary minus as a difference from zero, so a tree has numbers, operations
on two operands and calls of functions only.
-/

import DeskCalculator.Vocabulary

namespace DeskCalculator

/-- An expression tree. -/
inductive Expr where
  | number (value : Float)
  | binary (operator : Operator) (left right : Expr)
  | call (function : UnaryFunction) (argument : Expr)
  deriving DecidableEq

namespace Expr

/-- The negation of an expression: its difference from zero. -/
def negate (operand : Expr) : Expr :=
  .binary .subtract (.number 0.0) operand

/-- The number of nodes. -/
def weight : Expr → Nat
  | number _ => 1
  | binary _ left right => left.weight + right.weight + 1
  | call _ argument => argument.weight + 1

theorem weight_pos (expr : Expr) : 0 < expr.weight := by
  cases expr <;> simp [weight]

/-- Operations whose left operands are at work: each with its right operand, the innermost
operation first. Long chains of operations lean to the left, and they are walked down with this
list in place of a call for every operation. -/
abbrev Pending := List (Operator × Expr)

/-- The number of nodes of the right operands that are still to be walked. -/
def Pending.weight : Pending → Nat
  | [] => 0
  | (_, operand) :: pending => operand.weight + weight pending

end Expr

end DeskCalculator
