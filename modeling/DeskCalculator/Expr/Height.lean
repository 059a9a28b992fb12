/-
This file measures the height of expression trees: the number of nodes on a
longest way from the root to a leaf. The subtrees that are still to be measured
are kept in a list with the levels of their roots.
-/

import DeskCalculator.Expr.Basic

namespace DeskCalculator.Expr

/-- Subtrees that are still to be measured, each with the level of its root. -/
abbrev Unmeasured := List (Expr × Nat)

/-- The number of nodes of the subtrees. -/
def Unmeasured.weight : Unmeasured → Nat
  | [] => 0
  | (expr, _) :: subtrees => expr.weight + weight subtrees

/-- The greatest level of a node of the subtrees, or `greatest` if that is more. -/
def greatestLevel (greatest : Nat) : Unmeasured → Nat
  | [] => greatest
  | (number _, level) :: rest => greatestLevel (max greatest level) rest
  | (call _ argument, level) :: rest =>
    greatestLevel (max greatest level) ((argument, level + 1) :: rest)
  | (binary _ left right, level) :: rest =>
    greatestLevel (max greatest level) ((right, level + 1) :: (left, level + 1) :: rest)
termination_by subtrees => Unmeasured.weight subtrees
decreasing_by all_goals simp [Unmeasured.weight, weight]; try omega

/-- The height of a tree; a single number has height one. -/
def height (expr : Expr) : Nat :=
  greatestLevel 0 [(expr, 1)]

end DeskCalculator.Expr
