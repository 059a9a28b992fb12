/-
This file compares the two loops over a tree with the recursion that each of
them replaces. The writer goes down the left operands with a list of the
operations that wait for them, and adds to a text what the recursion writes for
the tree that these operations enclose. The height is measured with a work list;
in whatever order the subtrees are taken off it, every step leaves the greatest
level that can still be found as it was and one node less to be visited. So
every order comes to an end, and to the same height.
-/

import DeskCalculator.Expr.Height
import DeskCalculator.Expr.Text
import Mathlib.Algebra.BigOperators.Group.Multiset.Basic
import Mathlib.Data.Multiset.Lattice
import Mathlib.Logic.Relation
import Mathlib.Order.Lattice.Nat
import Mathlib.Order.Nat

namespace DeskCalculator.Expr

open Relation (ReflTransGen)

/-! ### Texts -/

/-- The text of a tree by recursion on its operands. -/
def writtenOut : Expr → String
  | number value => Text.plain value
  | binary operator left right =>
    "(" ++ left.writtenOut ++ " " ++ operator.symbol.toString ++ " " ++ right.writtenOut ++ ")"
  | call function argument => function.name ++ "(" ++ argument.writtenOut ++ ")"

theorem infixText_eq (operator : Operator) :
    infixText operator = " " ++ operator.symbol.toString ++ " " := by
  cases operator <;> rfl

theorem text_eq_writtenOut (expr : Expr) : expr.text = expr.writtenOut := by
  induction expr with
  | number value => exact text_number value
  | binary operator left right leftHypothesis rightHypothesis =>
    rw [text_binary, leftHypothesis, rightHypothesis, infixText_eq, writtenOut]
    simp only [String.append_assoc]
  | call function argument argumentHypothesis =>
    rw [text_call, argumentHypothesis, writtenOut]

/-- The tree that the waiting operations make of the tree they wait for. -/
def Pending.enclose : Pending → Expr → Expr
  | [], expr => expr
  | (operator, right) :: pending, expr => enclose pending (.binary operator expr right)

/-- The loop adds the text of the tree that its waiting operations enclose. -/
theorem writeThen_eq_writtenOut (written : String) (pending : Pending) (expr : Expr) :
    writeThen written pending expr = written ++ (pending.enclose expr).writtenOut := by
  induction pending generalizing expr with
  | nil =>
    rw [writeThen_eq, writePending, text_eq_writtenOut, Pending.enclose, openings,
      List.length_nil, List.replicate_zero, String.ofList_nil, String.append_empty]
  | cons waiting pending inductionHypothesis =>
    rw [Pending.enclose, ← inductionHypothesis, writeThen]

/-! ### Levels -/

/-- The number of nodes on a longest way from the root to a leaf, by recursion on the operands. -/
def levels : Expr → Nat
  | number _ => 1
  | binary _ left right => 1 + max left.levels right.levels
  | call _ argument => 1 + argument.levels

theorem levels_pos (expr : Expr) : 0 < expr.levels := by
  cases expr <;> simp only [levels] <;> omega

/-- The operands of the root of a tree. -/
def operands : Expr → Multiset Expr
  | number _ => 0
  | binary _ left right => {left, right}
  | call _ argument => {argument}

/-! ### Surveys -/

/-- A tree on the way to be measured: the greatest level found so far, and the subtrees that are
still to be visited, each with the level of its root and in no order. -/
structure Survey where
  greatest : Nat
  waiting : Multiset (Expr × Nat)

namespace Survey

/-- The survey of a tree of which nothing is visited yet. -/
def start (expr : Expr) : Survey :=
  ⟨0, {(expr, 1)}⟩

/-- One of the waiting subtrees, whichever it is, is taken off the work list. The level of its root
is noted, and its operands go on the work list one level further down. -/
inductive Next : Survey → Survey → Prop where
  | visit (greatest level : Nat) (expr : Expr) (rest : Multiset (Expr × Nat)) :
      Next ⟨greatest, (expr, level) ::ₘ rest⟩
        ⟨max greatest level, (expr.operands.map fun operand => (operand, level + 1)) + rest⟩

theorem exists_next {survey : Survey} (unfinished : survey.waiting ≠ 0) :
    ∃ after, Next survey after := by
  obtain ⟨greatest, waiting⟩ := survey
  obtain ⟨⟨expr, level⟩, member⟩ := Multiset.exists_mem_of_ne_zero unfinished
  obtain ⟨rest, rfl⟩ := Multiset.exists_cons_of_mem member
  exact ⟨_, .visit greatest level expr rest⟩

/-- The greatest level of a node of a subtree whose root has this level. -/
def deepest (subtree : Expr × Nat) : Nat :=
  subtree.2 + subtree.1.levels - 1

/-- The greatest level that is found by the end of the survey. -/
def outcome (survey : Survey) : Nat :=
  survey.greatest ⊔ (survey.waiting.map deepest).sup

theorem outcome_start (expr : Expr) : (start expr).outcome = expr.levels := by
  simp [outcome, start, deepest]

theorem outcome_of_finished {survey : Survey} (finished : survey.waiting = 0) :
    survey.outcome = survey.greatest := by
  simp [outcome, finished]

/-- The deepest node of a subtree is its root, or the deepest one of its operands. -/
theorem deepest_eq (expr : Expr) (level : Nat) :
    deepest (expr, level) =
      level ⊔ ((expr.operands.map fun operand => (operand, level + 1)).map deepest).sup := by
  cases expr with
  | number value => simp [deepest, levels, operands]
  | binary operator left right =>
    have leftLevels := left.levels_pos
    have rightLevels := right.levels_pos
    simp only [deepest, levels, operands, Multiset.insert_eq_cons, Multiset.map_cons,
      Multiset.map_singleton, Multiset.sup_cons, Multiset.sup_singleton]
    omega
  | call function argument =>
    have argumentLevels := argument.levels_pos
    simp only [deepest, levels, operands, Multiset.map_singleton, Multiset.sup_singleton]
    omega

theorem Next.outcome_eq {before after : Survey} (next : Next before after) :
    after.outcome = before.outcome := by
  cases next with
  | visit greatest level expr rest =>
    simp only [outcome, Multiset.map_cons, Multiset.sup_cons, Multiset.map_add, Multiset.sup_add]
    rw [deepest_eq expr level, sup_assoc, sup_assoc]

theorem outcome_eq_of_reaches {before after : Survey} (run : ReflTransGen Next before after) :
    after.outcome = before.outcome := by
  induction run with
  | refl => rfl
  | tail _ next inductionHypothesis => exact next.outcome_eq.trans inductionHypothesis

/-- The number of nodes that are still to be visited. -/
def weight (survey : Survey) : Nat :=
  (survey.waiting.map fun subtree => subtree.1.weight).sum

theorem Next.weight_eq {before after : Survey} (next : Next before after) :
    before.weight = after.weight + 1 := by
  cases next with
  | visit greatest level expr rest =>
    simp only [weight, Multiset.map_cons, Multiset.sum_cons]
    cases expr with
    | number value =>
      simp only [Expr.weight, operands, Multiset.map_zero, Multiset.zero_add]
      omega
    | binary operator left right =>
      simp only [Expr.weight, operands, Multiset.insert_eq_cons, Multiset.map_cons,
        Multiset.map_singleton, Multiset.cons_add, Multiset.singleton_add, Multiset.sum_cons]
      omega
    | call function argument =>
      simp only [Expr.weight, operands, Multiset.map_singleton, Multiset.singleton_add,
        Multiset.map_cons, Multiset.sum_cons]
      omega

/-- No survey goes on for ever. -/
theorem wellFounded_next : WellFounded fun after before => Next before after :=
  Subrelation.wf (fun next => Nat.lt_of_lt_of_eq (Nat.lt_succ_self _) next.weight_eq.symm)
    (InvImage.wf weight Nat.lt_wfRel.wf)

/-- The loop that measures trees is a survey that visits the first subtree of its list. -/
theorem reaches_greatestLevel (greatest : Nat) (subtrees : Unmeasured) :
    ReflTransGen Next ⟨greatest, subtrees⟩ ⟨greatestLevel greatest subtrees, 0⟩ := by
  induction greatest, subtrees using greatestLevel.induct with
  | case1 greatest =>
    rw [greatestLevel]
    exact .refl
  | case2 greatest value level rest inductionHypothesis =>
    rw [greatestLevel]
    exact .head (.visit greatest level (number value) rest) inductionHypothesis
  | case3 greatest function argument level rest inductionHypothesis =>
    rw [greatestLevel]
    exact .head (.visit greatest level (call function argument) rest) inductionHypothesis
  | case4 greatest operator left right level rest inductionHypothesis =>
    rw [greatestLevel]
    rw [← Multiset.cons_coe, ← Multiset.cons_coe, Multiset.cons_swap] at inductionHypothesis
    exact .head (.visit greatest level (binary operator left right) rest) inductionHypothesis

end Survey

theorem height_eq_levels (expr : Expr) : expr.height = expr.levels :=
  calc expr.height
    _ = (⟨expr.height, 0⟩ : Survey).outcome := (@Survey.outcome_of_finished ⟨_, 0⟩ rfl).symm
    _ = (Survey.start expr).outcome :=
      Survey.outcome_eq_of_reaches (Survey.reaches_greatestLevel 0 [(expr, 1)])
    _ = expr.levels := Survey.outcome_start expr

/-- Writing a tree and measuring it agree with the recursion on its operands. The writer adds the
text of the tree that its waiting operations enclose to what is written, whatever waits. In whatever
order the work list is emptied, the survey of a tree comes to an end; it does not stop before the
work list is empty, and has then found the height of the tree. The order of the loop is one of
them. -/
theorem loops_follow_recursion (expr : Expr) :
    expr.text = expr.writtenOut ∧
    (∀ (written : String) (pending : Pending),
      writeThen written pending expr = written ++ (pending.enclose expr).writtenOut) ∧
    expr.height = expr.levels ∧
    Acc (fun after before => Survey.Next before after) (Survey.start expr) ∧
    (∀ survey, ReflTransGen Survey.Next (Survey.start expr) survey →
      (survey.waiting = 0 → survey.greatest = expr.levels) ∧
      (survey.waiting ≠ 0 → ∃ after, Survey.Next survey after)) ∧
    ReflTransGen Survey.Next (Survey.start expr) ⟨expr.height, 0⟩ := by
  refine ⟨text_eq_writtenOut expr,
    fun written pending => writeThen_eq_writtenOut written pending expr, height_eq_levels expr,
    Survey.wellFounded_next.apply _, fun survey run => ⟨?_, ?_⟩,
    Survey.reaches_greatestLevel 0 [(expr, 1)]⟩
  · intro finished
    rw [← Survey.outcome_of_finished finished, Survey.outcome_eq_of_reaches run,
      Survey.outcome_start]
  · exact Survey.exists_next

/-- The left operand of the power is visited before the right one, unlike in the loop. -/
theorem loops_follow_recursion_leftFirst :
    let power : Expr := .binary .raise (.number 2.0) (negate (.number 3.0))
    ReflTransGen Survey.Next (Survey.start (.call .abs power)) ⟨4, 0⟩ ∧
      (Expr.call .abs power).height = 4 := by
  intro power
  have run : ReflTransGen Survey.Next (Survey.start (.call .abs power)) ⟨4, 0⟩ :=
    .head (.visit 0 1 (.call .abs power) 0) <| .head (.visit 1 2 power 0) <|
      .head (.visit 2 3 (number 2.0) {(negate (number 3.0), 3)}) <|
      .head (.visit 3 3 (negate (number 3.0)) 0) <|
      .head (.visit 3 4 (number 0.0) {(number 3.0, 4)}) <|
      .head (.visit 4 4 (number 3.0) 0) .refl
  obtain ⟨-, -, height_eq, -, orders, -⟩ := loops_follow_recursion (.call .abs power)
  exact ⟨run, height_eq.trans ((orders _ run).1 rfl).symm⟩

end DeskCalculator.Expr
