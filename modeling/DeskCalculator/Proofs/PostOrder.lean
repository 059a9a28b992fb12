/-
This file compares evaluation with the recursive walk that it replaces. The
evaluator goes down the left operands of a tree with a list of the operations
that wait for them; the walk calls itself for every operand, from left to right,
and then applies the operation. Both have the same value and the same fault,
which is that of the first operation in post-order that refuses its operands.
So a tree may be replaced by one with the same outcome wherever it stands.
-/

import DeskCalculator.Engine

namespace DeskCalculator.Expr

/-! ### The recursive walk -/

/-- The value of a tree by recursion on its operands: the left one, then the right one, then the
operation. The first fault ends the walk. -/
def postOrderValue (mode : AngleMode) : Expr → Except MathFault Float
  | number value => .ok value
  | binary operator left right =>
    match postOrderValue mode left with
    | .error cause => .error cause
    | .ok leftValue =>
      match postOrderValue mode right with
      | .error cause => .error cause
      | .ok rightValue => operator.apply leftValue rightValue
  | call function argument =>
    match postOrderValue mode argument with
    | .error cause => .error cause
    | .ok value => function.apply mode value

theorem evaluate_eq_postOrderValue (mode : AngleMode) (expr : Expr) :
    expr.evaluate mode = expr.postOrderValue mode := by
  induction expr with
  | number value => exact evaluate_number mode value
  | binary operator left right leftHypothesis rightHypothesis =>
    rw [evaluate_binary, leftHypothesis, rightHypothesis, postOrderValue]
    cases postOrderValue mode left with
    | error cause => rfl
    | ok leftValue => cases postOrderValue mode right <;> rfl
  | call function argument argumentHypothesis =>
    rw [evaluate_call, argumentHypothesis, postOrderValue]
    cases postOrderValue mode argument <;> rfl

/-! ### The first fault -/

/-- The subtrees of a tree, operands from left to right before their operation. -/
def postOrder : Expr → List Expr
  | number value => [number value]
  | binary operator left right => left.postOrder ++ right.postOrder ++ [binary operator left right]
  | call function argument => argument.postOrder ++ [call function argument]

/-- The fault of an outcome. -/
def fault? : Except MathFault Float → Option MathFault
  | .ok _ => none
  | .error cause => some cause

/-- The fault of the operation at the root of a tree, where its operands have values and it
refuses them. -/
def rootFault? (mode : AngleMode) : Expr → Option MathFault
  | number _ => none
  | binary operator left right =>
    match left.postOrderValue mode, right.postOrderValue mode with
    | .ok leftValue, .ok rightValue => fault? (operator.apply leftValue rightValue)
    | _, _ => none
  | call function argument =>
    match argument.postOrderValue mode with
    | .ok value => fault? (function.apply mode value)
    | .error _ => none

/-- The fault of a tree is the first one in post-order. -/
theorem fault?_postOrderValue (mode : AngleMode) (expr : Expr) :
    fault? (expr.postOrderValue mode) = expr.postOrder.findSome? (rootFault? mode) := by
  induction expr with
  | number value => rfl
  | binary operator left right leftHypothesis rightHypothesis =>
    rw [postOrderValue, postOrder, List.findSome?_append, List.findSome?_append,
      ← leftHypothesis, ← rightHypothesis, List.findSome?_singleton, rootFault?]
    cases left.postOrderValue mode with
    | error cause => rfl
    | ok leftValue => cases right.postOrderValue mode <;> rfl
  | call function argument argumentHypothesis =>
    rw [postOrderValue, postOrder, List.findSome?_append, ← argumentHypothesis,
      List.findSome?_singleton, rootFault?]
    cases argument.postOrderValue mode <;> rfl

/-- The faults of a calculation on a tree are faults of operations. -/
theorem value_eq_error_iff {mode : AngleMode} {expr : Expr} {fault : Fault} :
    Engine.value mode expr = .error fault ↔
      ∃ cause, fault = .math cause ∧ fault? (expr.evaluate mode) = some cause := by
  unfold Engine.value
  cases expr.evaluate mode with
  | ok value =>
    show Except.ok value = .error fault ↔ _
    simp [fault?]
  | error cause =>
    show Except.error (Fault.math cause) = .error fault ↔ _
    simp [fault?, eq_comm]

/-! ### Replacement -/

/-- A tree with a place left open in it. -/
inductive Context where
  | hole
  | left (operator : Operator) (inner : Context) (right : Expr)
  | right (operator : Operator) (left : Expr) (inner : Context)
  | argument (function : UnaryFunction) (inner : Context)

/-- The tree with the open place filled. -/
def Context.plug (expr : Expr) : Context → Expr
  | hole => expr
  | left operator inner other => .binary operator (inner.plug expr) other
  | right operator other inner => .binary operator other (inner.plug expr)
  | argument function inner => .call function (inner.plug expr)

theorem Context.mem_postOrder_plug (context : Context) (inner : Expr) :
    inner ∈ (context.plug inner).postOrder := by
  induction context with
  | hole => cases inner <;> simp [plug, postOrder]
  | left operator around other inductionHypothesis =>
    exact List.mem_append_left _ (List.mem_append_left _ inductionHypothesis)
  | right operator other around inductionHypothesis =>
    exact List.mem_append_left _ (List.mem_append_right _ inductionHypothesis)
  | argument function around inductionHypothesis =>
    exact List.mem_append_left _ inductionHypothesis

/-- The subtrees of a tree are what can stand at an open place of it. -/
theorem mem_postOrder_iff {inner expr : Expr} :
    inner ∈ expr.postOrder ↔ ∃ context : Context, context.plug inner = expr := by
  constructor
  · intro member
    induction expr with
    | number value => exact ⟨.hole, List.mem_singleton.mp member⟩
    | binary operator left right leftHypothesis rightHypothesis =>
      rcases List.mem_append.mp member with operand | root
      · rcases List.mem_append.mp operand with inLeft | inRight
        · obtain ⟨context, rfl⟩ := leftHypothesis inLeft
          exact ⟨.left operator context right, rfl⟩
        · obtain ⟨context, rfl⟩ := rightHypothesis inRight
          exact ⟨.right operator left context, rfl⟩
      · exact ⟨.hole, List.mem_singleton.mp root⟩
    | call function argument argumentHypothesis =>
      rcases List.mem_append.mp member with inArgument | root
      · obtain ⟨context, rfl⟩ := argumentHypothesis inArgument
        exact ⟨.argument function context, rfl⟩
      · exact ⟨.hole, List.mem_singleton.mp root⟩
  · rintro ⟨context, rfl⟩
    exact context.mem_postOrder_plug inner

theorem Context.evaluate_plug_congr {mode : AngleMode} {replaced replacement : Expr}
    (same : replaced.evaluate mode = replacement.evaluate mode) (context : Context) :
    (context.plug replaced).evaluate mode = (context.plug replacement).evaluate mode := by
  induction context with
  | hole => exact same
  | left operator inner other inductionHypothesis =>
    rw [plug, plug, evaluate_binary, evaluate_binary, inductionHypothesis]
  | right operator other inner inductionHypothesis =>
    rw [plug, plug, evaluate_binary, evaluate_binary, inductionHypothesis]
  | argument function inner inductionHypothesis =>
    rw [plug, plug, evaluate_call, evaluate_call, inductionHypothesis]

/-- A tree is evaluated as the recursive walk evaluates it, faults included. A calculation on it
fails with the first fault in post-order, which is a fault of an operation. Its subtrees are what
stands at an open place of it, and replacing one by a tree with the same outcome changes nothing. -/
theorem evaluate_in_postOrder (mode : AngleMode) (expr : Expr) :
    expr.evaluate mode = expr.postOrderValue mode ∧
    (∀ fault, Engine.value mode expr = .error fault ↔
      ∃ cause, fault = .math cause ∧
        expr.postOrder.findSome? (rootFault? mode) = some cause) ∧
    (∀ inner, inner ∈ expr.postOrder ↔ ∃ context : Context, context.plug inner = expr) ∧
    (∀ (context : Context) (replaced replacement : Expr), context.plug replaced = expr →
      replaced.evaluate mode = replacement.evaluate mode →
      (context.plug replacement).evaluate mode = expr.evaluate mode) := by
  refine ⟨evaluate_eq_postOrderValue mode expr, fun fault => ?_, fun _ => mem_postOrder_iff, ?_⟩
  · rw [value_eq_error_iff, evaluate_eq_postOrderValue, fault?_postOrderValue]
  · rintro context replaced replacement rfl same
    exact (context.evaluate_plug_congr same).symm

/-- Of two faults the left one is told, and at its right any division by zero is like another. -/
theorem evaluate_in_postOrder_left_first :
    Engine.value .degrees (.binary .add (.call .sqrt (.number (-1.0)))
        (.binary .divide (.number 1.0) (.number 0.0))) = .error (.math .negativeRoot) ∧
    Expr.evaluate .degrees (.binary .divide (.number 1.0) (.number 0.0)) =
      Expr.evaluate .degrees (.binary .divide (.number 2.0) (.number 0.0)) ∧
    Expr.evaluate .degrees (.binary .add (.call .sqrt (.number (-1.0)))
        (.binary .divide (.number 2.0) (.number 0.0))) =
      Expr.evaluate .degrees (.binary .add (.call .sqrt (.number (-1.0)))
        (.binary .divide (.number 1.0) (.number 0.0))) := by
  obtain ⟨_, faults, _, replaces⟩ := evaluate_in_postOrder .degrees
    (.binary .add (.call .sqrt (.number (-1.0))) (.binary .divide (.number 1.0) (.number 0.0)))
  have refused : ∀ value : Float, Expr.evaluate .degrees
      (.binary .divide (.number value) (.number 0.0)) = .error .divisionByZero := by
    intro value
    rw [evaluate_binary, evaluate_number, evaluate_number]
    show (if (0.0 : Float) == 0.0 then Except.error MathFault.divisionByZero
      else .ok (value / 0.0)) = _
    exact if_pos (by decide)
  have same := (refused 1.0).trans (refused 2.0).symm
  exact ⟨(faults _).mpr ⟨_, rfl, by decide⟩, same,
    replaces (.right .add (.call .sqrt (.number (-1.0))) .hole) _ _ rfl same⟩

end DeskCalculator.Expr
