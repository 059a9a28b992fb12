/-
This file proves that the angle mode matters to the six trigonometric functions
and to nothing else. Evaluating a tree in degrees is evaluating, in radians, the
tree in which the arguments of sine, cosine and tangent and the results of their
inverses are converted. A tree without such a call has nothing to convert, so it
has one outcome; and a text is read before any mode is asked for, so what refuses
it does not depend on the mode.
-/

import DeskCalculator.Proofs.Composition

namespace DeskCalculator

/-! ### Functions of angles -/

namespace UnaryFunction

/-- The functions that are given an angle. -/
def takesAngle : UnaryFunction → Bool
  | sin | cos | tan => true
  | _ => false

/-- The functions that return an angle. -/
def givesAngle : UnaryFunction → Bool
  | asin | acos | atan => true
  | _ => false

/-- The six functions of angles. -/
def trigonometric : List UnaryFunction :=
  [sin, cos, tan, asin, acos, atan]

theorem mem_trigonometric_iff {function : UnaryFunction} :
    function ∈ trigonometric ↔ function.takesAngle = true ∨ function.givesAngle = true := by
  cases function <;> decide

/-- An angle that is returned in degrees is the one that is returned in radians, converted. -/
theorem map_ofRadians (outcome : Except MathFault Float) (inverse : Float → Float) :
    (outcome.map fun ratio => AngleMode.degrees.ofRadians (inverse ratio)) =
      (outcome.map fun ratio => AngleMode.radians.ofRadians (inverse ratio)).map
        AngleMode.degrees.ofRadians := by
  -- Mapping comes before comparing, or the two functions on floats would be compared.
  cases outcome with
  | error cause => simp only [Except.map]
  | ok ratio =>
    simp only [Except.map]
    rfl

/-- In degrees an angle is converted on its way in or out, and everything else stays. -/
theorem apply_degrees (function : UnaryFunction) (argument : Float) :
    function.apply .degrees argument =
      if function.takesAngle then
        function.apply .radians (AngleMode.degrees.toRadians argument)
      else if function.givesAngle then
        (function.apply .radians argument).map AngleMode.degrees.ofRadians
      else function.apply .radians argument := by
  cases function with
  | asin => exact map_ofRadians (unitArgument asin argument) Float.asin
  | acos => exact map_ofRadians (unitArgument acos argument) Float.acos
  | _ => rfl

end UnaryFunction

/-! ### Trees -/

namespace Expr

/-- The functions that a tree calls. -/
def calls : Expr → List UnaryFunction
  | number _ => []
  | binary _ left right => left.calls ++ right.calls
  | call function argument => function :: argument.calls

/-- The tree calls no function of angles. -/
def IsAngleFree (expr : Expr) : Prop :=
  ∀ function ∈ expr.calls, function ∉ UnaryFunction.trigonometric

/-- The angle of a tree in degrees, in radians. -/
def fromDegrees (angle : Expr) : Expr :=
  .binary .divide (.binary .multiply angle (.number Constant.pi.value)) (.number 180.0)

/-- The angle of a tree in radians, in degrees. -/
def toDegrees (angle : Expr) : Expr :=
  .binary .divide (.binary .multiply angle (.number 180.0)) (.number Constant.pi.value)

/-- The tree that comes to in radians what this one comes to in degrees. -/
def inRadians : Expr → Expr
  | number value => .number value
  | binary operator left right => .binary operator left.inRadians right.inRadians
  | call function argument =>
    if function.takesAngle then .call function argument.inRadians.fromDegrees
    else if function.givesAngle then (call function argument.inRadians).toDegrees
    else .call function argument.inRadians

/-- A product divided by a number that is not zero has a value wherever its factor has one. -/
theorem evaluate_scaled (mode : AngleMode) (angle : Expr) (factor divisor : Float)
    (nonzero : (divisor == 0.0) = false) :
    evaluate mode
        (.binary .divide (.binary .multiply angle (.number factor)) (.number divisor)) =
      (evaluate mode angle).map fun value => value * factor / divisor := by
  rw [evaluate_binary, evaluate_binary, evaluate_number, evaluate_number]
  cases evaluate mode angle with
  | error cause => rfl
  | ok value =>
    show (if divisor == 0.0 then Except.error MathFault.divisionByZero
      else .ok (value * factor / divisor)) = _
    rw [nonzero]
    rfl

theorem evaluate_fromDegrees (mode : AngleMode) (angle : Expr) :
    evaluate mode angle.fromDegrees =
      (evaluate mode angle).map AngleMode.degrees.toRadians :=
  evaluate_scaled mode angle _ _ (by decide)

theorem evaluate_toDegrees (mode : AngleMode) (angle : Expr) :
    evaluate mode angle.toDegrees =
      (evaluate mode angle).map AngleMode.degrees.ofRadians :=
  evaluate_scaled mode angle _ _ (by decide)

/-- Evaluating in degrees is evaluating the converted tree in radians, faults included. -/
theorem evaluate_inRadians (expr : Expr) :
    evaluate .radians expr.inRadians = evaluate .degrees expr := by
  induction expr with
  | number value => rw [inRadians, evaluate_number, evaluate_number]
  | binary operator left right leftHypothesis rightHypothesis =>
    rw [inRadians, evaluate_binary, evaluate_binary, leftHypothesis, rightHypothesis]
  | call function argument argumentHypothesis =>
    rw [inRadians, evaluate_call, funext (UnaryFunction.apply_degrees function)]
    cases takes : function.takesAngle with
    | true =>
      rw [if_pos rfl, evaluate_call, evaluate_fromDegrees, argumentHypothesis]
      cases evaluate .degrees argument <;> rfl
    | false =>
      cases gives : function.givesAngle with
      | true =>
        rw [if_neg Bool.false_ne_true, if_pos rfl, evaluate_toDegrees, evaluate_call,
          argumentHypothesis]
        cases evaluate .degrees argument <;> rfl
      | false =>
        rw [if_neg Bool.false_ne_true, if_neg Bool.false_ne_true, evaluate_call,
          argumentHypothesis]
        rfl

theorem inRadians_of_isAngleFree {expr : Expr} (free : expr.IsAngleFree) :
    expr.inRadians = expr := by
  induction expr with
  | number value => rfl
  | binary operator left right leftHypothesis rightHypothesis =>
    obtain ⟨leftFree, rightFree⟩ := List.forall_mem_append.mp free
    rw [inRadians, leftHypothesis leftFree, rightHypothesis rightFree]
  | call function argument argumentHypothesis =>
    obtain ⟨notAngle, argumentFree⟩ := List.forall_mem_cons.mp free
    rw [UnaryFunction.mem_trigonometric_iff, not_or] at notAngle
    rw [inRadians, if_neg notAngle.1, if_neg notAngle.2, argumentHypothesis argumentFree]

/-- A tree without functions of angles has one outcome in both modes. -/
theorem evaluate_of_isAngleFree {expr : Expr} (free : expr.IsAngleFree) :
    evaluate .degrees expr = evaluate .radians expr := by
  rw [← evaluate_inRadians, inRadians_of_isAngleFree free]

end Expr

/-! ### Texts -/

namespace Engine

/-- A refusal of a text is one of its reading. -/
theorem evaluate_eq_refusal_iff (engine : Engine) (text : String) (mode : AngleMode)
    {fault : Fault} (notMath : ∀ cause, fault ≠ .math cause) :
    engine.evaluate text mode = .error fault ↔ engine.read text = .error fault := by
  rw [evaluate_eq_bind]
  cases engine.read text with
  | error readFault => simp [Except.bind]
  | ok expr =>
    show value mode expr = .error fault ↔ _
    obtain ⟨found, valued⟩ | ⟨cause, valued⟩ := value_cases mode expr
    · rw [valued]
      simp
    · rw [valued]
      simpa using (notMath cause).symm

/-- Evaluation in degrees is evaluation in radians with the angles of the six functions converted.
So a tree without these functions has one outcome in both modes, and so has a text that is read as
such a tree; and a text is refused for its words, its grammar or its depth in both modes or in
neither, and with one fault. -/
theorem evaluate_modes (engine : Engine) (text : String) :
    (∀ expr : Expr, expr.evaluate .degrees = expr.inRadians.evaluate .radians ∧
      (expr.IsAngleFree → expr.evaluate .degrees = expr.evaluate .radians)) ∧
    (∀ fault, (∀ cause, fault ≠ .math cause) →
      (engine.evaluate text .degrees = .error fault ↔
        engine.evaluate text .radians = .error fault)) ∧
    (∀ tokens expr, engine.tokens text = .ok tokens → engine.tree tokens = .ok expr →
      expr.IsAngleFree → engine.evaluate text .degrees = engine.evaluate text .radians) := by
  refine ⟨fun expr => ⟨expr.evaluate_inRadians.symm, Expr.evaluate_of_isAngleFree⟩,
    fun fault notMath => ?_, fun tokens expr lexed read free => ?_⟩
  · rw [evaluate_eq_refusal_iff engine text _ notMath,
      evaluate_eq_refusal_iff engine text _ notMath]
  · have found : engine.read text = .ok expr := by
      rw [Engine.read, lexed]
      exact read
    rw [evaluate_eq_bind, evaluate_eq_bind, found]
    show value _ expr = value _ expr
    rw [value, value, Expr.evaluate_of_isAngleFree free]

/-- The root of a negative number is refused in both modes, under a function of no angle. -/
theorem evaluate_modes_negativeRoot :
    (Expr.call .exp (.call .sqrt (.number (-1.0)))).IsAngleFree ∧
      (Expr.call .exp (.call .sqrt (.number (-1.0)))).evaluate .degrees =
        (Expr.call .exp (.call .sqrt (.number (-1.0)))).evaluate .radians ∧
      Engine.evaluate {} "sin(2" .degrees = .error (.grammar .unclosedArgument 5) ∧
      Engine.evaluate {} "sin(2" .radians = .error (.grammar .unclosedArgument 5) := by
  obtain ⟨trees, faults, _⟩ := evaluate_modes {} "sin(2"
  have free : (Expr.call .exp (.call .sqrt (.number (-1.0)))).IsAngleFree := by
    unfold Expr.IsAngleFree
    decide
  have refused : Engine.evaluate {} "sin(2" .degrees = .error (.grammar .unclosedArgument 5) := by
    rfl
  exact ⟨free, (trees _).2 free, refused, (faults _ (fun _ => Fault.noConfusion)).mp refused⟩

end Engine

end DeskCalculator
