/-
This file gives the operators and functions their values. Sums, differences,
products, quotients and square roots are the floats nearest to the exact ones;
the transcendental functions are those of the platform. An operation refuses
the operands at which it has no value, with the cause.
-/

import DeskCalculator.Angle
import DeskCalculator.Binary.Integral
import DeskCalculator.Fault

namespace DeskCalculator

/-! ### Operators -/

/-- The value of an operator. A divisor that is zero of either sign is refused; a power that is no
real number is not. -/
def Operator.apply (operator : Operator) (left right : Float) : Except MathFault Float :=
  match operator with
  | add => .ok (left + right)
  | subtract => .ok (left - right)
  | multiply => .ok (left * right)
  | divide => if right == 0.0 then .error .divisionByZero else .ok (left / right)
  | raise => .ok (left.pow right)

/-! ### Factorial -/

/-- The greatest argument whose factorial is a finite float. -/
def greatestFactorial : Float := 170.0

/-- The product of the first integers as a float, each product rounded in turn. -/
def factorialProduct (count : Nat) : Float :=
  (List.range' 2 (count - 1)).foldl (fun product factor => product * Float.ofNat factor) 1.0

/-- The factorial of an integer from zero to the greatest argument. -/
def factorial (argument : Float) : Except MathFault Float :=
  if !Binary.isIntegral argument then .error (.fractionalFactorial argument)
  else if argument < 0.0 then .error (.negativeFactorial argument)
  else if argument > greatestFactorial then .error (.factorialOverflow argument)
  else .ok (factorialProduct argument.toUInt64.toNat)

/-! ### Functions -/

/-- Passes an argument of an inverse sine or cosine on unless it is below minus one or above one.
What is no number passes, since it is neither. -/
def unitArgument (function : UnaryFunction) (argument : Float) : Except MathFault Float :=
  if argument < -1.0 || argument > 1.0 then .error (.outsideUnit function argument)
  else .ok argument

/-- The value of a function, with angles measured in the given mode. -/
def UnaryFunction.apply (function : UnaryFunction) (mode : AngleMode) (argument : Float) :
    Except MathFault Float :=
  match function with
  | sin => .ok (mode.toRadians argument).sin
  | cos => .ok (mode.toRadians argument).cos
  | tan => .ok (mode.toRadians argument).tan
  | asin => (unitArgument asin argument).map fun ratio => mode.ofRadians ratio.asin
  | acos => (unitArgument acos argument).map fun ratio => mode.ofRadians ratio.acos
  | atan => .ok (mode.ofRadians argument.atan)
  | sqrt => if argument < 0.0 then .error .negativeRoot else .ok argument.sqrt
  | log => if argument ≤ 0.0 then .error .nonPositiveLog else .ok argument.log10
  | ln => if argument ≤ 0.0 then .error .nonPositiveNaturalLog else .ok argument.log
  | sinh => .ok argument.sinh
  | cosh => .ok argument.cosh
  | tanh => .ok argument.tanh
  | exp => .ok argument.exp
  | abs => .ok argument.abs
  | cbrt => .ok argument.cbrt
  | fact => factorial argument
  | floor => .ok (Binary.floor argument)
  | ceil => .ok (Binary.ceiling argument)
  | round => .ok (Binary.roundHalfUp argument)

end DeskCalculator
