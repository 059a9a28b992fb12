/-
This file names the reasons for which an expression has no value. A text can
hold a word outside the vocabulary, its tokens can fail to form an expression
or be nested too deeply, and an operation can have no value at its operands.
Every fault but the last kind points at a place in the text. One function words
them all.
-/

import DeskCalculator.Decimal.Text
import DeskCalculator.Vocabulary

namespace DeskCalculator

/-- Reasons for which an operation has no value at its operands. -/
inductive MathFault where
  | divisionByZero
  | negativeRoot
  | nonPositiveLog
  | nonPositiveNaturalLog
  | outsideUnit (function : UnaryFunction) (argument : Float)
  | fractionalFactorial (argument : Float)
  | negativeFactorial (argument : Float)
  | factorialOverflow (argument : Float)
  deriving DecidableEq

/-- The words for a fault of an operation. -/
def MathFault.message : MathFault → String
  | divisionByZero => "Division by zero"
  | negativeRoot => "Cannot take square root of negative number"
  | nonPositiveLog => "Logarithm argument must be positive"
  | nonPositiveNaturalLog => "Natural logarithm argument must be positive"
  | outsideUnit function argument =>
    function.name ++ " domain error: " ++ Text.plain argument ++ " not in [-1, 1]"
  | fractionalFactorial argument => "fact requires integer input, got " ++ Text.plain argument
  | negativeFactorial argument => "fact domain error: negative input " ++ Text.plain argument
  | factorialOverflow argument => "fact overflow: " ++ Text.plain argument ++ "! exceeds f64::MAX"

/-- Reasons for which tokens form no expression. -/
inductive GrammarFault where
  | missingEnd
  | trailingToken
  | unclosedGroup
  | missingArgument
  | unclosedArgument
  | unexpectedToken (text : String)
  | unexpectedEnd
  | badNumeral (text : String)
  deriving DecidableEq

/-- The words for a fault of the grammar, without its place. -/
def GrammarFault.message : GrammarFault → String
  | missingEnd => "Missing end of input token"
  | trailingToken => "Unexpected token after expression"
  | unclosedGroup => "Expected closing parenthesis"
  | missingArgument => "Expected '(' after function name"
  | unclosedArgument => "Expected ')' after function argument"
  | unexpectedToken text => "Unexpected token: " ++ text
  | unexpectedEnd => "Unexpected end of input"
  | badNumeral text => "Invalid number literal '" ++ text ++ "'"

/-- Reasons for which an expression has no value. Positions count characters. -/
inductive Fault where
  | unknownWord (text : String) (position : Nat)
  | grammar (cause : GrammarFault) (position : Nat)
  | tooDeep (limit position : Nat)
  | math (cause : MathFault)
  deriving DecidableEq

namespace Fault

/-- The place in the text that a fault points at; faults of operations have none. -/
def position? : Fault → Option Nat
  | unknownWord _ position => some position
  | grammar _ position => some position
  | tooDeep _ position => some position
  | math _ => none

/-- The name of the kind of fault. -/
def kind : Fault → String
  | unknownWord .. => "InvalidCharacterError"
  | grammar .. => "SyntaxError"
  | tooDeep .. => "DepthLimitError"
  | math _ => "MathError"

/-- The words for a place. -/
def atPosition (position : Nat) : String :=
  " at position " ++ Nat.repr position

/-- The words for a fault; where it points at a place they end with it. -/
def message : Fault → String
  | unknownWord text position => "Invalid character '" ++ text ++ "'" ++ atPosition position
  | grammar cause position => cause.message ++ atPosition position
  | tooDeep limit position =>
    "Expression nesting exceeds " ++ Nat.repr limit ++ " levels" ++ atPosition position
  | math cause => cause.message

end Fault

end DeskCalculator
