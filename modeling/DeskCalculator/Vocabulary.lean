/-
This file lists the words of an expression: the five operators, the two
constants and the nineteen functions of one argument, each with its one
spelling. The vocabulary is closed; no other word is ever read.
-/

namespace DeskCalculator

/-! ### Operators -/

/-- The operators between two operands. -/
inductive Operator where
  | add
  | subtract
  | multiply
  | divide
  | raise
  deriving DecidableEq

namespace Operator

/-- The character that stands for the operator. -/
def symbol : Operator → Char
  | add => '+'
  | subtract => '-'
  | multiply => '*'
  | divide => '/'
  | raise => '^'

/-- The operator that a character stands for. -/
def ofSymbol? : Char → Option Operator
  | '+' => some add
  | '-' => some subtract
  | '*' => some multiply
  | '/' => some divide
  | '^' => some raise
  | _ => none

theorem ofSymbol?_symbol (operator : Operator) : ofSymbol? operator.symbol = some operator := by
  cases operator <;> rfl

end Operator

/-! ### Constants -/

/-- The named constants. -/
inductive Constant where
  | pi
  | e
  deriving DecidableEq

namespace Constant

/-- The spelling of the constant. -/
def name : Constant → String
  | pi => "PI"
  | e => "E"

/-- The constant that a text spells. -/
def ofName? (text : String) : Option Constant :=
  [pi, e].find? fun constant => constant.name == text

/-- The float nearest to the constant. -/
def value : Constant → Float
  | pi => 3.141592653589793
  | e => 2.718281828459045

end Constant

/-! ### Functions -/

/-- The functions of one argument. -/
inductive UnaryFunction where
  | sin
  | cos
  | tan
  | sqrt
  | log
  | ln
  | asin
  | acos
  | atan
  | sinh
  | cosh
  | tanh
  | exp
  | abs
  | cbrt
  | fact
  | floor
  | ceil
  | round
  deriving DecidableEq

namespace UnaryFunction

/-- The functions in their catalogue order. -/
def all : List UnaryFunction :=
  [sin, cos, tan, sqrt, log, ln, asin, acos, atan, sinh, cosh, tanh, exp, abs, cbrt, fact, floor,
   ceil, round]

/-- The spelling of the function. -/
def name : UnaryFunction → String
  | sin => "sin"
  | cos => "cos"
  | tan => "tan"
  | sqrt => "sqrt"
  | log => "log"
  | ln => "ln"
  | asin => "asin"
  | acos => "acos"
  | atan => "atan"
  | sinh => "sinh"
  | cosh => "cosh"
  | tanh => "tanh"
  | exp => "exp"
  | abs => "abs"
  | cbrt => "cbrt"
  | fact => "fact"
  | floor => "floor"
  | ceil => "ceil"
  | round => "round"

/-- The function that a text spells, letter case included. -/
def ofName? (text : String) : Option UnaryFunction :=
  all.find? fun function => function.name == text

theorem ofName?_name (function : UnaryFunction) : ofName? function.name = some function := by
  cases function <;> decide

end UnaryFunction

end DeskCalculator
