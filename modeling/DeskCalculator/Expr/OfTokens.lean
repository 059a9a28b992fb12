/-
This file reads expression trees from tokens. A sum is a chain of products, a
product a chain of powers, and a power an operand with an optional exponent
that is itself a power; chains lean to the left and exponents to the right. An
operand is a number, a constant, a negated operand, a parenthesised sum or a
call of a function. Powers and negations nest: each one opens a level, and a
limit on the levels bounds how deeply the reading goes, whatever the length of
the text.
-/

import DeskCalculator.Decimal.Numeral
import DeskCalculator.Expr.Basic
import DeskCalculator.Fault
import DeskCalculator.Token.Basic

namespace DeskCalculator.Expr

/-! ### Readers -/

/-- A reader takes an expression off the front of the tokens before the end of the input, and
returns it with the tokens that follow it. -/
abbrev Reader := List Token → Except Fault (Expr × List Token)

/-- The position of the next token, or of the end of the input after the last one. -/
def nextPosition (stop : Nat) : List Token → Nat
  | [] => stop
  | token :: _ => token.position

/-- Passes over a token of the given kind. -/
def expect (stop : Nat) (kind : TokenKind) (cause : GrammarFault) (tokens : List Token) :
    Except Fault (List Token) :=
  match tokens with
  | [] => .error (.grammar cause stop)
  | token :: rest =>
    if token.kind = kind then .ok rest else .error (.grammar cause token.position)

/-- Reads a parenthesised part after its opening parenthesis. -/
def enclosed (stop : Nat) (sum : Reader) (cause : GrammarFault) : Reader := fun tokens =>
  match sum tokens with
  | .error fault => .error fault
  | .ok (expr, rest) => (expect stop .closing cause rest).map fun rest => (expr, rest)

/-- The number that a token spells. -/
def numberOf (token : Token) : Except Fault Expr :=
  match Numeral.read? token.text with
  | some value => .ok (.number value)
  | none => .error (.grammar (.badNumeral token.text) token.position)

/-! ### Chains -/

/-- The operators of sums. -/
def isSumOperator (operator : Operator) : Bool :=
  operator = .add || operator = .subtract

/-- The operators of products. -/
def isProductOperator (operator : Operator) : Bool :=
  operator = .multiply || operator = .divide

/-- Goes on with a chain after its left part, for at most as many more operands as `bound` has
tokens. -/
def chainFrom (joins : Operator → Bool) (operand : Reader) (bound : List Token) (left : Expr) :
    Reader := fun tokens =>
  match bound, tokens with
  | _ :: bound, token :: rest =>
    match token.kind with
    | .operator operator =>
      if joins operator then
        match operand rest with
        | .error fault => .error fault
        | .ok (right, rest) => chainFrom joins operand bound (.binary operator left right) rest
      else .ok (left, tokens)
    | _ => .ok (left, tokens)
  | _, _ => .ok (left, tokens)

/-- Reads operands joined by operators of one rank into a tree that leans to the left. Every
further operand takes at least its operator off the tokens, so there are no more of them than
tokens after the first operand. -/
def chain (joins : Operator → Bool) (operand : Reader) : Reader := fun tokens =>
  match operand tokens with
  | .error fault => .error fault
  | .ok (left, rest) => chainFrom joins operand rest left rest

/-- Reads a sum of products of powers. -/
def sumOf (power : Reader) : Reader :=
  chain isSumOperator (chain isProductOperator power)

/-! ### Rules by level -/

/-- The two rules that open levels: a power, and an operand without an exponent. -/
structure Rules where
  power : Reader
  operand : Reader

/-- Refuses to open one more level. -/
def refuseLevel (limit stop : Nat) : Reader := fun tokens =>
  .error (.tooDeep limit (nextPosition stop tokens))

/-- Reads a power: an operand, and after a power sign its exponent. -/
def powerRule (operand exponent : Reader) : Reader := fun tokens =>
  match operand tokens with
  | .error fault => .error fault
  | .ok (base, []) => .ok (base, [])
  | .ok (base, token :: rest) =>
    if token.kind = .operator .raise then
      match exponent rest with
      | .error fault => .error fault
      | .ok (exponent, rest) => .ok (.binary .raise base exponent, rest)
    else .ok (base, token :: rest)

/-- Reads an operand without an exponent. -/
def operandRule (stop : Nat) (sum negated : Reader) : Reader := fun tokens =>
  match tokens with
  | [] => .error (.grammar .unexpectedEnd stop)
  | token :: rest =>
    match token.kind with
    | .number => (numberOf token).map fun number => (number, rest)
    | .constant constant => .ok (.number constant.value, rest)
    | .operator .subtract => (negated rest).map fun (expr, rest) => (expr.negate, rest)
    | .opening => enclosed stop sum .unclosedGroup rest
    | .function function =>
      match expect stop .opening .missingArgument rest with
      | .error fault => .error fault
      | .ok rest =>
        (enclosed stop sum .unclosedArgument rest).map fun (expr, rest) =>
          (.call function expr, rest)
    | .operator _ | .closing => .error (.grammar (.unexpectedToken token.text) token.position)
    | .stop => .error (.grammar .unexpectedEnd token.position)

/-- The rules when this many levels may still be opened. -/
def rules (limit stop : Nat) : Nat → Rules
  | 0 =>
    let power := refuseLevel limit stop
    ⟨power, operandRule stop (sumOf power) (refuseLevel limit stop)⟩
  | levels + 1 =>
    let inner := rules limit stop levels
    let power := powerRule inner.operand inner.power
    ⟨power, operandRule stop (sumOf power) inner.operand⟩

/-! ### Whole inputs -/

/-- The greatest limit on the levels, and the limit where none is given. -/
def greatestLimit : Nat := 256

/-- A requested limit, moved between one and the greatest limit. -/
def clampLimit (requested : Nat) : Nat :=
  max 1 (min requested greatestLimit)

/-- Reads tokens that end at a position as one sum that nothing follows. -/
def ofBody (limit stop : Nat) (body : List Token) : Except Fault Expr :=
  match sumOf (rules limit stop limit).power body with
  | .error fault => .error fault
  | .ok (expr, []) => .ok expr
  | .ok (_, token :: _) => .error (.grammar .trailingToken token.position)

/-- The tokens before the first token for the end of the input. -/
def body (tokens : List Token) : List Token :=
  tokens.takeWhile fun token => !token.isStop

/-- The position of the first token for the end of the input. -/
def stopPosition (tokens : List Token) : Nat :=
  nextPosition 0 (tokens.dropWhile fun token => !token.isStop)

/-- The tree of a list of tokens. The list has to end with a token for the end of the input;
tokens after the first such token are not looked at. -/
def ofTokens (requestedLimit : Nat) (tokens : List Token) : Except Fault Expr :=
  match tokens.getLast? with
  | none => .error (.grammar .missingEnd 0)
  | some last =>
    if last.isStop then
      ofBody (clampLimit requestedLimit) (stopPosition tokens) (body tokens)
    else .error (.grammar .missingEnd last.positionBehind)

end DeskCalculator.Expr
