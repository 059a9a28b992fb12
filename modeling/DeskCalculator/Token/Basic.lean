/-
This file defines tokens: the words of an expression with their texts and the
positions at which they start. A well-formed list of tokens ends with a token
for the end of the input.
-/

import DeskCalculator.Text.Count
import DeskCalculator.Vocabulary

namespace DeskCalculator

/-- What a token stands for. -/
inductive TokenKind where
  | number
  | operator (operator : Operator)
  | opening
  | closing
  | function (function : UnaryFunction)
  | constant (constant : Constant)
  | stop
  deriving DecidableEq

/-- A token: what it stands for, the text that it was read from, and the number of characters
before it. -/
structure Token where
  kind : TokenKind
  text : String
  position : Nat
  deriving DecidableEq

namespace Token

/-- The token for the end of the input. -/
def stop (position : Nat) : Token :=
  ⟨.stop, "", position⟩

/-- Whether the token stands for the end of the input. -/
def isStop (token : Token) : Bool :=
  token.kind = .stop

/-- The position just behind the token. Positions are counted in one word, so zero comes behind the
greatest one. -/
def positionBehind (token : Token) : Nat :=
  (token.position + token.text.length) % (greatestCount + 1)

/-- What a listing shows for the token. -/
def shown (token : Token) : String :=
  if token.isStop then "<fin>" else token.text

/-- The texts of the tokens with one space between them. -/
def listing (tokens : List Token) : String :=
  " ".intercalate (tokens.map shown)

end Token

end DeskCalculator
