/-
This file puts the stages of a calculation together: a text is split into
tokens, the tokens are read as a tree, and the tree is evaluated. An engine is
fixed by its limit on the levels of nesting and keeps nothing between
calculations; the first stage that fails gives the fault.
-/

import DeskCalculator.Expr.Height
import DeskCalculator.Expr.OfTokens
import DeskCalculator.Expr.Text
import DeskCalculator.Expr.Value
import DeskCalculator.Token.Lexer

namespace DeskCalculator

/-- An engine with a limit on the levels of nesting. -/
structure Engine where
  limit : Nat := Expr.greatestLimit
  limit_bounds : 1 ≤ limit ∧ limit ≤ Expr.greatestLimit := by decide

namespace Engine

/-- The engine with the admissible limit nearest to the requested one. -/
def ofLimit (requested : Nat) : Engine :=
  ⟨Expr.clampLimit requested, by unfold Expr.clampLimit Expr.greatestLimit; omega⟩

/-- The tokens of a text. -/
def tokens (_engine : Engine) (text : String) : Except Fault (List Token) :=
  Token.lex text

/-- The tree of a list of tokens. -/
def tree (engine : Engine) (tokens : List Token) : Except Fault Expr :=
  Expr.ofTokens engine.limit tokens

/-- The value of a tree as a value of a calculation. -/
def value (mode : AngleMode) (expr : Expr) : Except Fault Float :=
  (expr.evaluate mode).mapError .math

/-- The value of a text, with angles measured in the given mode. -/
def evaluate (engine : Engine) (text : String) (mode : AngleMode) : Except Fault Float :=
  match engine.tokens text with
  | .error fault => .error fault
  | .ok tokens =>
    match engine.tree tokens with
    | .error fault => .error fault
    | .ok expr => value mode expr

end Engine

end DeskCalculator
