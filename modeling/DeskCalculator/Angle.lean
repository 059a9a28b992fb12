/-
This file holds the angle mode: whether the trigonometric functions measure
angles in degrees or in radians. The mode is a parameter of every evaluation;
no expression carries one.
-/

import DeskCalculator.Text.Blank
import DeskCalculator.Vocabulary

namespace DeskCalculator

/-- The unit in which angles are measured. -/
inductive AngleMode where
  | degrees
  | radians
  deriving DecidableEq

namespace AngleMode

/-! ### Names -/

/-- The name that is shown for the mode. -/
def name : AngleMode → String
  | degrees => "DEG"
  | radians => "RAD"

/-- The mode that a keyword of a request names: the name in capitals or in small letters. -/
def ofKeyword? : String → Option AngleMode
  | "DEG" | "deg" => some degrees
  | "RAD" | "rad" => some radians
  | _ => none

/-- A text that names no angle mode, in capitals and without the blanks around it. -/
structure Unknown where
  text : String
  deriving DecidableEq

/-- The message for a text that names no mode. -/
def Unknown.message (unknown : Unknown) : String :=
  "mode d’angle inconnu: '" ++ unknown.text ++ "' (attendu DEG ou RAD)"

/-- Reads a mode that a user typed: blanks around the name and the case of its letters do not
matter. -/
def read (text : String) : Except Unknown AngleMode :=
  match String.ofList ((trimBlanks text.toList).map Char.toUpper) with
  | "DEG" => .ok degrees
  | "RAD" => .ok radians
  | other => .error ⟨other⟩

/-! ### Conversion -/

/-- The angle in radians of an argument given in the mode's unit. -/
def toRadians (mode : AngleMode) (angle : Float) : Float :=
  match mode with
  | degrees => angle * Constant.pi.value / 180.0
  | radians => angle

/-- The angle in the mode's unit of a result in radians. -/
def ofRadians (mode : AngleMode) (angle : Float) : Float :=
  match mode with
  | degrees => angle * 180.0 / Constant.pi.value
  | radians => angle

end AngleMode

end DeskCalculator
