/-
This file rounds floats to integers: down, up, and to the nearest integer with
halves going up. Rounding down is exact on the significand; the half-up rule
compares what rounding down took away with one half.
-/

import DeskCalculator.Binary.Nearest

namespace DeskCalculator.Binary

/-- The parts per integer in which a magnitude with a negative exponent is counted. -/
def Magnitude.parts (magnitude : Magnitude) : Nat :=
  twoTo (-magnitude.exponent)

/-- A float is integral when it is finite and its magnitude leaves no part over. -/
def isIntegral (value : Float) : Bool :=
  decide (rank value < infinityRank) &&
    (magnitude (rank value)).significand % (magnitude (rank value)).parts == 0

/-- The greatest integer that is at most the value; zero keeps its sign. -/
def floor (value : Float) : Float :=
  let whole := magnitude (rank value)
  if infinityRank ≤ rank value || 0 ≤ whole.exponent then value
  else if isNegative value then
    nearest true ((whole.significand + whole.parts - 1) / whole.parts) 1
  else nearest false (whole.significand / whole.parts) 1

/-- The least integer that is at least the value; zero keeps its sign. -/
def ceiling (value : Float) : Float :=
  -floor (-value)

/-- The nearest integer, halves upwards: `2.5` gives `3` and `-2.5` gives `-2`. -/
def roundHalfUp (value : Float) : Float :=
  let below := floor value
  if 0.5 ≤ value - below then below + 1.0 else below

end DeskCalculator.Binary
