/-
This file rounds a quotient of naturals to the nearest float, ties to the even
significand. The quotient is counted in units of the last place, so one
division with remainder decides the rounding; a count that reaches the next
power of two carries into the exponent by itself.
-/

import DeskCalculator.Binary.Basic
import DeskCalculator.Power

namespace DeskCalculator.Binary

/-- The quotient to the nearest natural, a tie to the even one. -/
def roundHalfEven (numerator denominator : Nat) : Nat :=
  let quotient := numerator / denominator
  let twice := 2 * (numerator % denominator)
  if denominator < twice || (twice == denominator && quotient % 2 == 1) then quotient + 1
  else quotient

/-- The exponent of the greatest power of two that is at most the positive quotient. -/
def leadingExponent (numerator denominator : Nat) : Int :=
  let estimate : Int := (numerator.log2 : Int) - denominator.log2
  if denominator * twoTo estimate ≤ numerator * twoTo (-estimate) then estimate
  else estimate - 1

/-- The exponent of the last place in which the positive quotient is counted. -/
def lastPlace (numerator denominator : Nat) : Int :=
  max leastExponent (leadingExponent numerator denominator - 52)

/-- The rank nearest to the quotient; from half a unit beyond the last finite rank, infinity. -/
def nearestRank (numerator denominator : Nat) : Nat :=
  if numerator = 0 then 0
  else
    let place := lastPlace numerator denominator
    let units := roundHalfEven (numerator * twoTo (-place)) (denominator * twoTo place)
    min infinityRank ((place - leastExponent).toNat * binade + units)

/-- The float nearest to a quotient with a sign. -/
def nearest (negative : Bool) (numerator denominator : Nat) : Float :=
  ofRank negative (nearestRank numerator denominator)

example : nearestRank 1 1 = rank 1.0 := by decide +kernel

example : nearestRank 1 10 = rank 0.1 := by decide +kernel

end DeskCalculator.Binary
