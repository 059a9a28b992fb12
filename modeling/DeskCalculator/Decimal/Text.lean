/-
This file writes floats in decimal. A decimal is laid out either positionally
(`0.00025`) or with an exponent (`2.5e-4`), and two texts of a float are built
from these layouts: the plain text that trees and messages show, and the result
text of the display and the history.
-/

import DeskCalculator.Decimal.Shortest

namespace DeskCalculator

namespace Decimal

/-! ### Layouts -/

/-- The digits of the coefficient, most significant first. -/
def digits (decimal : Decimal) : List Char :=
  Nat.toDigits 10 decimal.coefficient

/-- The exponent of the leading digit: `3` for `2500` and `-4` for `0.00025`. -/
def leadingExponent (decimal : Decimal) : Int :=
  decimal.digits.length + decimal.exponent - 1

/-- The decimal without an exponent: zeros fill the places up to the point, and a point stands
only before a digit of the fraction. -/
def positional (decimal : Decimal) : List Char :=
  let digits := decimal.digits
  if 0 ≤ decimal.exponent then digits ++ List.replicate decimal.exponent.toNat '0'
  else
    let places := (-decimal.exponent).toNat
    let padded := List.replicate (places + 1 - digits.length) '0' ++ digits
    padded.take (padded.length - places) ++ '.' :: padded.drop (padded.length - places)

/-- The digits with a point after the first one; a single digit stands without a point. -/
def mantissa (decimal : Decimal) : List Char :=
  match decimal.digits with
  | lead :: second :: rest => lead :: '.' :: second :: rest
  | digits => digits

/-- An integer with its sign always written. -/
def signedDigits (value : Int) : List Char :=
  (if value < 0 then '-' else '+') :: Nat.toDigits 10 value.natAbs

/-- The decimal with one digit before the point and an exponent whose sign is always written. -/
def scientific (decimal : Decimal) : List Char :=
  decimal.mantissa ++ 'e' :: signedDigits decimal.leadingExponent

/-- A minus sign for a negative value. -/
def signed (negative : Bool) (magnitude : List Char) : List Char :=
  if negative then '-' :: magnitude else magnitude

end Decimal

namespace Text

open Binary (rank isNegative)

/-! ### The plain text -/

/-- The plain text of a float: its shortest decimal without an exponent, whatever its size, with
the sign of a zero. An exact tie between two shortest decimals goes up. -/
def plain (value : Float) : String :=
  if value.isNaN then "NaN"
  else String.ofList <| Decimal.signed (isNegative value) <|
    if value.isInf then ['i', 'n', 'f']
    else if rank value = 0 then ['0']
    else (Decimal.shortest .up (rank value)).positional

/-! ### The result text -/

/-- The least magnitude whose result text has no exponent. -/
def leastPositional : Float := 1e-6

/-- The least magnitude from which result texts have an exponent again. -/
def leastScientific : Float := 1e21

/-- Whether the result text of a nonzero finite float has no exponent. -/
def isPositional (value : Float) : Bool :=
  leastPositional ≤ value.abs && value.abs < leastScientific

/-- The result text of a float: the shortest decimal, without the sign of a zero, and with an
exponent for very small and very large magnitudes. -/
def result (value : Float) : String :=
  if value.isNaN then "NaN"
  else if value.isInf then (if isNegative value then "-Infinity" else "Infinity")
  else if rank value = 0 then "0"
  else
    let decimal := Decimal.shortest .up (rank value)
    String.ofList <| Decimal.signed (isNegative value) <|
      if isPositional value then decimal.positional else decimal.scientific

end Text

end DeskCalculator
