/-
This file reads numerals as floats. A numeral is an optional sign before digits
with an optional point and an optional exponent, or before one of the words for
infinity and for no number. Its value is a quotient of naturals, rounded once
to the nearest float.
-/

import DeskCalculator.Text.Count
import DeskCalculator.Binary.Nearest

namespace DeskCalculator.Numeral

/-! ### Value -/

/-- The greatest exponent of ten that leading digits of finite floats have. -/
def greatestTen : Int := 308

/-- The least exponent of ten up to which a decimal below it is nearer to zero than to any
positive float. -/
def leastTen : Int := -324

/-- The float nearest to `coefficient * 10 ^ exponent`. Where the leading digit alone decides
between infinity and zero no power of ten is computed. -/
def nearestDecimal (negative : Bool) (coefficient : List Char) (exponent : Int) : Float :=
  let significant := coefficient.dropWhile (· == '0')
  let magnitude := (significant.length : Int) + exponent
  if significant.isEmpty || magnitude ≤ leastTen then Binary.ofRank negative 0
  else if greatestTen + 1 < magnitude then Binary.ofRank negative Binary.infinityRank
  else
    Binary.nearest negative (digitsValue significant * tenTo exponent) (tenTo (-exponent))

/-! ### Reading -/

/-- Splits a sign off; without one the numeral is not negative. -/
def splitSign : List Char → Bool × List Char
  | '-' :: rest => (true, rest)
  | '+' :: rest => (false, rest)
  | rest => (false, rest)

/-- Reads the digits of an exponent, at least one, after an optional sign. -/
def readExponent? (chars : List Char) : Option Int :=
  let (negative, digits) := splitSign chars
  if digits.isEmpty || !digits.all Char.isDigit then none
  else if negative then some (-(digitsValue digits : Int))
  else some (digitsValue digits)

/-- Reads what follows the digits of a numeral: nothing, or a letter `e` and an exponent. -/
def readTail? : List Char → Option Int
  | [] => some 0
  | letter :: rest => if letter.toLower = 'e' then readExponent? rest else none

/-- Splits the digits of a fraction off, if a point comes first. -/
def splitFraction : List Char → List Char × List Char
  | '.' :: rest => (rest.takeWhile Char.isDigit, rest.dropWhile Char.isDigit)
  | rest => ([], rest)

/-- Reads an unsigned numeral of digits: before or after the point there is at least one. -/
def readDecimal? (negative : Bool) (chars : List Char) : Option Float :=
  let whole := chars.takeWhile Char.isDigit
  let (fraction, rest) := splitFraction (chars.dropWhile Char.isDigit)
  if whole.isEmpty && fraction.isEmpty then none
  else
    (readTail? rest).map fun exponent =>
      nearestDecimal negative (whole ++ fraction) (exponent - fraction.length)

/-- The words for infinity. -/
def infinityWords : List String := ["inf", "infinity"]

/-- The word for a result that is no number. -/
def nanWord : String := "nan"

/-- Reads a numeral; words may be in letters of either case. -/
def read? (text : String) : Option Float :=
  let (negative, chars) := splitSign text.toList
  let word := String.ofList (chars.map Char.toLower)
  if infinityWords.contains word then some (Binary.ofRank negative Binary.infinityRank)
  else if word = nanWord then some (0.0 / 0.0)
  else readDecimal? negative chars

end DeskCalculator.Numeral
