/-
This file reads counts: the natural numbers of one machine word that a user
types for a place in the history or for a limit.
-/

namespace DeskCalculator

/-- The greatest count: the largest number of one 64-bit word. -/
def greatestCount : Nat := 0xFFFFFFFFFFFFFFFF

/-- The value of a run of decimal digits, most significant first. -/
def digitsValue (digits : List Char) : Nat :=
  digits.foldl (fun value digit => 10 * value + (digit.toNat - '0'.toNat)) 0

/-- Reads digits, at least one, as a count that fits one word. -/
def readDigits? (digits : List Char) : Option Nat :=
  if digits.isEmpty || !digits.all Char.isDigit then none
  else if digitsValue digits ≤ greatestCount then some (digitsValue digits)
  else none

/-- Reads a count: digits after an optional plus sign, and nothing around them. -/
def readCount? (text : String) : Option Nat :=
  match text.toList with
  | '+' :: digits => readDigits? digits
  | digits => readDigits? digits

end DeskCalculator
