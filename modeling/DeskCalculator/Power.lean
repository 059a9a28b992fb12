/-
This file holds the powers of two and ten by which exact numbers are scaled. A
number `n * 2 ^ e` is the quotient of `n * twoTo e` and `twoTo (-e)`, whatever
the sign of `e`, and likewise for ten.
-/

namespace DeskCalculator

/-- Two to the power of an exponent, or one if the exponent is negative. -/
def twoTo (exponent : Int) : Nat :=
  Nat.pow 2 exponent.toNat

/-- Ten to the power of an exponent, or one if the exponent is negative. -/
def tenTo (exponent : Int) : Nat :=
  Nat.pow 10 exponent.toNat

theorem twoTo_pos (exponent : Int) : 0 < twoTo exponent :=
  Nat.pow_pos (by decide)

theorem tenTo_pos (exponent : Int) : 0 < tenTo exponent :=
  Nat.pow_pos (by decide)

end DeskCalculator
