/-
This file reads a float bit by bit. The 63 bits below the sign bit are the
float's rank: ranks order the magnitudes, and the magnitude of a finite rank is
a significand times a power of two. Everything exact in this library (decimal
text, rounding to an integer) is computed from these two naturals and not from
floating-point operations.
-/

namespace DeskCalculator.Binary

/-! ### Rank and sign -/

/-- The weight of the sign bit, `2 ^ 63`. -/
def signBit : Nat := 0x8000000000000000

/-- The number of ranks with one exponent, `2 ^ 52`. -/
def binade : Nat := 0x10000000000000

/-- The bits of a float below its sign bit. -/
def rank (value : Float) : Nat :=
  value.toBits.toNat % signBit

/-- The sign bit of a float. -/
def isNegative (value : Float) : Bool :=
  decide (signBit ≤ value.toBits.toNat)

/-- The rank of infinity. Smaller ranks are finite and greater ones are not numbers. -/
def infinityRank : Nat :=
  2047 * binade

/-- The float with this sign bit and this rank. -/
def ofRank (negative : Bool) (rank : Nat) : Float :=
  Float.ofBits (UInt64.ofNat (if negative then signBit + rank else rank))

/-! ### Magnitudes -/

/-- A magnitude `significand * 2 ^ exponent`. -/
structure Magnitude where
  significand : Nat
  exponent : Int
  deriving DecidableEq

/-- The least exponent: one unit of it is the smallest positive magnitude. -/
def leastExponent : Int := -1074

/-- The magnitude of a finite rank: from the second binade on, the leading one bit of the
significand is implied. -/
def magnitude (rank : Nat) : Magnitude :=
  if rank < binade then ⟨rank, leastExponent⟩
  else ⟨binade + rank % binade, leastExponent + (rank / binade - 1 : Nat)⟩

example : magnitude 1 = ⟨1, -1074⟩ := by decide

example : magnitude (rank 1.0) = ⟨binade, -52⟩ := by decide +kernel

end DeskCalculator.Binary
