/-
This file finds the shortest decimal of a float: of all decimals that read back
as the float, one with the fewest digits, and of those the one nearest to the
float. The reals that round to one float form an interval, its basin. The grid
of the multiples of `10 ^ k` gets finer as `k` falls, and the first grid with a
point in the basin gives the decimal; only the two neighbours of the float on a
grid have to be looked at.
-/

import DeskCalculator.Binary.Basic
import DeskCalculator.Power

namespace DeskCalculator

/-- A decimal `coefficient * 10 ^ exponent`. -/
structure Decimal where
  coefficient : Nat
  exponent : Int
  deriving DecidableEq

namespace Decimal

/-- Where an exact tie between two decimals of one length goes. -/
inductive Tie where
  | up
  | even
  deriving DecidableEq

/-! ### The basin of a float -/

/-- The reals that round to one float: from `low` to `high` times `2 ^ exponent`, with the
float itself at `middle`. The ends belong to the basin when it is closed. -/
structure Basin where
  low : Nat
  middle : Nat
  high : Nat
  exponent : Int
  closed : Bool

/-- The basin of a finite positive rank, in quarters of a unit in the last place. Below a power
of two the gap to the next smaller float is half as wide. -/
def Basin.ofRank (rank : Nat) : Basin :=
  let float := Binary.magnitude rank
  let atPowerOfTwo := 2 * Binary.binade ≤ rank && rank % Binary.binade == 0
  { low := 4 * float.significand - (if atPowerOfTwo then 1 else 2)
    middle := 4 * float.significand
    high := 4 * float.significand + 2
    exponent := float.exponent - 2
    closed := float.significand % 2 == 0 }

namespace Basin

/-- What one unit of the basin is multiplied with to be compared with grid points. -/
def scale (basin : Basin) (grid : Int) : Nat :=
  twoTo basin.exponent * tenTo (-grid)

/-- What a grid coefficient is multiplied with to be compared with scaled units. -/
def step (basin : Basin) (grid : Int) : Nat :=
  twoTo (-basin.exponent) * tenTo grid

/-- Whether the basin holds `coefficient * 10 ^ grid`. -/
def contains (basin : Basin) (grid : Int) (coefficient : Nat) : Bool :=
  let point := coefficient * basin.step grid
  let low := basin.low * basin.scale grid
  let high := basin.high * basin.scale grid
  if basin.closed then low ≤ point && point ≤ high else low < point && point < high

/-- The greatest coefficient of the grid that is at most the float. -/
def below (basin : Basin) (grid : Int) : Nat :=
  basin.middle * basin.scale grid / basin.step grid

/-- Whether of the float's two neighbours on the grid the upper one is to be taken. -/
def prefersAbove (tie : Tie) (basin : Basin) (grid : Int) : Bool :=
  let twice := 2 * (basin.middle * basin.scale grid % basin.step grid)
  if twice == basin.step grid then tie == .up || basin.below grid % 2 == 1
  else basin.step grid < twice

/-- The coefficient to take on the grid, if one of the float's neighbours is in the basin. -/
def pick? (tie : Tie) (basin : Basin) (grid : Int) : Option Nat :=
  let lower := basin.below grid
  match basin.contains grid lower, basin.contains grid (lower + 1) with
  | true, true => some (if basin.prefersAbove tie grid then lower + 1 else lower)
  | true, false => some lower
  | false, true => some (lower + 1)
  | false, false => none

/-- A grid whose points pass beyond the whole basin after zero: no coarser one has a point in it. -/
def coarsest (basin : Basin) : Int :=
  let whole := basin.high * twoTo basin.exponent / twoTo (-basin.exponent)
  if whole = 0 then
    2 - ((Nat.toDigits 10 (twoTo (-basin.exponent) / basin.high)).length : Int)
  else (Nat.toDigits 10 whole).length

/-- A grid that holds the float itself, since two divides ten. -/
def finest (basin : Basin) : Int :=
  min basin.exponent 0

/-- The search from the grid this many steps above the finest one downwards. -/
def shortestWithin (tie : Tie) (basin : Basin) : Nat → Decimal
  | 0 => ⟨basin.below basin.finest, basin.finest⟩
  | steps + 1 =>
    let grid := basin.finest + (steps + 1 : Nat)
    match basin.pick? tie grid with
    | some coefficient => ⟨coefficient, grid⟩
    | none => shortestWithin tie basin steps

end Basin

/-! ### The shortest decimal -/

/-- The shortest decimal of a finite positive rank. -/
def shortest (tie : Tie) (rank : Nat) : Decimal :=
  let basin := Basin.ofRank rank
  basin.shortestWithin tie (basin.coarsest - basin.finest).toNat

example : shortest .up (Binary.rank 0.3) = ⟨3, -1⟩ := by decide +kernel

example : shortest .up (Binary.rank 1e23) = ⟨1, 23⟩ := by decide +kernel

example : shortest .up 1 = ⟨5, -324⟩ := by decide +kernel

end Decimal

end DeskCalculator
