import BinaryRecord.FloatFormat

/-!
# Shortest decimals

A real number of a binary format is written by the shortest decimal that still rounds to it: among
the points of the decimal grids `10 ^ g` inside the rounding interval, one on the coarsest grid, and
there the one nearest to the number.
-/

set_option autoImplicit false

attribute [local instance (high)] instPowNat

namespace BinaryRecord

structure Decimal where
  digits : Nat
  exponent : Int
  deriving DecidableEq, Repr

/-- The real numbers that round to one positive number of a binary format. All three numbers are
counts of the unit `2 ^ scale`. -/
structure RoundingInterval where
  low : Nat
  centre : Nat
  high : Nat
  scale : Int
  closed : Bool
  deriving DecidableEq, Repr

/-- The rounding interval of `significand * 2 ^ exponent`. It ends midway to either neighbour. The
lower neighbour of a power of two is half as far away as the upper one, unless the exponent is the
least of the format. The ends round to the number exactly if its significand is even. -/
def FloatFormat.interval (format : FloatFormat) (significand : Nat) (exponent : Int) :
    RoundingInterval :=
  let centre := 4 * significand
  let narrow := significand = 2 ^ format.fractionBits ∧ exponent ≠ format.leastExponent
  { low := if narrow then centre - 1 else centre - 2
    centre := centre
    high := centre + 2
    scale := exponent - 2
    closed := significand % 2 = 0 }

namespace RoundingInterval

/-- How many common parts the unit of the decimal grid `10 ^ grid` has. The common parts measure the
grid and the unit of the interval alike. -/
def gridParts (interval : RoundingInterval) (grid : Int) : Nat :=
  10 ^ grid.toNat * 2 ^ (-interval.scale).toNat

def unitParts (interval : RoundingInterval) (grid : Int) : Nat :=
  2 ^ interval.scale.toNat * 10 ^ (-grid).toNat

/-- Whether a number, given in common parts, lies in the interval. -/
def contains (interval : RoundingInterval) (grid : Int) (parts : Nat) : Bool :=
  let low := interval.low * interval.unitParts grid
  let high := interval.high * interval.unitParts grid
  if interval.closed then low ≤ parts ∧ parts ≤ high else low < parts ∧ parts < high

/-- The point of the decimal grid `10 ^ grid` in the interval that is nearest to the centre, and of
two that are equally near the upper one. Only the two points around the centre have to be tried. -/
def nearest? (interval : RoundingInterval) (grid : Int) : Option Nat :=
  let parts := interval.gridParts grid
  let centre := interval.centre * interval.unitParts grid
  let below := centre / parts
  match interval.contains grid (below * parts), interval.contains grid ((below + 1) * parts) with
  | true, true => some (if 2 * (centre % parts) < parts then below else below + 1)
  | true, false => some below
  | false, true => some (below + 1)
  | false, false => none

/-- The point on the coarsest grid, from `10 ^ grid` on and over the next `finer` ones, that has one
in the interval. On the last grid the centre itself is written. -/
def search (interval : RoundingInterval) : Nat → Int → Decimal
  | 0, grid => ⟨interval.centre * interval.unitParts grid / interval.gridParts grid, grid⟩
  | finer + 1, grid =>
      match interval.nearest? grid with
      | some digits => ⟨digits, grid⟩
      | none => interval.search finer (grid - 1)

/-- The shortest decimal in the interval. The search starts at a grid that is coarser than the
interval's upper end and stops at a grid that holds the centre: the integers, or the decimal places
that a power of two with a negative exponent takes. -/
def shortest (interval : RoundingInterval) : Decimal :=
  let whole := interval.high * 2 ^ interval.scale.toNat / 2 ^ (-interval.scale).toNat
  let coarsest : Int := (Nat.toDigits 10 whole).length
  let finest := min 0 interval.scale
  interval.search (coarsest - finest).toNat coarsest

end RoundingInterval

end BinaryRecord
