import CilDisasm.Float.Binary

/-!
# The shortest decimal of a float

The real numbers that round to a given float form an interval around it. Of all decimals
in that interval the shortest is the one on the coarsest grid of powers of ten, and of
those on that grid the one nearest to the float.

All of this is exact arithmetic on natural numbers: the float and the two ends of its
interval are scaled by one common power of ten that makes them whole. A coarsest grid with
a point in the interval holds one of the two neighbours of the float, so only these two
are tried, from a grid wider than the interval downwards.
-/

namespace CilDisasm

/-- The number `coefficient * 10 ^ exponent`. -/
structure Decimal where
  coefficient : Nat
  exponent : Int
deriving DecidableEq, Repr

/-- A scaled rounding interval. Its ends belong to it when `closed` holds. -/
structure RoundingInterval where
  lower : Nat
  middle : Nat
  upper : Nat
  closed : Bool
  exponent : Int
deriving DecidableEq, Repr

namespace RoundingInterval

/-- The interval of `significand * 2 ^ exponent`, in quarters of the last bit.

A quarter is `2 ^ (exponent - 2)`. When that is no whole number it equals a power of five
times a negative power of ten. -/
def of (significand : Nat) (exponent : Int) (narrowBelow : Bool) : RoundingInterval :=
  let scale :=
    if 2 ≤ exponent then Nat.pow 2 (exponent - 2).toNat
    else Nat.pow 5 (2 - exponent).toNat
  { lower := (if narrowBelow then 4 * significand - 1 else 4 * significand - 2) * scale
    middle := 4 * significand * scale
    upper := (4 * significand + 2) * scale
    closed := significand % 2 = 0
    exponent := if 2 ≤ exponent then 0 else exponent - 2 }

def contains (interval : RoundingInterval) (point : Nat) : Bool :=
  if interval.closed then
    interval.lower ≤ point && point ≤ interval.upper
  else
    interval.lower < point && point < interval.upper

/-- The neighbour of the middle on the grid of multiples of `step` that lies in the
interval, as a multiple of `step`. Of two the nearer is taken, at equal distance the
greater. -/
def neighbour? (interval : RoundingInterval) (step : Nat) : Option Nat :=
  let below := interval.middle / step
  let above := (interval.middle + step - 1) / step
  match interval.contains (below * step), interval.contains (above * step) with
  | false, false => none
  | true, false => some below
  | false, true => some above
  | true, true =>
      if interval.middle - below * step < above * step - interval.middle then some below
      else some above

def coarsest (interval : RoundingInterval) : (power : Nat) -> Decimal
  | 0 =>
      { coefficient := interval.middle, exponent := interval.exponent }
  | power + 1 =>
      match interval.neighbour? (Nat.pow 10 (power + 1)) with
      | some multiple =>
          { coefficient := multiple, exponent := interval.exponent + (power + 1 : Nat) }
      | none => interval.coarsest power

/-- The power of ten `10 ^ (log2 upper / 3 + 1)` exceeds `upper`, so no coarser grid than
that has a positive point in the interval. -/
def shortest (interval : RoundingInterval) : Decimal :=
  interval.coarsest (interval.upper.log2 / 3 + 1)

end RoundingInterval

end CilDisasm
