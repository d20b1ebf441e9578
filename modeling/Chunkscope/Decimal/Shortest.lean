/-!
The shortest decimal inside an interval of fractions. Decimals are taken from grids of powers of
ten, the coarsest first; on a grid only the two neighbours of the middle can be the nearest, so
those two are tried.
-/

namespace Chunkscope.Decimal

/-- An interval between two fractions around a middle one, all over one denominator. -/
structure Interval where
  low : Nat
  middle : Nat
  high : Nat
  denominator : Nat
  /-- Whether the two ends belong to the interval. -/
  closed : Bool

namespace Interval

/-- The same interval measured in units of a power of ten. -/
def inUnitsOf (interval : Interval) (exponent : Int) : Interval :=
  if 0 ≤ exponent then
    { interval with denominator := interval.denominator * Nat.pow 10 exponent.toNat }
  else
    let factor := Nat.pow 10 (-exponent).toNat
    { interval with
      low := interval.low * factor
      middle := interval.middle * factor
      high := interval.high * factor }

def contains (interval : Interval) (whole : Nat) : Bool :=
  let place := whole * interval.denominator
  if interval.closed then interval.low ≤ place && place ≤ interval.high
  else interval.low < place && place < interval.high

/-- The whole number nearest to the middle among its two neighbours that the interval contains;
halfway between them, the upper one. -/
def nearestWhole? (interval : Interval) : Option Nat :=
  let below := interval.middle / interval.denominator
  let above := below + 1
  match interval.contains below, interval.contains above with
  | true, true =>
      if 2 * (interval.middle - below * interval.denominator) < interval.denominator
      then some below else some above
  | true, false => some below
  | false, true => some above
  | false, false => none

/-- Searches the grids from `exponent` down, at most `steps` of them. -/
def shortestFrom (interval : Interval) : Nat → Int → Option (Nat × Int)
  | 0, _ => none
  | steps + 1, exponent =>
      match (interval.inUnitsOf exponent).nearestWhole? with
      | some whole => some (whole, exponent)
      | none => shortestFrom interval steps (exponent - 1)

end Interval

/-- A whole number times a power of ten, written with a decimal point and never an exponent. -/
def positional (whole : Nat) (exponent : Int) : String :=
  let digits := (toString whole).toList
  if 0 ≤ exponent then String.ofList (digits ++ List.replicate exponent.toNat '0')
  else
    let places := (-exponent).toNat
    let padded := List.replicate (places + 1 - digits.length) '0' ++ digits
    String.ofList (padded.take (padded.length - places) ++
      '.' :: padded.drop (padded.length - places))

end Chunkscope.Decimal
