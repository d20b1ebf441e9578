import Chunkscope.Decimal.Shortest

/-!
Double-precision numbers, given by their 64 bits and written with the fewest digits that read
back as the same number.
-/

namespace Chunkscope.Binary64

def isNegative (bits : UInt64) : Bool := bits >>> 63 = 1

def exponentField (bits : UInt64) : Nat := ((bits >>> 52) &&& 0x7ff).toNat

def fraction (bits : UInt64) : Nat := (bits &&& 0xfffffffffffff).toNat

def isNaN (bits : UInt64) : Bool := exponentField bits = 0x7ff && fraction bits ≠ 0

/-- The significand; numbers above the smallest exponent have a leading one that is not stored. -/
def significand (bits : UInt64) : Nat :=
  if exponentField bits = 0 then fraction bits else Nat.pow 2 52 + fraction bits

/-- The power of two that the significand counts. -/
def exponent (bits : UInt64) : Int :=
  if exponentField bits = 0 then -1074 else (exponentField bits : Int) - 1075

/-- The real numbers that round to this one, in quarters of the last place: half a place to
either side, but only a quarter below a power of two, where the places get finer. -/
def roundingInterval (bits : UInt64) : Decimal.Interval :=
  let middle := 4 * significand bits
  let below := if fraction bits = 0 ∧ 1 < exponentField bits then 1 else 2
  let scale := exponent bits - 2
  { low := (middle - below) * Nat.pow 2 scale.toNat
    middle := middle * Nat.pow 2 scale.toNat
    high := (middle + 2) * Nat.pow 2 scale.toNat
    denominator := Nat.pow 2 (-scale).toNat
    closed := significand bits % 2 = 0 }

/-- A power of ten above the whole interval. -/
def coarsestGrid (bits : UInt64) : Int :=
  (Nat.log2 (significand bits) + 2 + exponent bits) * 30103 / 100000 + 2

/-- The digits of a positive number: seventeen of them always suffice, and the first grid lies
at most five places above the first digit. -/
def magnitudeText (bits : UInt64) : String :=
  match (roundingInterval bits).shortestFrom 22 (coarsestGrid bits) with
  | some (whole, power) => Decimal.positional whole power
  | none => "0"

def text (bits : UInt64) : String :=
  if isNaN bits then "NaN"
  else
    let sign := if isNegative bits then "-" else ""
    if exponentField bits = 0x7ff then sign ++ "inf"
    else if significand bits = 0 then sign ++ "0"
    else sign ++ magnitudeText bits

example : text 0x3fb999999999999a = "0.1" := by decide +kernel

example : text 0x4415af1d78b58c40 = "100000000000000000000" := by decide +kernel

/-- The number lies halfway between two decimals of sixteen digits; the upper one is written. -/
example : text 0x4317f256e93acc01 = "1685094889599744.3" := by decide +kernel

end Chunkscope.Binary64
