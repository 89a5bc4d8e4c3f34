import Aprs.Decimal.Shortest
import Aprs.Scalar

/-!
# Units

Speeds and distances in the units in which people use them, and directions as points of the compass.

Specification: 12.9 (Utilities).
-/

namespace Aprs.Units

section Conversions

variable {α : Type} [Scalar α]

/-- Knots in miles an hour. -/
def mphOfKnots (knots : α) : α := knots * Scalar.decimal 115077945 8

/-- Knots in kilometres an hour. -/
def kmhOfKnots (knots : α) : α := knots * Scalar.decimal 1852 3

/-- Metres in miles. -/
def milesOfMeters (meters : α) : α := meters * Scalar.decimal 621371192 12

/-- Metres in kilometres. -/
def kilometersOfMeters (meters : α) : α := meters / Scalar.ofNat 1000

end Conversions

/-! ## Directions -/

/-- The sixteen points of the compass, from north by way of east. -/
def compass : List Text :=
  ["N", "NNE", "NE", "ENE", "E", "ESE", "SE", "SSE", "S", "SSW", "SW", "WSW", "W", "WNW", "NW",
    "NNW"].map String.toList

/-- What is left of a number when as many whole turns as it holds are taken away toward zero. It is
exact: below one turn nothing is taken away, and above it the number is a quotient of whole numbers
with a power of two below. -/
def withoutTurns (degrees : Float) : Float :=
  if degrees.abs < 360.0 then degrees
  else if degrees.isFinite then
    let (m, q) := Decimal.significand degrees.abs.toBits
    let rest :=
      if 0 ≤ q then Float.ofNat (m * Nat.pow 2 q.toNat % 360)
      else
        let unit := Nat.pow 2 (-q).toNat
        Float.ofNat (m % (360 * unit)) / Float.ofNat unit
    Binary.withSignOf degrees rest
  else 0.0 / 0.0

/-- The point of the compass nearest to a direction. A direction that is no number is north. -/
def cardinal (degrees : Float) : Text :=
  let rest := withoutTurns degrees
  let turn := if rest < 0.0 then rest + 360.0 else rest
  let sector := (turn / 22.5 + 0.5).toUInt64.toNat
  compass.getD (sector % 16) []

end Aprs.Units
