import Aprs.Scalar

/-!
# Angles

Coordinates are written in degrees and hundredths of minutes, with a letter for the hemisphere. A
station may blank the last digits of the minutes to tell its place less exactly.

Specification: 4.3 (Position Decoder).
-/

namespace Aprs

/-- The two coordinates of a place. -/
inductive Axis
  | latitude
  | longitude
  deriving DecidableEq, Repr

namespace Axis

/-- The name of a coordinate. -/
def name : Axis → Text
  | latitude => "latitude".toList
  | longitude => "longitude".toList

/-- How many digits the degrees take. -/
def degreeDigits : Axis → Nat
  | latitude => 2
  | longitude => 3

/-- The greatest number of degrees. -/
def limit : Axis → Nat
  | latitude => 90
  | longitude => 180

/-- The letter of the hemisphere, the negative one if asked for. -/
def letter : Axis → (negative : Bool) → Char
  | latitude, false => 'N'
  | latitude, true => 'S'
  | longitude, false => 'E'
  | longitude, true => 'W'

/-- Whether a letter of the hemisphere, in either case, is the negative one. -/
def negative? (axis : Axis) (b : UInt8) : Option Bool :=
  let c := (charOfByte b).toUpper
  if c = axis.letter false then some false
  else if c = axis.letter true then some true
  else none

end Axis

/-- An angle in degrees and hundredths of minutes. -/
structure Angle where
  degrees : Nat
  hundredths : Nat
  negative : Bool
  deriving DecidableEq, Repr

namespace Angle

/-- Hundredths of minutes in a degree. -/
def perDegree : Nat := 6000

/-- The angle in degrees. -/
def value {α : Type} [Scalar α] (a : Angle) : α :=
  let size : α := Scalar.ofNat a.degrees + Scalar.ofNat a.hundredths / Scalar.ofNat perDegree
  if a.negative then -size else size

/-- The greatest ambiguity: all four digits of the minutes are blank. -/
def maxAmbiguity : Nat := 4

/-- Four digits of minutes with the last ones, as many as the ambiguity says, set to zero. -/
def truncate (ambiguity hundredths : Nat) : Nat :=
  let step := Nat.pow 10 (min ambiguity maxAmbiguity)
  hundredths / step * step

end Angle

end Aprs
