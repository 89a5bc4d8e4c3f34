import Aprs.Decimal.Numeral

/-!
# Scalars

Coordinates, altitudes and ranges are computed in a scalar arithmetic. What the decoders need of it
is written down here, so that the same rules run in binary floating point and can be studied in
exact numbers: conversions from whole numbers and numerals, the four operations, the order, the
sign (zero has one too), and rounding.

`Float` is the arithmetic that runs. Its rounding functions are written out on the representation,
so that they are definitions like the others.
-/

namespace Aprs

/-- An arithmetic for measured values. -/
class Scalar (α : Type) extends Add α, Sub α, Mul α, Div α, Neg α where
  /-- The scalar of a whole number. -/
  ofNat : Nat → α
  /-- The scalar nearest to what a numeral writes. -/
  ofNumeral : Numeral → α
  /-- The value without its sign. -/
  magnitude : α → α
  /-- Whether the sign is negative; negative zero counts. -/
  isNegative : α → Bool
  /-- The order, false where a value is undefined. -/
  le : α → α → Bool
  /-- The strict order, false where a value is undefined. -/
  lt : α → α → Bool
  /-- The nearest whole number, a half going away from zero. -/
  round : α → α
  /-- The whole number next to the value on the side of zero. -/
  truncate : α → α
  /-- The whole number in the value, brought between zero and a limit; zero for an undefined one. -/
  toNat : (limit : Nat) → α → Nat

namespace Scalar

variable {α : Type} [Scalar α]

/-- The scalar `digits / 10 ^ places`. -/
def decimal (digits places : Nat) : α := ofNumeral (.finite false digits (-(places : Int)))

/-- A power with a whole exponent, by repeated squaring from the low bit of the exponent: `result`
has been gathered so far and `base` is squared for each further bit. -/
def powerFrom (result base : α) (n : Nat) : α :=
  let result := if n % 2 = 1 then result * base else result
  if n / 2 = 0 then result else powerFrom result (base * base) (n / 2)
  termination_by n

/-- A power with a whole exponent. -/
def power (base : α) (n : Nat) : α := powerFrom (ofNat 1) base n

/-- The greatest number that 16 bits hold. -/
def word16 : Nat := 0xFFFF

/-- The greatest number that 32 bits hold. -/
def word32 : Nat := 0xFFFFFFFF

/-- The value rounded to a whole number within 16 bits. -/
def rounded16 (x : α) : Nat := toNat word16 (round x)

/-- The value rounded to a whole number within 32 bits. -/
def rounded32 (x : α) : Nat := toNat word32 (round x)

end Scalar

/-! ## Binary floating point -/

namespace Binary

/-- Whether the sign bit is set. -/
def isNegative (x : Float) : Bool := x.toBits >>> 63 == 1

/-- Beyond this magnitude a floating-point number has no fraction. -/
def wholeBound : Float := 4503599627370496.0

/-- The value with the sign of another. -/
def withSignOf (sign x : Float) : Float := if isNegative sign then -x else x

/-- Drops the fraction. -/
def truncate (x : Float) : Float :=
  if x.abs < wholeBound then withSignOf x x.abs.toUInt64.toFloat else x

/-- The nearest whole number, a half going away from zero. -/
def round (x : Float) : Float :=
  if x.abs < wholeBound then
    let whole := x.abs.toUInt64.toFloat
    withSignOf x (if x.abs - whole < 0.5 then whole else whole + 1.0)
  else x

/-- The number nearest to `digits · 10 ^ exponent`. An exponent far out of range is settled by the
number of digits alone. -/
def ofDecimal (digits : Nat) (exponent : Int) : Float :=
  let size := exponent + (Decimal.digits digits).length
  if digits = 0 ∨ size < -400 then 0.0
  else if 400 < size then 1.0 / 0.0
  else Float.ofScientific digits (exponent < 0) exponent.natAbs

/-- The number nearest to what a numeral writes. -/
def ofNumeral : Numeral → Float
  | .finite negative digits exponent =>
    if negative then -(ofDecimal digits exponent) else ofDecimal digits exponent
  | .infinite negative => if negative then -(1.0 / 0.0) else 1.0 / 0.0
  | .undefined _ => 0.0 / 0.0

end Binary

instance : Scalar Float where
  ofNat := Float.ofNat
  ofNumeral := Binary.ofNumeral
  magnitude := Float.abs
  isNegative := Binary.isNegative
  le a b := decide (a ≤ b)
  lt a b := decide (a < b)
  round := Binary.round
  truncate := Binary.truncate
  toNat limit x := min limit x.toUInt64.toNat

end Aprs
