import Aprs.Decimal.Digits

/-!
# Shortest decimals

The decimal of fewest digits that reads back as the same floating-point number, and among those of
that length the nearest to it.

A positive number is `m · 2^q`. The reals that read back as it form an interval around it, half way
to its neighbours, the ends included when `m` is even. On the grid of decimals with a given number
of digits only the two neighbours of the number can be nearest, so these two are tested, on one grid
after the other from one digit on.
-/

namespace Aprs.Decimal

/-- A positive number as a quotient of whole numbers, with the ends of the interval of the reals
that read back as it over the same denominator, doubled so that they are whole: the number is
`center / unit`, and the interval runs from `low / unit` to `high / unit`. -/
structure Interval where
  low : Nat
  center : Nat
  high : Nat
  unit : Nat
  closed : Bool

/-- The least significand of a number that is not subnormal. -/
def leadingBit : Nat := 0x10000000000000

/-- The significand and the binary exponent of a positive finite number. -/
def significand (bits : UInt64) : Nat × Int :=
  let exponent := ((bits >>> 52) &&& 0x7FF).toNat
  let fraction := (bits &&& 0xFFFFFFFFFFFFF).toNat
  if exponent = 0 then (fraction, -1074)
  else (fraction + leadingBit, (exponent : Int) - 1075)

/-- The interval of a positive finite number. Below a power of two the neighbour is half as far. -/
def Interval.of (bits : UInt64) : Interval :=
  let (m, q) := significand bits
  let below := if m = leadingBit ∧ -1074 < q then 1 else 2
  let up := if 0 ≤ q then Nat.pow 2 q.toNat else 1
  let down := if 0 ≤ q then 1 else Nat.pow 2 (-q).toNat
  { low := (4 * m - below) * up
    center := 4 * m * up
    high := (4 * m + 2) * up
    unit := 4 * down
    closed := m % 2 = 0 }

/-- Whether the decimal `n · 10^e` lies in the interval. -/
def Interval.contains (i : Interval) (n : Nat) (e : Int) : Bool :=
  let scaled := n * i.unit * Nat.pow 10 e.toNat
  let scale := Nat.pow 10 (-e).toNat
  if i.closed then i.low * scale ≤ scaled && scaled ≤ i.high * scale
  else i.low * scale < scaled && scaled < i.high * scale

/-- The decimal on the grid of the multiples of `10^e` that lies in the interval and nearest to its
number, a tie going to the even one. -/
def Interval.nearest? (i : Interval) (e : Int) : Option Nat :=
  let num := i.center * Nat.pow 10 (-e).toNat
  let den := i.unit * Nat.pow 10 e.toNat
  let lower := num / den
  let upper := lower + 1
  let twice := 2 * (num % den)
  let lowerFirst := twice < den ∨ (twice = den ∧ lower % 2 = 0)
  let candidates := if lowerFirst then [lower, upper] else [upper, lower]
  candidates.find? fun n => n ≠ 0 && i.contains n e

/-- The decimal exponent of the first digit of `num / den`. -/
def leadingExponent (num den : Nat) : Int :=
  if den ≤ num then (digits (num / den)).length - 1
  else -((digits ((den - 1) / num)).length : Int)

/-- The first grid that has a decimal in the interval, from the coarse ones to the fine. -/
def Interval.search (i : Interval) (lead : Int) : (grids : Nat) → (length : Nat) → Nat × Int
  | 0, _ => (0, 0)
  | grids + 1, length =>
    let e := lead - (length - 1)
    match i.nearest? e with
    | some n => (n, e)
    | none => i.search lead grids (length + 1)

/-- The digits without the zeros behind them, and the exponent of the last digit left. -/
def stripZeros (n : Nat) (e : Int) : Nat × Int :=
  if h : n ≠ 0 ∧ n % 10 = 0 then stripZeros (n / 10) (e + 1) else (n, e)
  termination_by n
  decreasing_by omega

/-- The shortest decimal of a positive finite number: its digits, and the exponent of the last of
them. Seventeen digits always suffice. -/
def shortest (bits : UInt64) : Nat × Int :=
  let i := Interval.of bits
  let (n, e) := i.search (leadingExponent i.center i.unit) 18 1
  stripZeros n e

end Aprs.Decimal
