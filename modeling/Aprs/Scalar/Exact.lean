import Aprs.Scalar

/-!
# Exact arithmetic

Rational numbers with a sign, which tells the two zeros apart. As a `Scalar` they stand for what
floating point computes when nothing is lost to rounding: what is decoded and written in them obeys
the laws of the rationals, through `value`, and still keeps the hemisphere of a coordinate that is
zero.

There are no infinite and no undefined values here. A division by zero gives zero; nothing that is
decoded is divided by zero. A numeral without a finite value gives zero too, and such numerals can be
received: `nan` and `inf` are read in a sentence of a satellite receiver, where floating point goes on
to refuse them as coordinates and exact arithmetic does not. What is said of those sentences is
therefore said of `Float`.
-/

namespace Aprs

/-- A rational number and its sign, which is free only where the number is zero. -/
structure Exact where
  value : Rat
  negative : Bool
  valid : value ≠ 0 → negative = decide (value < 0)
  deriving DecidableEq

namespace Exact

/-- A number with its own sign, or with the given one if it is zero. -/
def signed (zeroSign : Bool) (q : Rat) : Exact where
  value := q
  negative := if q = 0 then zeroSign else decide (q < 0)
  valid h := if_neg h

/-- A number that is not negative zero. -/
def ofRat (q : Rat) : Exact := signed false q

/-- The whole number nearest to a magnitude, a half going up. -/
def nearest (q : Rat) : Int := (q + 1 / 2).floor

/-- The absolute value of a rational number. -/
def abs (q : Rat) : Rat := if q < 0 then -q else q

/-- A magnitude with the sign of a number. -/
def withSignOf (x : Exact) (magnitude : Rat) : Exact :=
  signed x.negative (if x.negative then -magnitude else magnitude)

/-- The number that a numeral writes. One that writes no finite value is read as zero with its sign,
unlike in floating point. -/
def ofNumeral : Numeral → Exact
  | .finite negative digits exponent =>
    let power : Nat := Nat.pow 10 exponent.natAbs
    let magnitude : Rat := if exponent < 0 then digits / power else digits * power
    signed negative (if negative then -magnitude else magnitude)
  | .infinite negative => signed negative 0
  | .undefined negative => signed negative 0

instance : Add Exact := ⟨fun x y => signed (x.negative && y.negative) (x.value + y.value)⟩

instance : Neg Exact := ⟨fun x => signed (!x.negative) (-x.value)⟩

instance : Sub Exact := ⟨fun x y => signed (x.negative && !y.negative) (x.value - y.value)⟩

instance : Mul Exact := ⟨fun x y => signed (x.negative ^^ y.negative) (x.value * y.value)⟩

instance : Div Exact := ⟨fun x y => signed (x.negative ^^ y.negative) (x.value / y.value)⟩

instance : Scalar Exact where
  ofNat n := ofRat n
  ofNumeral := ofNumeral
  magnitude x := ofRat (abs x.value)
  isNegative := negative
  le x y := decide (x.value ≤ y.value)
  lt x y := decide (x.value < y.value)
  round x := x.withSignOf (nearest (abs x.value))
  truncate x := x.withSignOf (abs x.value).floor
  toNat limit x := min limit x.value.floor.toNat

/-! ## Values and signs -/

@[simp] theorem value_signed (zeroSign : Bool) (q : Rat) : (signed zeroSign q).value = q := rfl

@[simp] theorem value_add (x y : Exact) : (x + y).value = x.value + y.value := rfl

@[simp] theorem value_sub (x y : Exact) : (x - y).value = x.value - y.value := rfl

@[simp] theorem value_mul (x y : Exact) : (x * y).value = x.value * y.value := rfl

@[simp] theorem value_div (x y : Exact) : (x / y).value = x.value / y.value := rfl

@[simp] theorem value_neg (x : Exact) : (-x).value = -x.value := rfl

@[simp] theorem value_ofNat (n : Nat) : (Scalar.ofNat n : Exact).value = n := rfl

/-- A number is negative exactly where its sign says so, zero apart. -/
theorem negative_eq_true_iff {x : Exact} (h : x.value ≠ 0) : x.negative = true ↔ x.value < 0 := by
  rw [x.valid h, decide_eq_true_eq]

end Exact

end Aprs
