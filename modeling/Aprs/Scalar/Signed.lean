import Aprs.Scalar

/-!
# Floating point with a sign throughout

Binary floating point in which an undefined value has a sign too. Its sign says nothing of a
magnitude, but it is written: the hemisphere of a coordinate is the sign, whatever the degrees are.

Undefined values hand their sign on. An operation that meets one gives it back, the left one before
the right one, and one that finds no result among defined values makes an undefined value with a
negative sign. Turning the sign around and dropping it work on every value alike.

No decoder needs it: the command line and everything that is decoded run in `Float`. It is for a caller
that makes a position of its own from undefined coordinates and writes it (`Position.make`,
`Position.text`); for all others the position and its text are those of `Float`.
-/

namespace Aprs

/-- A floating-point number and its sign. Where the number is defined, the sign is its own. -/
structure Signed where
  value : Float
  negative : Bool

namespace Signed

/-- A number with its own sign, or with the given one if it is undefined. -/
def of (undefinedSign : Bool) (x : Float) : Signed :=
  ⟨x, if x.isNaN then undefinedSign else Binary.isNegative x⟩

/-- The number that a numeral writes. -/
def ofNumeral (n : Numeral) : Signed :=
  match n with
  | .undefined negative => of negative (Binary.ofNumeral n)
  | _ => of false (Binary.ofNumeral n)

/-- The sign of an undefined result. -/
def resultSign (x y : Signed) : Bool :=
  if x.value.isNaN then x.negative
  else if y.value.isNaN then y.negative
  else true

/-- An operation on two numbers. -/
def combine (op : Float → Float → Float) (x y : Signed) : Signed :=
  of (resultSign x y) (op x.value y.value)

/-- An operation on the value alone. -/
def onValue (op : Float → Float) (x : Signed) : Signed := of x.negative (op x.value)

instance : Add Signed := ⟨combine (· + ·)⟩

instance : Sub Signed := ⟨combine (· - ·)⟩

instance : Mul Signed := ⟨combine (· * ·)⟩

instance : Div Signed := ⟨combine (· / ·)⟩

instance : Neg Signed := ⟨fun x => ⟨-x.value, !x.negative⟩⟩

instance : Scalar Signed where
  ofNat n := of false (Scalar.ofNat n)
  ofNumeral := ofNumeral
  magnitude x := ⟨x.value.abs, false⟩
  isNegative := negative
  le x y := Scalar.le x.value y.value
  lt x y := Scalar.lt x.value y.value
  round := onValue Scalar.round
  truncate := onValue Scalar.truncate
  toNat limit x := Scalar.toNat limit x.value

/-! ## Values -/

@[simp] theorem value_of (undefinedSign : Bool) (x : Float) : (of undefinedSign x).value = x := rfl

/-- The operations compute on the values as floating point does. -/
@[simp] theorem value_combine (op : Float → Float → Float) (x y : Signed) :
    (combine op x y).value = op x.value y.value := rfl

end Signed

end Aprs
