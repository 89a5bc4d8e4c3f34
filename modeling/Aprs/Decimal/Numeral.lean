import Aprs.Decimal.Digits
import Aprs.Text.Uppercase

/-!
# Decimal numerals

The texts that write a number with a fraction and an exponent, and the words for the values that
are no number. Reading gives the value in exact form; rounding it is left to whoever computes
with it.
-/

namespace Aprs

/-- What a numeral writes. -/
inductive Numeral
  /-- `digits · 10 ^ exponent`, with its sign. -/
  | finite (negative : Bool) (digits : Nat) (exponent : Int)
  | infinite (negative : Bool)
  | undefined (negative : Bool)
  deriving DecidableEq, Repr

namespace Numeral

/-- The sign before a numeral, and the text behind it. -/
def sign : Text → Bool × Text
  | '-' :: rest => (true, rest)
  | '+' :: rest => (false, rest)
  | t => (false, t)

/-- The exponent behind the mantissa: nothing, or `e` with a signed integer. -/
def exponent? : Text → Option Int
  | [] => some 0
  | 'e' :: rest => Decimal.integer? rest
  | 'E' :: rest => Decimal.integer? rest
  | _ => none

/-- The magnitude of a number: digits with at most one point among them, of which one at least is
a digit, and an exponent. -/
def magnitude? (t : Text) : Option (Nat × Int) :=
  let whole := t.takeWhile Char.isDigit
  let rest := t.dropWhile Char.isDigit
  let fraction :=
    match rest with
    | '.' :: more => more.takeWhile Char.isDigit
    | _ => []
  let behind :=
    match rest with
    | '.' :: more => more.dropWhile Char.isDigit
    | _ => rest
  if whole.isEmpty ∧ fraction.isEmpty then none
  else
    (exponent? behind).map fun e =>
      (Nat.ofDigitChars 10 (whole ++ fraction) 0, e - fraction.length)

/-- The numeral that a text writes. -/
def parse? (t : Text) : Option Numeral :=
  let (negative, body) := sign t
  let word := Text.lowerAscii body
  if word = "inf".toList ∨ word = "infinity".toList then some (.infinite negative)
  else if word = "nan".toList then some (.undefined negative)
  else (magnitude? body).map fun (digits, exponent) => .finite negative digits exponent

end Numeral

end Aprs
