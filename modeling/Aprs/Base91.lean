import Aprs.Text

/-!
# Base 91

Numbers written with the ninety-one printable characters from `!` to `{`, the most significant
digit first. Values are words of 32 bits: reading refuses what exceeds them, and writing brings a
value that has too many digits down to the greatest that fits.

Specification: 4.3 (Position Decoder).
-/

namespace Aprs.Base91

/-- Why octets are no number. -/
inductive Error
  | notADigit
  | overflow
  deriving DecidableEq, Repr

/-- The wording of an error. -/
def Error.message : Error → Text
  | .notADigit => "invalid base-91 digit".toList
  | .overflow => "base-91 value exceeds 32 bits".toList

/-- The number of digits. -/
def radix : Nat := 91

/-- The octet of the digit zero. -/
def zero : Nat := 33

/-- The values below which words lie. -/
def wordBound : Nat := 0x100000000

/-- The value of a digit. -/
def digit? (b : UInt8) : Option Nat :=
  if zero ≤ b.toNat ∧ b.toNat < zero + radix then some (b.toNat - zero) else none

/-- The number that digits write, continued from `n`. -/
def decodeFrom (n : Nat) : Bytes → Except Error Nat
  | [] => .ok n
  | b :: rest =>
    match digit? b with
    | none => .error .notADigit
    | some d =>
      let n := radix * n + d
      if n < wordBound then decodeFrom n rest else .error .overflow

/-- The number that digits write. -/
def decode (digits : Bytes) : Except Error Nat := decodeFrom 0 digits

/-- The greatest value written with a number of digits. That number is a word, too, before the radix is
raised to it. -/
def top (count : Nat) : Nat := min (Nat.pow radix (count % wordBound)) (wordBound - 1) - 1

/-- The last `count` digits of a number. -/
def digits : (count : Nat) → Nat → Bytes
  | 0, _ => []
  | count + 1, n => digits count (n / radix) ++ [UInt8.ofNat (zero + n % radix)]

/-- A number in a field of `count` digits. -/
def encode (count n : Nat) : Bytes := digits count (min n (top count))

end Aprs.Base91
