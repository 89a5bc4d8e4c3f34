import Aprs.Text

/-!
# Hexadecimal octets

Two digits an octet, the high half first. Written in lower case and read in either.
-/

namespace Aprs.Hex

/-- The digit of a value below sixteen. -/
def digit (n : Nat) : Char := Nat.digitChar n

/-- The digits of an octet. -/
def pair (b : UInt8) : Text := [digit (b.toNat / 16), digit (b.toNat % 16)]

/-- The digits of octets. -/
def encode (bytes : Bytes) : Text := bytes.flatMap pair

/-- Why digits are no octets. -/
inductive Error
  | oddLength
  | invalidDigit (octet : UInt8) (index : Nat)
  deriving DecidableEq, Repr

/-- The value of a digit, given as its octet. -/
def value? (b : UInt8) : Option Nat :=
  let n := b.toNat
  if 48 ≤ n ∧ n ≤ 57 then some (n - 48)
  else if 97 ≤ n ∧ n ≤ 102 then some (n - 87)
  else if 65 ≤ n ∧ n ≤ 70 then some (n - 55)
  else none

/-- Reads pairs of digits, the first of which stands at `index`. -/
def decodeFrom (index : Nat) : Bytes → Except Error Bytes
  | high :: low :: rest =>
    match value? high, value? low with
    | none, _ => .error (.invalidDigit high index)
    | some _, none => .error (.invalidDigit low (index + 1))
    | some h, some l => (decodeFrom (index + 2) rest).map (UInt8.ofNat (16 * h + l) :: ·)
  | _ => .ok []

/-- The octets that digits write. A count that is odd is refused before any digit is looked at. -/
def decode (digits : Bytes) : Except Error Bytes :=
  if digits.length % 2 = 1 then .error .oddLength else decodeFrom 0 digits

end Aprs.Hex
