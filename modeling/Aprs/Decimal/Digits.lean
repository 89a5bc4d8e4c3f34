import Aprs.Text

/-!
# Decimal digits

Whole numbers in fields of digits. A field is read only if every octet of it is an ASCII digit, and
is written with zeros before it up to its width.
-/

namespace Aprs.Decimal

/-- The value of an ASCII digit. -/
def digit? (b : UInt8) : Option Nat :=
  if 48 ≤ b.toNat ∧ b.toNat ≤ 57 then some (b.toNat - 48) else none

/-- Whether an octet is an ASCII digit. -/
def isDigit (b : UInt8) : Bool := (digit? b).isSome

/-- The number that digits write, continued from `n`. -/
def readFrom? (n : Nat) : Bytes → Option Nat
  | [] => some n
  | b :: rest => (digit? b).bind fun d => readFrom? (10 * n + d) rest

/-- The longest field that is read as a number. -/
def maxFieldLength : Nat := 9

/-- The number in a field of one to nine ASCII digits. -/
def field? (bytes : Bytes) : Option Nat :=
  if bytes.isEmpty ∨ maxFieldLength < bytes.length then none else readFrom? 0 bytes

/-- The digits of a number. -/
def digits (n : Nat) : Text := Nat.toDigits 10 n

/-- The digits of a number behind zeros up to a width. -/
def padded (width n : Nat) : Text :=
  List.replicate (width - (digits n).length) '0' ++ digits n

/-- The integer that a text writes: an optional sign and at least one ASCII digit. -/
def integer? (t : Text) : Option Int :=
  let whole (body : Text) : Option Nat :=
    if body.isEmpty ∨ body.any (fun c => !c.isDigit) then none
    else some (Nat.ofDigitChars 10 body 0)
  match t with
  | '-' :: body => (whole body).map fun n => -(n : Int)
  | '+' :: body => (whole body).map Int.ofNat
  | body => (whole body).map Int.ofNat

end Aprs.Decimal
