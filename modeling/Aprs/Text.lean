/-!
# Text and bytes

Text is a list of characters and a byte string is a list of bytes, so that every rule on them is
a rule on lists. `String` appears where the program meets the outside: a literal, a file, a
terminal.
-/

namespace Aprs

/-- A sequence of Unicode scalar values. -/
abbrev Text := List Char

/-- A sequence of octets. -/
abbrev Bytes := List UInt8

/-- A table of closed intervals of code points. -/
abbrev CodePointRanges := List (Nat × Nat)

/-- Whether a character lies in one of the intervals. -/
def CodePointRanges.contains (ranges : CodePointRanges) (c : Char) : Bool :=
  ranges.any fun (low, high) => low ≤ c.toNat && c.toNat ≤ high

/-- The character with a byte's code point. -/
def charOfByte (b : UInt8) : Char := Char.ofNat b.toNat

/-- The text with blanks behind it up to a width counted in characters. -/
def padRight (width : Nat) (t : Text) : Text :=
  t ++ List.replicate (width - t.length) ' '

end Aprs
