import Aprs.Text.Printable

/-!
# Quoted text

Text inside a message or a summary is put between quotation marks, with a backslash before what
would end or garble it. A character that cannot be shown as it is is written by its code point.
-/

namespace Aprs.Text

/-- The code point in hexadecimal, as `\u{301}`. -/
def codePointEscape (c : Char) : Text :=
  ['\\', 'u', '\x7b'] ++ Nat.toDigits 16 c.toNat ++ ['\x7d']

/-- A character within text that `mark` encloses. -/
def escape (mark : Char) (c : Char) : Text :=
  if c = '\x00' then ['\\', '0']
  else if c = '\t' then ['\\', 't']
  else if c = '\r' then ['\\', 'r']
  else if c = '\n' then ['\\', 'n']
  else if c = '\\' ∨ c = mark then ['\\', c]
  else if isPrintable c then [c]
  else codePointEscape c

/-- A text between double quotation marks. -/
def quote (t : Text) : Text := '"' :: t.flatMap (escape '"') ++ ['"']

/-- A character between single quotation marks. -/
def quoteChar (c : Char) : Text := '\'' :: escape '\'' c ++ ['\'']

/-- A character written with ASCII alone: itself if it is a printable ASCII character other than a
quotation mark or a backslash. -/
def asciiEscape (c : Char) : Text :=
  if c = '\t' then ['\\', 't']
  else if c = '\r' then ['\\', 'r']
  else if c = '\n' then ['\\', 'n']
  else if c = '\\' ∨ c = '\'' ∨ c = '"' then ['\\', c]
  else if 0x20 ≤ c.toNat ∧ c.toNat ≤ 0x7E then [c]
  else codePointEscape c

end Aprs.Text
