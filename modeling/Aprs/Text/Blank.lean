import Aprs.Cut
import Aprs.Text

/-!
# Blanks

The Unicode property `White_Space`, and the text that is left when blanks are trimmed from its
ends.
-/

namespace Aprs.Text

/-- The code points with the property `White_Space`. -/
def blanks : CodePointRanges :=
  [(0x9, 0xD), (0x20, 0x20), (0x85, 0x85), (0xA0, 0xA0), (0x1680, 0x1680), (0x2000, 0x200A),
   (0x2028, 0x2029), (0x202F, 0x202F), (0x205F, 0x205F), (0x3000, 0x3000)]

/-- Whether a character is white space. -/
def isBlank (c : Char) : Bool := blanks.contains c

/-- The text without the blanks behind it. -/
def trimEnd (t : Text) : Text := dropTrailing isBlank t

/-- The text without the blanks before and behind it. -/
def trim (t : Text) : Text := trimEnd (t.dropWhile isBlank)

/-- The blank characters of the core library are blank. -/
theorem isBlank_of_isWhitespace {c : Char} (h : c.isWhitespace = true) : isBlank c = true := by
  simp only [Char.isWhitespace, Bool.or_eq_true, decide_eq_true_eq] at h
  rcases h with ((rfl | rfl) | rfl) | rfl <;> decide

end Aprs.Text
