import Aprs.Text

/-!
# Commands

Three tools: one parses lines and prints a summary of each packet, one turns a line into a frame and
a frame into a line, and one tells the passcode of a callsign.
-/

namespace Aprs

/-- The tools. -/
inductive Tool
  | parse
  | frame
  | passcode
  deriving DecidableEq, Repr

/-- The tool of a name. -/
def Tool.ofName? (name : Text) : Option Tool :=
  if name = "aprs-parse".toList then some .parse
  else if name = "aprs-frame".toList then some .frame
  else if name = "aprs-passcode".toList then some .passcode
  else none

/-- How packets are printed. -/
inductive OutputFormat
  | text
  | json
  deriving DecidableEq, Repr

/-- The format of a name. -/
def OutputFormat.ofName? (name : Text) : Option OutputFormat :=
  if name = "text".toList then some .text
  else if name = "json".toList then some .json
  else none

/-- What a tool is asked to do. -/
inductive Command
  /-- Parses the lines of a file, or of the standard input. -/
  | parse (input : Option Text) (format : OutputFormat) (faultsOnly stats : Bool)
  | encode (line : Text)
  | decode (digits : Text) (format : OutputFormat)
  | passcode (callsign : Text)
  deriving DecidableEq, Repr

end Aprs
