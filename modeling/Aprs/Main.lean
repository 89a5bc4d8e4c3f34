import Std.Time.DateTime.Timestamp
import Aprs.Command.Arguments
import Aprs.Command.Run

/-!
# The command line

The first argument names a tool and the others are for it. This module reads the input, looks at the
clock, prints, and ends with the code that the command gave.
-/

namespace Aprs.CommandLine

/-- The octets of a stream up to its end, behind those that were read before. -/
partial def readAll (stream : IO.FS.Stream) (before : ByteArray) : IO ByteArray := do
  let chunk ← stream.read 65536
  if chunk.isEmpty then return before
  readAll stream (before ++ chunk)

/-- The octets that a command works on: those of the file that it names, or of the standard input. -/
def content : Command → IO Bytes
  | .parse (some name) .. => return (← IO.FS.readBinFile (String.ofList name)).toList
  | .parse none .. => return (← readAll (← IO.getStdin) .empty).toList
  | _ => return []

/-- The present instant. -/
def now : IO Instant := do
  let seconds := (← Std.Time.Timestamp.now).toSecondsSinceUnixEpoch.val
  return (Instant.ofEpochSeconds? seconds).getD .epoch

/-- The command that arguments ask for. -/
def command? : List String → Option Command
  | [] => none
  | name :: args =>
    (Tool.ofName? name.toList).bind fun tool => Command.ofArguments? tool (args.map String.toList)

/-- How the tools are called. -/
def usage : String :=
  "usage: aprs-parse [FILE] [--format text|json] [--faults-only] [--stats]\n" ++
  "       aprs-frame encode LINE\n" ++
  "       aprs-frame decode HEX [--format text|json]\n" ++
  "       aprs-passcode CALLSIGN"

/-- Runs the command that arguments ask for. -/
def run (args : List String) : IO UInt32 := do
  match command? args with
  | none =>
    IO.eprintln usage
    return UInt32.ofNat Command.usageCode
  | some command =>
    let outcome := command.run (← content command) (← now)
    IO.print (String.ofList outcome.stdout)
    IO.eprint (String.ofList outcome.stderr)
    return UInt32.ofNat outcome.code

end Aprs.CommandLine

/-- Runs the tool that the first argument names. -/
def main (args : List String) : IO UInt32 := Aprs.CommandLine.run args
