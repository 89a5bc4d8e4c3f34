import Aprs.Command
import Aprs.Command.Outcome
import Aprs.Packet.Export
import Aprs.Packet.Summary
import Aprs.Passcode
import Aprs.Tally

/-!
# Running commands

Running a command on the content of its input gives its outcome; only the reading of files is left to
the outside.

Specification: 13 (Tools).
-/

namespace Aprs

/-- The packet in a format. -/
def Packet.render (p : Packet Float) : OutputFormat → Text
  | .text => p.summary
  | .json => p.toJson.render

namespace Command

/-- The lines of a file. A line ends with a line feed, which a carriage return may precede. -/
def linesOf (content : Bytes) : List Bytes :=
  let cut := pieces 0x0A content
  let ended := cut.dropLast.map fun line =>
    if line.getLast? = some 0x0D then line.dropLast else line
  match cut.getLast? with
  | some [] | none => ended
  | some last => ended ++ [last]

/-- Whether a line holds no packet: it is blank, or a remark. -/
def isSkipped (line : Text) : Bool := (Text.trim line).isEmpty || line.head? = some '#'

/-- What each line gives that may hold a packet: the packet, or why it cannot be framed. One instant stands
for the times at which the lines are read. -/
def packetsOf (lines : List Text) (now : Instant) : List (Except DecodeError (Packet Float)) :=
  (lines.filter fun line => !isSkipped line).map fun line => Packet.ofLine line now

/-- The rendering of a packet, if it is to be printed. A line that cannot be framed is not. -/
def printed? (format : OutputFormat) (faultsOnly : Bool) :
    Except DecodeError (Packet Float) → Option Text
  | .error _ => none
  | .ok p => if faultsOnly ∧ !p.payload.hasFault then none else some (p.render format)

/-- Parses the lines of a file, up to one that is no text. -/
def runParse (format : OutputFormat) (faultsOnly stats : Bool) (content : Bytes) (now : Instant) :
    Outcome :=
  let lines := (linesOf content).map Utf8.decode?
  let packets := packetsOf ((lines.takeWhile Option.isSome).filterMap id) now
  let stdout := (packets.filterMap (printed? format faultsOnly)).flatMap fun t => t ++ ['\n']
  if lines.all Option.isSome then
    ⟨0, stdout, if stats then (Tally.ofPackets packets).text else []⟩
  else .failed stdout .notText

/-- Turns a line into a frame. -/
def runEncode (line : Text) (now : Instant) : Outcome :=
  match (Packet.ofLine line now : Except DecodeError (Packet Float)) with
  | .error e => .failed [] (.decode e)
  | .ok p =>
    match p.frame.toBytes with
    | .error e => .failed [] (.encode e)
    | .ok octets => .done (Hex.encode octets ++ ['\n'])

/-- Turns a frame into a line, with a rendering of the packet if it is asked for as JSON or has a
fault. White space between the digits is disregarded. -/
def runDecode (digits : Text) (format : OutputFormat) (now : Instant) : Outcome :=
  match Hex.decode (Utf8.encode (digits.filter fun c => !Text.isBlank c)) with
  | .error e => .failed [] (.hex e)
  | .ok octets =>
    match (Packet.ofFrame octets now : Except DecodeError (Packet Float)) with
    | .error e => .failed [] (.decode e)
    | .ok p =>
      let line := p.text ++ ['\n']
      if format = .json ∨ p.payload.hasFault then .done (line ++ p.render format ++ ['\n'])
      else .done line

/-- Runs a command on the content of its input. -/
def run (command : Command) (content : Bytes) (now : Instant) : Outcome :=
  match command with
  | .parse _ format faultsOnly stats => runParse format faultsOnly stats content now
  | .encode line => runEncode line now
  | .decode digits format => runDecode digits format now
  | .passcode callsign => .done (Decimal.digits (Passcode.ofCallsign callsign) ++ ['\n'])

end Command

end Aprs
