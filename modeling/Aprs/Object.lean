import Aprs.Position.Decode
import Aprs.Text.Blank
import Aprs.Timestamp

/-!
# Objects

A station may report the place of something other than itself. An object has a name of nine
characters, a flag that tells whether it is still there, a timestamp and a position.

Specification: 12.7 (Objects and items).
-/

namespace Aprs

/-- An object. -/
structure Object (α : Type) where
  name : Text
  live : Bool
  time : Timestamp
  report : PositionReport α

namespace Object

/-- What is wrong with an object. -/
inductive Fault
  | tooShort (length : Nat)
  deriving DecidableEq, Repr

/-- The wording of a fault. -/
def Fault.reason : Fault → Text
  | .tooShort length =>
    "object payload of ".toList ++ Decimal.digits length ++ " bytes is too short".toList

/-- The width of the name. -/
def nameWidth : Nat := 9

/-- The length of the shortest payload that holds an object. -/
def minLength : Nat := 30

/-- The place of the flag. -/
def flagPlace : Nat := 1 + nameWidth

/-- The timestamp of an object as a station sends it. One whose form is not known, or has no
indicator, is written as universal time. -/
def timeText (t : Timestamp) : Text :=
  let instant := t.instant.getD .epoch
  let two := Decimal.padded 2
  match t.format with
  | some .hourMinuteSecond => two instant.hour ++ two instant.minute ++ two instant.second ++ ['h']
  | some .dayHourMinuteLocal =>
    two instant.date.day ++ two instant.hour ++ two instant.minute ++ ['/']
  | _ => two instant.date.day ++ two instant.hour ++ two instant.minute ++ ['z']

variable {α : Type} [Scalar α]

/-- The object as a station sends it. -/
def text (o : Object α) : Text :=
  ';' :: padRight nameWidth o.name ++ (if o.live then '*' else '_') :: timeText o.time
    ++ o.report.position.text

/-- The object in a payload, and the place behind what was read. -/
def decode (payload : Bytes) (destination : Callsign) (now : Instant) :
    Except Fault (Object α × Nat) :=
  if payload.length < minLength then .error (.tooShort payload.length)
  else
    let name := Text.trim (Utf8.lossy ((payload.drop 1).take nameWidth))
    let live := payload.getD flagPlace 0 == 0x2A
    let (time, cursor) := Timestamp.decode payload (flagPlace + 1) now
    let (report, cursor) :=
      PositionReport.decode payload cursor destination (time.generated now)
    .ok (⟨name, live, time, report⟩, cursor)

end Object

end Aprs
