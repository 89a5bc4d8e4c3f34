import Aprs.Cut
import Aprs.Text.Blank
import Aprs.Text.Uppercase
import Aprs.Text.Utf8

/-!
# Messages

A message goes to one station, whose name stands in a field of nine characters, and may carry a
number that the receiver is to acknowledge. An acknowledgement or a rejection is a message whose
text is `ack` or `rej` with the number. A message may carry along the acknowledgement of an earlier
one.

Specification: 12.6 (Messages).
-/

namespace Aprs

namespace Message

/-- What is wrong with a message. -/
inductive Fault
  | tooShort
  | addresseeNotTerminated
  deriving DecidableEq, Repr

/-- The wording of a fault. -/
def Fault.reason : Fault → Text
  | .tooShort => "message too short".toList
  | .addresseeNotTerminated => "message addressee is not terminated".toList

end Message

/-- A message as it was read. -/
structure Message where
  addressee : Text
  body : Text
  number : Option Text
  replyAck : Option Text
  isAck : Bool
  isRej : Bool
  fault : Option Message.Fault
  deriving DecidableEq, Repr

namespace Message

/-- A message with nothing in it. -/
def empty : Message := ⟨[], [], none, none, false, false, none⟩

/-- The width of the field of the addressee. -/
def addresseeWidth : Nat := 9

/-- The length of the longest number of an acknowledgement. -/
def maxAckNumber : Nat := 5

/-- The number behind the body, and the acknowledgement behind that. -/
def numberText (m : Message) : Text :=
  match m.number with
  | none => []
  | some number =>
    '\x7b' :: number ++
      match m.replyAck with
      | none => []
      | some replyAck => '\x7d' :: replyAck

/-- The message as a station sends it. -/
def text (m : Message) : Text :=
  let head := ':' :: padRight addresseeWidth m.addressee ++ [':']
  if m.isAck then head ++ "ack".toList ++ m.number.getD []
  else if m.isRej then head ++ "rej".toList ++ m.number.getD []
  else head ++ m.body ++ m.numberText

/-- The body, the number and the acknowledgement carried along: the number stands behind the last
opening brace, and the acknowledgement behind the first closing brace in it. -/
def parts (t : Text) : Text × Option Text × Option Text :=
  match cutLast '\x7b' t with
  | none => (t, none, none)
  | some (body, number) =>
    match cutFirst '\x7d' number with
    | none => (body, some number, none)
    | some (number, replyAck) => (body, some number, some replyAck)

/-- The answers that a body can be. -/
inductive Answer
  | ack
  | rej
  deriving DecidableEq, Repr

/-- The answer that a body is, and the number behind it. The number is at most five ASCII letters
and digits. -/
def answer? (body : Text) : Option (Answer × Text) :=
  (Utf8.splitAt? 3 body).bind fun (word, number) =>
    if maxAckNumber < Utf8.size number ∨ number.any (fun c => !c.isAlphanum) then none
    else if Text.lowerAscii word = "ack".toList then some (.ack, number)
    else if Text.lowerAscii word = "rej".toList then some (.rej, number)
    else none

/-- The message in a text and for an addressee. -/
def ofText (addressee t : Text) : Message :=
  let (body, number, replyAck) := parts t
  match answer? body with
  | none => ⟨addressee, body, number, replyAck, false, false, none⟩
  | some (answer, ackNumber) =>
    { addressee
      body := body.take 3
      number := if ackNumber.isEmpty then number else some ackNumber
      replyAck
      isAck := answer = .ack
      isRej := answer = .rej
      fault := none }

/-- The message that could not be read, of which only the identifier is taken. -/
def failed (payload : Bytes) (fault : Fault) : Message × Nat :=
  ({ empty with fault := some fault }, min 1 payload.length)

/-- The message in a payload, and the place behind what was read. The first octet is the identifier,
and the second belongs to the addressee whatever it is. -/
def decode (payload : Bytes) : Message × Nat :=
  match payload with
  | _ :: a :: rest =>
    match cutFirst 0x3A rest with
    | none => failed payload .addresseeNotTerminated
    | some (addressee, body) =>
      let addressee := Text.upper (Text.trim (Utf8.lossy (a :: addressee)))
      (ofText addressee (Utf8.lossy body), payload.length)
  | _ => failed payload .tooShort

end Message

end Aprs
