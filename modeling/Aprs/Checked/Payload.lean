import Aprs.Checked.Position
import Aprs.Checked.Weather
import Aprs.Payload.Decode

/-!
# Checked information fields

Messages, objects and items, and the choice between all decoders. The comment is the last piece that
is asked for: the octets from the cursor on.

Specification: 4.6 (Packet Framer/Dispatcher) and 9 (Design Notes).
-/

namespace Aprs.Checked

variable {α : Type} [Scalar α]

/-! ## Messages -/

/-- The message in a text and for an addressee. The body of an answer is cut behind its word. -/
def messageOfText (addressee t : Text) : Checked Message :=
  let (body, number, replyAck) := Message.parts t
  match Message.answer? body with
  | none => return ⟨addressee, body, number, replyAck, false, false, none⟩
  | some (answer, ackNumber) => do
    let word ← cutText 3 body
    return {
      addressee
      body := word
      number := if ackNumber.isEmpty then number else some ackNumber
      replyAck
      isAck := answer = .ack
      isRej := answer = .rej
      fault := none }

/-- The message in a payload, and the place behind what was read. -/
def decodeMessage (limit : Nat) (payload : Bytes) : Checked (Message × Nat) := do
  if payload.length < 2 then return Message.failed payload .tooShort
  match (← behind payload 2).findIdx? (· = 0x3A) with
  | none => return Message.failed payload .addresseeNotTerminated
  | some i =>
    let stop ← add limit i 2
    let addressee := Text.upper (Text.trim (Utf8.lossy (← piece payload 1 stop)))
    let body := Utf8.lossy (← behind payload (← add limit stop 1))
    let message ← messageOfText addressee body
    return (message, payload.length)

/-! ## Objects and items -/

/-- The object in a payload, and the place behind what was read. -/
def decodeObject (limit : Nat) (payload : Bytes) (destination : Callsign) (now : Instant) :
    Checked (Except Object.Fault (Object α × Nat)) := do
  if payload.length < Object.minLength then return .error (.tooShort payload.length)
  let name := Text.trim (Utf8.lossy (← piece payload 1 Object.flagPlace))
  let flag ← octet payload Object.flagPlace
  let (time, cursor) ← decodeTimestamp limit payload (Object.flagPlace + 1) now
  let (report, cursor) ← decodePosition limit payload cursor destination (time.generated now)
  return .ok (⟨name, flag == 0x2A, time, report⟩, cursor)

/-- The item in a payload, and the place behind what was read. -/
def decodeItem (limit : Nat) (payload : Bytes) (destination : Callsign) (now : Instant) :
    Checked (Except Item.Fault (Item α × Nat)) := do
  if payload.length < Item.minLength then return .error (.tooShort payload.length)
  let search ← piece payload 1 (min payload.length (Item.maxName + 2))
  match search.findIdx? Item.isFlag with
  | none => return .error .notTerminated
  | some length =>
    if length = 0 then return .error .notTerminated
    let place ← add limit 1 length
    let name := Utf8.lossy (← piece payload 1 place)
    let flag ← octet payload place
    let cursor ← add limit place 1
    let (report, cursor) ← decodePosition limit payload cursor destination now
    return .ok (⟨name, flag == 0x21, report⟩, cursor)

/-! ## The information field -/

/-- The pieces with the weather report at the cursor, which stands behind the position of a weather
station, and the place behind it. -/
def addWeather (limit : Nat) (raw : Bytes) (report : PositionReport α) (cursor : Nat)
    (pieces : Pieces α) : Checked (Pieces α × Nat) := do
  if report.fault.isSome ∨ report.position.code ≠ Payload.weatherSymbol then return (pieces, cursor)
  let (weather, cursor) ← decodeWeather limit raw cursor
  return (pieces.put .weather (.weather weather), cursor)

/-- A position at the cursor and the weather report behind it. -/
def positionContents (limit : Nat) (raw : Bytes) (destination : Callsign) (instant : Instant)
    (pieces : Pieces α) (start : Nat) : Checked (Payload.Contents α) := do
  let (report, cursor) ← decodePosition limit raw start destination instant
  let (pieces, cursor) ← addWeather limit raw report cursor pieces
  let kind := if (pieces.get? .weather).isSome then Kind.weather else .position
  return ⟨kind, pieces.put .position (.position report), cursor⟩

/-- A timestamp and the position behind it, which was made at that time. -/
def timedPosition (limit : Nat) (raw : Bytes) (destination : Callsign) (now : Instant) :
    Checked (Payload.Contents α) := do
  let (time, cursor) ← decodeTimestamp limit raw 1 now
  positionContents limit raw destination (time.generated now) [(.timestamp, .time time)] cursor

/-- A message. -/
def messageContents (limit : Nat) (raw : Bytes) : Checked (Payload.Contents α) := do
  let (message, cursor) ← decodeMessage limit raw
  return ⟨.message, [(.message, .message message)], cursor⟩

/-- An object and the weather report behind it. -/
def objectContents (limit : Nat) (raw : Bytes) (destination : Callsign) (now : Instant) :
    Checked (Payload.Contents α) := do
  match ← decodeObject limit raw destination now with
  | .error cause => return Payload.broken .object 1 (.object cause)
  | .ok (object, cursor) =>
    let (pieces, cursor) ← addWeather limit raw object.report cursor []
    return ⟨.object, pieces.put .object (.object object), cursor⟩

/-- An item and the weather report behind it. -/
def itemContents (limit : Nat) (raw : Bytes) (destination : Callsign) (now : Instant) :
    Checked (Payload.Contents α) := do
  match ← decodeItem limit raw destination now with
  | .error cause => return Payload.broken .item 1 (.item cause)
  | .ok (item, cursor) =>
    let (pieces, cursor) ← addWeather limit raw item.report cursor []
    return ⟨.item, pieces.put .item (.item item), cursor⟩

/-- A weather report without a position, behind its timestamp. -/
def weatherContents (limit : Nat) (raw : Bytes) (now : Instant) : Checked (Payload.Contents α) := do
  let (time, cursor) ← decodeTimestamp limit raw 1 now
  let (weather, cursor) ← decodeWeather limit raw cursor
  return ⟨.weather, [(.timestamp, .time time), (.weather, .weather weather)], cursor⟩

/-- What an information field contains. -/
def contents (limit : Nat) (raw : Bytes) (destination : Callsign) (now : Instant) :
    Checked (Payload.Contents α) :=
  match raw with
  | [] => return Payload.broken .unspecified 0 .emptyInformation
  | identifier :: _ =>
    let c := charOfByte identifier
    if c = '/' ∨ c = '@' then timedPosition limit raw destination now
    else if Payload.beginsWith "$ULTW".toList raw ∨ Payload.beginsWith "!!".toList raw then
      return Payload.bare .weather
    else if c = '!' ∨ c = '=' ∨ c = '\x60' ∨ c = '\x27' ∨ c = '$' then
      positionContents limit raw destination now [] 1
    else if c = ':' then messageContents limit raw
    else if c = ';' then objectContents limit raw destination now
    else if c = ')' then itemContents limit raw destination now
    else if c = '_' then weatherContents limit raw now
    -- no other field is asked for octets behind its identifier
    else return Payload.contents raw destination now

/-- The decoded information field. -/
def decodePayload (limit : Nat) (raw : Bytes) (destination : Callsign) (now : Instant) :
    Checked (Payload α) := do
  let found : Payload.Contents α ← contents limit raw destination now
  let rest ← behind raw found.cursor
  return {
    kind := found.kind
    raw
    pieces := found.pieces
    cursor := found.cursor
    comment := Utf8.lossy rest }

end Aprs.Checked
