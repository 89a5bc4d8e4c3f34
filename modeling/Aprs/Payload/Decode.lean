import Aprs.Payload

/-!
# Decoding an information field

The first octet identifies what the field carries, and with it the decoders that read it in turn,
each from the place where the one before it stopped.

Specification: 4.6 (Packet Framer/Dispatcher) and 12.8 (Packet-level).
-/

namespace Aprs.Payload

variable {α : Type}

/-- What decoding finds before the comment is cut off. -/
structure Contents (α : Type) where
  kind : Kind
  pieces : Pieces α
  cursor : Nat

/-- The length of the shortest telemetry report. -/
def minTelemetry : Nat := 19

/-- Contents without a piece, behind the identifier. -/
def bare (kind : Kind) : Contents α := ⟨kind, [], 1⟩

/-- Contents whose one piece could not be made. -/
def broken (kind : Kind) (cursor : Nat) (cause : PieceFault) : Contents α :=
  ⟨kind, [(kind, .fault cause)], cursor⟩

/-- The symbol code of a weather station. -/
def weatherSymbol : Char := '_'

variable [Scalar α]

/-- The pieces with the weather report at the cursor, which stands behind the position of a weather
station, and the place behind it. -/
def addWeather (raw : Bytes) (report : PositionReport α) (cursor : Nat) (pieces : Pieces α) :
    Pieces α × Nat :=
  if report.fault.isSome ∨ report.position.code ≠ weatherSymbol then (pieces, cursor)
  else
    let (weather, cursor) := Weather.decode raw cursor
    (pieces.put .weather (.weather weather), cursor)

/-- A position at the cursor and the weather report behind it. -/
def positionContents (raw : Bytes) (destination : Callsign) (instant : Instant)
    (pieces : Pieces α) (start : Nat) : Contents α :=
  let (report, cursor) := PositionReport.decode raw start destination instant
  let (pieces, cursor) := addWeather raw report cursor pieces
  let kind := if (pieces.get? .weather).isSome then Kind.weather else .position
  ⟨kind, pieces.put .position (.position report), cursor⟩

/-- A timestamp and the position behind it, which was made at that time. -/
def timedPosition (raw : Bytes) (destination : Callsign) (now : Instant) : Contents α :=
  let (time, cursor) := Timestamp.decode raw 1 now
  positionContents raw destination (time.generated now) [(.timestamp, .time time)] cursor

/-- A message. -/
def messageContents (raw : Bytes) : Contents α :=
  let (message, cursor) := Message.decode raw
  ⟨.message, [(.message, .message message)], cursor⟩

/-- An object and the weather report behind it. -/
def objectContents (raw : Bytes) (destination : Callsign) (now : Instant) : Contents α :=
  match Object.decode raw destination now with
  | .error cause => broken .object 1 (.object cause)
  | .ok (object, cursor) =>
    let (pieces, cursor) := addWeather raw object.report cursor []
    ⟨.object, pieces.put .object (.object object), cursor⟩

/-- An item and the weather report behind it. -/
def itemContents (raw : Bytes) (destination : Callsign) (now : Instant) : Contents α :=
  match Item.decode raw destination now with
  | .error cause => broken .item 1 (.item cause)
  | .ok (item, cursor) =>
    let (pieces, cursor) := addWeather raw item.report cursor []
    ⟨.item, pieces.put .item (.item item), cursor⟩

/-- A weather report without a position, behind its timestamp. -/
def weatherContents (raw : Bytes) (now : Instant) : Contents α :=
  let (time, cursor) := Timestamp.decode raw 1 now
  let (weather, cursor) := Weather.decode raw cursor
  ⟨.weather, [(.timestamp, .time time), (.weather, .weather weather)], cursor⟩

/-- Whether octets begin with a text of ASCII characters. -/
def beginsWith (t : Text) (raw : Bytes) : Bool := raw.take t.length = Utf8.encode t

/-- What an information field contains. -/
def contents (raw : Bytes) (destination : Callsign) (now : Instant) : Contents α :=
  match raw with
  | [] => broken .unspecified 0 .emptyInformation
  | identifier :: _ =>
    let c := charOfByte identifier
    if c = '/' ∨ c = '@' then timedPosition raw destination now
    else if beginsWith "$ULTW".toList raw ∨ beginsWith "!!".toList raw then bare .weather
    else if c = '!' ∨ c = '=' ∨ c = '\x60' ∨ c = '\x27' ∨ c = '$' then
      positionContents raw destination now [] 1
    else if c = ':' then messageContents raw
    else if c = ';' then objectContents raw destination now
    else if c = ')' then itemContents raw destination now
    else if c = '_' then weatherContents raw now
    else if c = '#' ∨ c = '*' then bare .weather
    else if c = '>' then bare .status
    else if c = '<' then bare .stationCapabilities
    else if c = '?' then bare .query
    else if c = 'T' then
      if raw.length < minTelemetry then broken .telemetry 1 (.shortTelemetry raw.length)
      else bare .telemetry
    else if c = '\x7b' then bare .userDefined
    else if c = '\x7d' then bare .thirdParty
    else broken .unspecified 1 (.unsupportedIdentifier identifier)

/-- The decoded information field. The destination carries part of a Mic-E report, and `now` is the
instant at which the packet came in. -/
def decode (raw : Bytes) (destination : Callsign) (now : Instant) : Payload α :=
  let found : Contents α := contents raw destination now
  { kind := found.kind
    raw
    pieces := found.pieces
    cursor := found.cursor
    comment := Utf8.lossy (raw.drop found.cursor) }

end Aprs.Payload
