import Aprs.Checked.Extension
import Aprs.Position.Decode

/-!
# Checked positions

The four encodings of a position. Digits of minutes are added up in words of 32 bits, what a Mic-E
report holds as an offset in signed ones.

Specification: 4.3 (Position Decoder).
-/

namespace Aprs.Checked

open Position (UncompressedFault MicEFault NmeaFault)

variable {α : Type} [Scalar α]

/-- Four digits of minutes with the last ones, as many as the ambiguity says, set to zero. -/
def truncate (ambiguity hundredths : Nat) : Checked Nat := do
  let step ← pow Scalar.word32 10 (min ambiguity Angle.maxAmbiguity)
  mul Scalar.word32 (← div hundredths step) step

/-! ## Uncompressed -/

/-- The four digits of the minutes with zeros for the blanks behind them, and how many blanks there
are. -/
def unblank (field : Bytes) : ExceptT UncompressedFault Checked (Bytes × Nat) := do
  let blanks := (field.reverse.takeWhile (· = 0x20)).length
  let kept ← sub field.length blanks
  let digits ← before field kept
  if digits.contains 0x20 then throw .gap
  let blank ← behind field kept
  return (digits ++ List.replicate blank.length 0x30, blanks)

/-- The number in a field of digits. -/
def uncompressedNumber (field : Bytes) : ExceptT UncompressedFault Checked Nat := do
  match ← field? field with
  | some n => return n
  | none => throw (.number (.invalidNumber (Utf8.lossy field)))

/-- The angle that a field writes along an axis, and how many digits of the minutes are blank. -/
def angle (axis : Axis) (disregarded : Nat) (field : Bytes) :
    ExceptT UncompressedFault Checked (Angle × Nat) := do
  let width := axis.degreeDigits
  let point ← octet field (width + 2)
  if point ≠ 0x2E then throw (.missingPoint axis)
  let a ← octet field width
  let b ← octet field (width + 1)
  let c ← octet field (width + 3)
  let d ← octet field (width + 4)
  let (minutes, blanks) ← unblank [a, b, c, d]
  let degrees ← uncompressedNumber (← before field width)
  let minutes ← truncate disregarded (← uncompressedNumber minutes)
  if axis.limit < degrees ∨ Angle.perDegree ≤ minutes ∨
      axis.limit * Angle.perDegree < degrees * Angle.perDegree + minutes then
    throw (.outOfRange axis)
  let letter ← octet field (width + 5)
  match axis.negative? letter with
  | some negative => return (⟨degrees, minutes, negative⟩, blanks)
  | none => throw (.hemisphere axis)

/-- The altitude in feet that the comment from the cursor on gives, which that of a weather station
does not. -/
def commentAltitude? (payload : Bytes) (cursor : Nat) (symbol : UInt8) : Checked (Option α) :=
  if symbol = Extension.weatherSymbol then return none
  else return Altitude.ofComment? (← behind payload cursor)

/-- The position at `start` with the extension and the altitude behind it, and the place behind
what was read. -/
def decodeUncompressed (limit : Nat) (payload : Bytes) (start : Nat) (instant : Instant) :
    Checked (PositionReport α × Nat) := do
  match piece? payload start (← add limit start Uncompressed.width) with
  | none => return PositionReport.failed start .uncompressed instant .tooShort
  | some field =>
    let symbol ← octet field 18
    let latitude ← (angle .latitude 0 (← before field 8)).run
    let ambiguity := Uncompressed.ambiguityOrZero latitude
    let longitude ← (angle .longitude ambiguity (← piece field 9 18)).run
    let table ← octet field 8
    let position : Position α :=
      Position.make (Uncompressed.valueOrZero latitude) (Uncompressed.valueOrZero longitude)
        ambiguity (charOfByte table) (charOfByte symbol) instant
    match Uncompressed.fault? latitude longitude with
    | some cause => return (PositionReport.faulted position .uncompressed (.uncompressed cause), start)
    | none =>
      let cursor ← add limit start Uncompressed.width
      let extension ← extensionOfUncompressed? limit payload cursor symbol
      let cursor ← add limit cursor (if extension.isSome then Extension.width else 0)
      let altitude : Option α ← commentAltitude? payload cursor symbol
      let report := PositionReport.plain { position with altitude } .uncompressed
      return ({ report with extension }, cursor)

/-! ## Compressed -/

/-- The symbol table that a character stands for. -/
def table (b : UInt8) : Checked Char := do
  if 0x61 ≤ b.toNat ∧ b.toNat ≤ 0x6A then
    let digit ← sub b.toNat 0x61
    return Char.ofNat (← add word8 0x30 digit)
  return charOfByte b

/-- The two numbers in eight base-91 digits of a field. -/
def distances (field : Bytes) : ExceptT Base91.Error Checked (Nat × Nat) := do
  let latitude ← ExceptT.mk (base91 (← piece field 1 5))
  let longitude ← ExceptT.mk (base91 (← piece field 5 9))
  return (latitude, longitude)

/-- The altitude in feet that the digits `c` and `s` carry if the type says so. -/
def altitude? (c s t : UInt8) : Checked (Option α) := do
  if c = 0x20 then return none
  if !(← isAltitudeType t) then return none
  match ← base91 [c, s] with
  | .ok n => return some (Scalar.power (Scalar.decimal 1002 3) n)
  | .error _ => return none

/-- An altitude that has been found, or else that of the comment. -/
def orComment? (feet : Option α) (payload : Bytes) (cursor : Nat) (symbol : UInt8) :
    Checked (Option α) :=
  match feet with
  | some feet => return some feet
  | none => commentAltitude? payload cursor symbol

/-- The position at `start`, and the place behind what was read. -/
def decodeCompressed (limit : Nat) (payload : Bytes) (start : Nat) (instant : Instant) :
    Checked (PositionReport α × Nat) := do
  match piece? payload start (← add limit start Compressed.width) with
  | none => return PositionReport.failed start .compressed instant .tooShort
  | some field =>
    let symbolTable ← table (← octet field 0)
    let symbol ← octet field 9
    let c ← octet field 10
    let s ← octet field 11
    let t ← octet field 12
    match ← (distances field).run with
    | .error cause =>
      return PositionReport.failed start .compressed instant (.compressedDigits cause)
    | .ok (north, east) =>
      let lat : α := Compressed.latitude north
      let lon : α := Compressed.longitude east
      if Compressed.inRange .latitude lat && Compressed.inRange .longitude lon then
        let feet : Option α ← altitude? c s t
        let cursor ← add limit start Compressed.width
        let altitude ← orComment? feet payload cursor symbol
        let position := Position.make lat lon 0 symbolTable (charOfByte symbol) instant
        let report := PositionReport.plain { position with altitude } .compressed
        let extension ← extensionOfCompressed? α c s t symbol
        return ({ report with extension }, cursor)
      else return PositionReport.failed start .compressed instant .compressedOutOfRange

/-! ## Mic-E -/

/-- The status in the first three characters of the destination. -/
def status (a b c : MicE.StatusBit) : Checked MicEStatus :=
  match MicE.weight .standard a b c, MicE.weight .custom a b c with
  | 0, custom + 1 => do return .custom (← sub 7 (custom + 1))
  | _, _ => return MicE.status a b c

/-- The character at a place. -/
def character (chars : List MicE.DestinationCharacter) (place : Nat) :
    Checked MicE.DestinationCharacter := element chars place

/-- The digit of a character, zero for a blank. -/
def digit (c : MicE.DestinationCharacter) : Nat := c.digit.getD 0

/-- What the destination says. -/
def destination (call : Bytes) : ExceptT MicEFault Checked MicE.Destination := do
  if call.length < MicE.destinationLength then throw .shortDestination
  let characters : Except MicEFault (List MicE.DestinationCharacter) :=
    (call.take MicE.destinationLength).mapM MicE.destinationCharacter
  let chars ← characters
  let blanks := (chars.reverse.takeWhile fun c => c.digit.isNone).length
  let kept ← sub MicE.destinationLength blanks
  let written ← before chars kept
  if Angle.maxAmbiguity < blanks ∨ written.any (fun c => c.digit.isNone) then throw .gap
  let a ← character chars 0
  let b ← character chars 1
  let c ← character chars 2
  let d ← character chars 3
  let e ← character chars 4
  let f ← character chars 5
  let degrees ← mul Scalar.word32 (digit a) 10
  let degrees ← add Scalar.word32 degrees (digit b)
  let minutes ← mul Scalar.word32 (digit c) 1000
  let minutes ← add Scalar.word32 minutes (← mul Scalar.word32 (digit d) 100)
  let minutes ← add Scalar.word32 minutes (← mul Scalar.word32 (digit e) 10)
  let minutes ← add Scalar.word32 minutes (digit f)
  if 89 < degrees ∨ Angle.perDegree ≤ minutes then throw .latitudeOutOfRange
  return {
    latitude := ⟨degrees, minutes, !d.flag⟩
    ambiguity := blanks
    offset := e.flag
    west := f.flag
    status := ← status a.bit b.bit c.bit }

/-- The degrees of longitude in an octet. -/
def longitudeDegrees (b : UInt8) (offset : Bool) : Checked Int := do
  let sent ← signed ((b.toNat : Int) - 28)
  let sent ← if offset then signed (sent + 100) else pure sent
  if 180 ≤ sent ∧ sent ≤ 189 then signed (sent - 80)
  else if 190 ≤ sent ∧ sent ≤ 199 then signed (sent - 190)
  else return sent

/-- The minutes of longitude in an octet. -/
def longitudeMinutes (b : UInt8) : Checked Int := do
  let sent ← signed ((b.toNat : Int) - 28)
  if 60 ≤ sent then signed (sent - 60) else return sent

/-- The longitude in three octets, its last digits disregarded as the ambiguity says. -/
def longitude (d : MicE.Destination) (degrees minutes hundredths : UInt8) :
    ExceptT MicEFault Checked Angle := do
  let deg ← longitudeDegrees degrees d.offset
  let min ← longitudeMinutes minutes
  let hun ← signed ((hundredths.toNat : Int) - 28)
  if 0 ≤ deg ∧ deg ≤ 179 ∧ 0 ≤ min ∧ min < 60 ∧ 0 ≤ hun ∧ hun < 100 then
    let all ← signed ((← signed (min * 100)) + hun)
    return ⟨deg.toNat, ← truncate d.ambiguity all.toNat, d.west⟩
  else throw .longitudeOutOfRange

/-- The altitude in feet at a place: three base-91 digits and a brace. -/
def micEAltitude? (limit : Nat) (payload : Bytes) (cursor : Nat) : Checked (Option α) := do
  let behind ← add limit cursor 3
  if payload[behind]? = some 0x7D then
    match ← base91 (← piece payload cursor behind) with
    | .ok n =>
      return some (Position.feetOfMeters (Scalar.ofNat n - Scalar.ofNat MicE.altitudeOffset))
    | .error _ => return none
  else return none

/-- The report in an information field and a destination. -/
def readMicE (limit : Nat) (payload call : Bytes) (instant : Instant) :
    ExceptT MicEFault Checked (PositionReport α × Nat) := do
  let d ← destination call
  match piece? payload 0 MicE.width with
  | none => throw .shortInformation
  | some body =>
    let lon ← longitude d (← octet body 1) (← octet body 2) (← octet body 3)
    let table ← octet body 8
    let code ← octet body 7
    let device := if payload[MicE.width]?.any MicE.isDeviceType then 1 else 0
    let cursor ← add limit MicE.width device
    let altitude : Option α ← micEAltitude? limit payload cursor
    let cursor ← add limit cursor (if altitude.isSome then 4 else 0)
    let position : Position α :=
      Position.make d.latitude.value lon.value d.ambiguity (charOfByte table) (charOfByte code)
        instant
    let extension ← extensionOfMicE? (← octet body 4) (← octet body 5) (← octet body 6)
    let report : PositionReport α :=
      { position := { position with altitude }
        source := .micE
        extension
        status := some d.status
        fault := none }
    return (report, cursor)

/-- The report in an information field and a destination, and the place behind what was read. -/
def decodeMicE (limit : Nat) (payload : Bytes) (destination : Callsign) (instant : Instant) :
    Checked (PositionReport α × Nat) := do
  match ← (readMicE limit payload (Utf8.encode destination.call) instant).run with
  | .ok result => return result
  | .error cause => return PositionReport.failed 1 .micE instant (.micE cause)

/-! ## Sentences of a receiver -/

/-- The fix in a sentence. -/
def fix (payload : Bytes) : ExceptT NmeaFault Checked (Nmea.Fix α) := do
  match Utf8.decode? payload with
  | none => throw .notText
  | some sentence =>
    let fields := Nmea.fields sentence
    let first ← (element fields 0 : Checked Text)
    match Utf8.splitAt? 3 first with
    | none => throw .missingType
    | some (_, kind) =>
      if kind = "RMC".toList then Nmea.recommendedMinimum fields
      else if kind = "GGA".toList then Nmea.fixData fields
      else if kind = "GLL".toList then Nmea.geographicPosition fields
      else throw .unsupported

/-- The report in a sentence, all of which is taken. -/
def decodeNmea (payload : Bytes) (instant : Instant) : Checked (PositionReport α × Nat) := do
  if payload.length < Nmea.minLength then
    return PositionReport.failed 1 .nmea instant .nmeaTooShort
  match ← (fix payload).run with
  | .error cause => return PositionReport.failed 1 .nmea instant (.nmea cause)
  | .ok (f : Nmea.Fix α) =>
    let position : Position α := Position.make f.latitude f.longitude 0 '\\' '.' instant
    let report := PositionReport.plain { position with altitude := f.altitude } .nmea
    return ({ report with extension := f.extension }, payload.length)

/-! ## All of them -/

/-- The position at `start` in one of the two plain encodings. -/
def decodePlain (limit : Nat) (payload : Bytes) (start : Nat) (instant : Instant) :
    Checked (PositionReport α × Nat) :=
  match payload[start]? with
  | none => return PositionReport.failed start .uncompressed instant .tooShort
  | some b =>
    if PositionReport.opensCompressed b then decodeCompressed limit payload start instant
    else if Decimal.isDigit b then decodeUncompressed limit payload start instant
    else
      return PositionReport.failed start .uncompressed instant (.unsupportedFormat (charOfByte b))

/-- The position in a payload, and the place behind what was read. -/
def decodePosition (limit : Nat) (payload : Bytes) (start : Nat) (destination : Callsign)
    (instant : Instant) : Checked (PositionReport α × Nat) :=
  match payload.head? with
  | some b =>
    if b = 0x27 ∨ b = 0x60 then decodeMicE limit payload destination instant
    else if b = 0x24 then decodeNmea payload instant
    else decodePlain limit payload start instant
  | none => decodePlain limit payload start instant

end Aprs.Checked
