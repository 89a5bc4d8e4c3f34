import Aprs.Callsign
import Aprs.Position.Report

/-!
# Mic-E positions

The latitude, the hemispheres, an offset of the longitude and a status ride in the six characters of
the destination; the information holds the longitude, the course and speed, and the symbol, and may
go on with a character for the kind of device and an altitude.

Specification: 4.3 (Position Decoder) and 12.2 (Position rendering and geometry).
-/

namespace Aprs.MicE

open Position (MicEFault)

/-! ## The destination -/

/-- A bit of the status, which is set in one of two ways. -/
inductive StatusBit
  | zero
  | standard
  | custom
  deriving DecidableEq, Repr

/-- What a character of the destination says: a digit of the latitude unless it is blank, a flag
whose sense its place determines, and a bit of the status. -/
structure DestinationCharacter where
  digit : Option Nat
  flag : Bool
  bit : StatusBit
  deriving DecidableEq, Repr

/-- How many characters of the destination are read. -/
def destinationLength : Nat := 6

/-- The sense of a character of the destination. -/
def destinationCharacter (b : UInt8) : Except MicEFault DestinationCharacter :=
  let n := b.toNat
  if 0x30 ≤ n ∧ n ≤ 0x39 then .ok ⟨some (n - 0x30), false, .zero⟩
  else if 0x41 ≤ n ∧ n ≤ 0x4A then .ok ⟨some (n - 0x41), false, .custom⟩
  else if n = 0x4B then .ok ⟨none, false, .custom⟩
  else if n = 0x4C then .ok ⟨none, false, .zero⟩
  else if 0x50 ≤ n ∧ n ≤ 0x59 then .ok ⟨some (n - 0x50), true, .standard⟩
  else if n = 0x5A then .ok ⟨none, true, .standard⟩
  else .error .destinationCharacter

/-- The weight in the status of the bits that are set in one way. -/
def weight (kind : StatusBit) (a b c : StatusBit) : Nat :=
  (if a = kind then 4 else 0) + (if b = kind then 2 else 0) + if c = kind then 1 else 0

/-- The status in the first three characters of the destination. -/
def status (a b c : StatusBit) : MicEStatus :=
  match weight .standard a b c, weight .custom a b c with
  | 0, 0 => .emergency
  | 0, custom => .custom (7 - custom)
  | 7, 0 => .offDuty
  | 6, 0 => .enRoute
  | 5, 0 => .inService
  | 4, 0 => .returning
  | 3, 0 => .committed
  | 2, 0 => .special
  | _, 0 => .priority
  | _, _ => .unknown

/-- What the destination says. -/
structure Destination where
  latitude : Angle
  ambiguity : Nat
  /-- Whether the longitude is a hundred degrees greater than it is sent. -/
  offset : Bool
  west : Bool
  status : MicEStatus
  deriving DecidableEq, Repr

/-- The destination in the octets of a call. The digits that are blank must be the last ones, and
no more than the four of the minutes. -/
def destination (call : Bytes) : Except MicEFault Destination := do
  if call.length < destinationLength then throw .shortDestination
  let chars ← (call.take destinationLength).mapM destinationCharacter
  let blanks := (chars.reverse.takeWhile fun c => c.digit.isNone).length
  if Angle.maxAmbiguity < blanks ∨
      (chars.take (destinationLength - blanks)).any (fun c => c.digit.isNone) then
    throw .gap
  match chars with
  | [a, b, c, d, e, f] =>
    let value (x : DestinationCharacter) : Nat := x.digit.getD 0
    let degrees := value a * 10 + value b
    let minutes := value c * 1000 + value d * 100 + value e * 10 + value f
    if 89 < degrees ∨ Angle.perDegree ≤ minutes then throw .latitudeOutOfRange
    return {
      latitude := ⟨degrees, minutes, !d.flag⟩
      ambiguity := blanks
      offset := e.flag
      west := f.flag
      status := status a.bit b.bit c.bit }
  | _ => throw .shortDestination

/-! ## The information -/

/-- The width of the part that every report has. -/
def width : Nat := 9

/-- The degrees of longitude in an octet. What lies beyond the greatest value stands for degrees
that have no octet of their own. -/
def longitudeDegrees (b : UInt8) (offset : Bool) : Int :=
  let sent : Int := (b.toNat : Int) - 28 + if offset then 100 else 0
  if 180 ≤ sent ∧ sent ≤ 189 then sent - 80
  else if 190 ≤ sent ∧ sent ≤ 199 then sent - 190
  else sent

/-- The minutes of longitude in an octet. -/
def longitudeMinutes (b : UInt8) : Int :=
  let sent : Int := (b.toNat : Int) - 28
  if 60 ≤ sent then sent - 60 else sent

/-- The longitude in three octets, its last digits disregarded as the ambiguity says. -/
def longitude (d : Destination) (degrees minutes hundredths : UInt8) : Except MicEFault Angle :=
  let deg := longitudeDegrees degrees d.offset
  let min := longitudeMinutes minutes
  let hun : Int := (hundredths.toNat : Int) - 28
  if 0 ≤ deg ∧ deg ≤ 179 ∧ 0 ≤ min ∧ min < 60 ∧ 0 ≤ hun ∧ hun < 100 then
    .ok ⟨deg.toNat, Angle.truncate d.ambiguity (min * 100 + hun).toNat, d.west⟩
  else .error .longitudeOutOfRange

/-- Whether an octet tells the kind of device. -/
def isDeviceType (b : UInt8) : Bool := b = 0x3E || b = 0x5D || b = 0x60 || b = 0x27

/-- Altitudes are sent in metres above a level this far below the sea. -/
def altitudeOffset : Nat := 10000

/-- The altitude in feet that octets begin with: three base-91 digits and a brace. -/
def altitude? {α : Type} [Scalar α] : Bytes → Option α
  | a :: b :: c :: 0x7D :: _ =>
    match Base91.decode [a, b, c] with
    | .ok n => some (Position.feetOfMeters (Scalar.ofNat n - Scalar.ofNat altitudeOffset))
    | .error _ => none
  | _ => none

variable {α : Type} [Scalar α]

/-- The report in an information field and a destination. -/
def read (payload call : Bytes) (instant : Instant) : Except MicEFault (PositionReport α × Nat) := do
  let d ← destination call
  match payload with
  | _ :: deg :: min :: hun :: sp :: dc :: se :: code :: table :: rest =>
    let lon ← longitude d deg min hun
    let device := if rest.head?.any isDeviceType then 1 else 0
    let altitude : Option α := altitude? (rest.drop device)
    let position : Position α :=
      Position.make d.latitude.value lon.value d.ambiguity (charOfByte table) (charOfByte code)
        instant
    let report : PositionReport α :=
      { position := { position with altitude }
        source := .micE
        extension := Extension.ofMicE? sp dc se
        status := some d.status
        fault := none }
    return (report, width + device + if altitude.isSome then 4 else 0)
  | _ => throw .shortInformation

/-- The report in an information field and a destination, and the place behind what was read. -/
def decode (payload : Bytes) (destination : Callsign) (instant : Instant) :
    PositionReport α × Nat :=
  match read payload (Utf8.encode destination.call) instant with
  | .ok result => result
  | .error cause => PositionReport.failed 1 .micE instant (.micE cause)

end Aprs.MicE
