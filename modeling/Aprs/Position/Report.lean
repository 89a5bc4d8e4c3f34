import Aprs.Extension
import Aprs.Position.Basic
import Aprs.Reader
import Aprs.Text.DigitRun

/-!
# Position reports

What a decoder makes of a position: the position itself, the encoding it came in, what was found
beside it, and the fault if it could not be read. A report with a fault carries nothing beside the
position.

Specification: 4.3 (Position Decoder) and 7 (Error Handling Design).
-/

namespace Aprs

/-- The encodings of a position. -/
inductive PositionSource
  | uncompressed
  | compressed
  | micE
  | nmea
  deriving DecidableEq, Repr

/-- The status that a station sends in the destination of a Mic-E report. -/
inductive MicEStatus
  | offDuty
  | enRoute
  | inService
  | returning
  | committed
  | special
  | priority
  | emergency
  | custom (number : Nat)
  /-- Standard and custom bits together. -/
  | unknown
  deriving DecidableEq, Repr

namespace Position

/-- What is wrong with an uncompressed position. -/
inductive UncompressedFault
  | missingPoint (axis : Axis)
  | gap
  | number (cause : ReadError)
  | outOfRange (axis : Axis)
  | hemisphere (axis : Axis)
  deriving DecidableEq, Repr

/-- What is wrong with a Mic-E position. -/
inductive MicEFault
  | shortDestination
  | destinationCharacter
  | gap
  | latitudeOutOfRange
  | shortInformation
  | longitudeOutOfRange
  deriving DecidableEq, Repr

/-- What is wrong with a sentence of a receiver. -/
inductive NmeaFault
  | notText
  | missingType
  | missingField
  | fixNotValid
  | number (field : Text)
  | hemisphere
  | unsupported
  deriving DecidableEq, Repr

/-- What is wrong with a position. -/
inductive Fault
  | tooShort
  | unsupportedFormat (first : Char)
  | uncompressed (cause : UncompressedFault)
  | compressedDigits (cause : Base91.Error)
  | compressedOutOfRange
  | micE (cause : MicEFault)
  | nmeaTooShort
  | nmea (cause : NmeaFault)
  deriving DecidableEq, Repr

/-- The wording of a fault. -/
def UncompressedFault.reason : UncompressedFault → Text
  | .missingPoint axis => axis.name ++ " is missing its decimal point".toList
  | .gap => "position ambiguity must blank trailing digits".toList
  | .number cause => cause.message
  | .outOfRange axis => axis.name ++ " out of range".toList
  | .hemisphere axis =>
    axis.name ++ " hemisphere must be ".toList ++ axis.letter false :: " or ".toList
      ++ [axis.letter true]

/-- The wording of a fault. -/
def MicEFault.reason : MicEFault → Text
  | .shortDestination => "destination shorter than 6 characters".toList
  | .destinationCharacter => "invalid destination character".toList
  | .gap => "ambiguity must blank trailing digits".toList
  | .latitudeOutOfRange => "latitude out of range".toList
  | .shortInformation => "information field too short".toList
  | .longitudeOutOfRange => "longitude out of range".toList

/-- The wording of a fault. -/
def NmeaFault.reason : NmeaFault → Text
  | .notText => "sentence is not ASCII".toList
  | .missingType => "missing sentence type".toList
  | .missingField => ReadError.message .unexpectedEnd
  | .fixNotValid => "fix not valid".toList
  | .number field => ReadError.message (.invalidNumber field)
  | .hemisphere => "invalid value".toList
  | .unsupported => "unsupported sentence".toList

/-- The wording of a fault. -/
def Fault.reason : Fault → Text
  | .tooShort => "Position packet too short".toList
  | .unsupportedFormat first => "unsupported position format at '".toList ++ [first, '\'']
  | .uncompressed cause => cause.reason
  | .compressedDigits cause => "compressed position: ".toList ++ cause.message
  | .compressedOutOfRange => "compressed position out of range".toList
  | .micE cause => "Mic-E: ".toList ++ cause.reason
  | .nmeaTooShort => "Unable to parse NMEA position".toList
  | .nmea cause => "NMEA: ".toList ++ cause.reason

end Position

/-- A position and what was found beside it. -/
structure PositionReport (α : Type) where
  position : Position α
  source : PositionSource
  extension : Option Extension
  status : Option MicEStatus
  fault : Option Position.Fault

namespace PositionReport

variable {α : Type} [Scalar α]

/-- Whether the position came in compressed form. -/
def isCompressed (r : PositionReport α) : Bool := r.source = .compressed

/-- A position with nothing beside it. -/
def plain (position : Position α) (source : PositionSource) : PositionReport α :=
  ⟨position, source, none, none, none⟩

/-- A position with a fault. -/
def faulted (position : Position α) (source : PositionSource) (fault : Position.Fault) :
    PositionReport α :=
  ⟨position, source, none, none, some fault⟩

/-- The report on a position that could not be read at all, which takes nothing. -/
def failed (cursor : Nat) (source : PositionSource) (instant : Instant) (fault : Position.Fault) :
    PositionReport α × Nat :=
  (faulted (Position.unknown instant) source fault, cursor)

end PositionReport

/-! ## Altitude in a comment -/

namespace Altitude

/-- The number behind `/A=` at the start of octets: six digits, or a minus and five. -/
def tagged? : Bytes → Option Text
  | 0x2F :: 0x41 :: 0x3D :: 0x2D :: rest => (Text.takeDigits? 5 rest).map fun (t, _) => '-' :: t
  | 0x2F :: 0x41 :: 0x3D :: rest => (Text.takeDigits? 6 rest).map fun (t, _) => t
  | _ => none

/-- The first such number anywhere in octets. -/
def find? : Bytes → Option Text
  | [] => none
  | b :: rest =>
    match tagged? (b :: rest) with
    | some t => some t
    | none => find? rest

/-- The altitude in feet that a comment gives. -/
def ofComment? {α : Type} [Scalar α] (comment : Bytes) : Option α :=
  ((find? comment).bind Decimal.integer?).map fun n =>
    if n < 0 then -Scalar.ofNat n.natAbs else Scalar.ofNat n.natAbs

end Altitude

end Aprs
