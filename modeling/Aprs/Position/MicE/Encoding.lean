import Aprs.Position.MicE

/-!
# Mic-E reports as they are sent

How a tracker puts a report into the six characters of the destination and the octets of the
information. A digit of the latitude is a character of one of three rows, which tells a bit of the
status in the first three columns and a hemisphere or the offset of the longitude in the last three; a
row has a character of its own for a blank. Degrees and minutes of the longitude are sent in intervals
that keep their octets printable, and a speed or a course may be sent with a multiple added to it.

Specification: 4.3 (Position Decoder).
-/

namespace Aprs.MicE

namespace StatusBit

/-- The character of the digit zero in the row of a bit. -/
def firstDigit : StatusBit → Nat
  | zero => 0x30
  | custom => 0x41
  | standard => 0x50

/-- The character of a blank in the row of a bit. -/
def blank : StatusBit → Nat
  | zero => 0x4C
  | custom => 0x4B
  | standard => 0x5A

/-- The row of a column that carries a flag. -/
def ofFlag (flag : Bool) : StatusBit := if flag then standard else zero

/-- The octet of a digit, or of a blank. -/
def octet (row : StatusBit) : Option Nat → UInt8
  | some digit => UInt8.ofNat (row.firstDigit + digit)
  | none => UInt8.ofNat row.blank

end StatusBit

/-- What a tracker reports. -/
structure Sending where
  latitude : Angle
  longitude : Angle
  /-- How many digits of the latitude are sent as blanks. -/
  ambiguity : Nat
  firstBit : StatusBit
  secondBit : StatusBit
  thirdBit : StatusBit
  /-- Knots. -/
  speed : Nat
  /-- Degrees. -/
  course : Nat
  /-- Whether the speed is sent with eight hundred added to it. -/
  speedRaised : Bool
  /-- Whether the course is sent with four hundred added to it. -/
  courseRaised : Bool
  code : UInt8
  table : UInt8
  latitude_degrees : latitude.degrees ≤ 89
  latitude_hundredths : latitude.hundredths < 6000
  longitude_degrees : longitude.degrees ≤ 179
  longitude_hundredths : longitude.hundredths < 6000
  ambiguity_le : ambiguity ≤ 4
  speed_lt : speed < 800
  course_lt : course < 400

namespace Sending

variable (s : Sending)

/-! ## The destination -/

/-- The digits of the latitude: two of the degrees and four of the minutes. -/
def digits : List Nat :=
  [s.latitude.degrees / 10, s.latitude.degrees % 10, s.latitude.hundredths / 1000,
    s.latitude.hundredths / 100 % 10, s.latitude.hundredths / 10 % 10, s.latitude.hundredths % 10]

/-- The digits of the latitude with blanks for the last ones. -/
def sentDigits : List (Option Nat) :=
  (s.digits.take (6 - s.ambiguity)).map some ++ List.replicate s.ambiguity none

/-- Whether the longitude is sent with a hundred degrees taken off or, below ten degrees, added. -/
def offset : Bool := s.longitude.degrees < 10 || 100 ≤ s.longitude.degrees

/-- The rows of the six columns: the bits of the status, north, the offset, and west. -/
def rows : List StatusBit :=
  [s.firstBit, s.secondBit, s.thirdBit, .ofFlag !s.latitude.negative, .ofFlag s.offset,
    .ofFlag s.longitude.negative]

/-- The call of the destination. -/
def call : Text := (List.zipWith StatusBit.octet s.rows s.sentDigits).map charOfByte

/-! ## The information -/

/-- The octet of the degrees of longitude. -/
def degreesOctet (degrees : Nat) : UInt8 :=
  if degrees < 10 then UInt8.ofNat (degrees + 118)
  else if degrees < 100 then UInt8.ofNat (degrees + 28)
  else if degrees < 110 then UInt8.ofNat (degrees + 8)
  else UInt8.ofNat (degrees - 72)

/-- The octet of the whole minutes of longitude. -/
def minutesOctet (minutes : Nat) : UInt8 :=
  if minutes < 10 then UInt8.ofNat (minutes + 88) else UInt8.ofNat (minutes + 28)

/-- The tens of the speed. -/
def speedOctet : UInt8 := UInt8.ofNat (28 + s.speed / 10 + if s.speedRaised then 80 else 0)

/-- The units of the speed and the hundreds of the course. -/
def sharedOctet : UInt8 :=
  UInt8.ofNat (28 + 10 * (s.speed % 10) + s.course / 100 + if s.courseRaised then 4 else 0)

/-- The rest of the course. -/
def courseOctet : UInt8 := UInt8.ofNat (28 + s.course % 100)

/-- The information behind its identifier. -/
def information : Bytes :=
  [degreesOctet s.longitude.degrees, minutesOctet (s.longitude.hundredths / 100),
    UInt8.ofNat (28 + s.longitude.hundredths % 100), s.speedOctet, s.sharedOctet, s.courseOctet, s.code,
    s.table]

/-! ## The status -/

/-- The bits of the status. -/
def bits : List StatusBit := [s.firstBit, s.secondBit, s.thirdBit]

/-- The number that bits write, set either way. -/
def number (bits : List StatusBit) : Nat :=
  bits.foldl (fun n bit => 2 * n + if bit = .zero then 0 else 1) 0

/-- The statuses that standard bits tell, by their number. -/
def standardStatuses : List MicEStatus :=
  [.emergency, .priority, .special, .committed, .returning, .inService, .enRoute, .offDuty]

/-- The status that the bits tell. Custom ones are counted from the greatest number down, and bits of
both kinds tell none. -/
def status : MicEStatus :=
  if .standard ∈ s.bits ∧ .custom ∈ s.bits then .unknown
  else if .custom ∈ s.bits then .custom (7 - number s.bits)
  else standardStatuses.getD (number s.bits) .unknown

end Sending

end Aprs.MicE
