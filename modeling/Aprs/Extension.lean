import Aprs.Base91
import Aprs.Scalar

/-!
# Data extensions

A position may be followed by a short field with the course and speed of the station, its
transmitter and antenna, its range, or the strength at which it hears another. The three encodings
of a position carry the field in three ways: seven characters, two base-91 digits with a type, or
three offset octets.

Specification: 4.4 (Data Extension Decoder) and 12.3 (Data extensions).
-/

namespace Aprs

/-- A transmitter and its antenna, each value an index into a fixed table. -/
structure Phg where
  power : Nat
  height : Nat
  gain : Nat
  directivity : Nat
  deriving DecidableEq, Repr

/-- The strength of a signal and the antenna that hears it. -/
structure DfStrength where
  strength : Nat
  height : Nat
  gain : Nat
  directivity : Nat
  deriving DecidableEq, Repr

/-- What the field behind a position says. -/
inductive Extension
  /-- Degrees and knots. -/
  | courseSpeed (course speed : Nat)
  | phg (antenna : Phg)
  /-- Miles. -/
  | range (miles : Nat)
  | dfStrength (signal : DfStrength)
  deriving DecidableEq, Repr

namespace Extension

/-! ## Tables -/

/-- Watts by power code. -/
def powerWatts : List Nat := [0, 1, 4, 9, 16, 25, 36, 49, 64, 81]

/-- Feet above average terrain by height code. -/
def heightFeet : List Nat := [10, 20, 40, 80, 160, 320, 640, 1280, 2560, 5120]

/-- Degrees by directivity code; zero means all directions. -/
def directivityDegrees : List Nat := [0, 45, 90, 135, 180, 225, 270, 315, 360, 0]

/-- The entry of a table, zero for a code beyond it. -/
def entry (table : List Nat) (code : Nat) : Nat := table.getD code 0

end Extension

namespace Phg

/-- The power in watts. -/
def watts (p : Phg) : Nat := Extension.entry Extension.powerWatts p.power

/-- The height of the antenna in feet. -/
def feet (p : Phg) : Nat := Extension.entry Extension.heightFeet p.height

/-- The direction of the antenna in degrees. -/
def degrees (p : Phg) : Nat := Extension.entry Extension.directivityDegrees p.directivity

end Phg

namespace DfStrength

/-- The height of the antenna in feet. -/
def feet (d : DfStrength) : Nat := Extension.entry Extension.heightFeet d.height

/-- The direction of the antenna in degrees. -/
def degrees (d : DfStrength) : Nat := Extension.entry Extension.directivityDegrees d.directivity

end DfStrength

namespace Extension

/-- The words in which an antenna is described. -/
def antennaText (feet gain degrees : Nat) : Text :=
  " at ".toList ++ Decimal.digits feet ++ " ft HAAT with ".toList ++ Decimal.digits gain
    ++ " dBi gain directed at ".toList ++ Decimal.digits degrees ++ " degrees".toList

/-- The extension in words. -/
def text : Extension → Text
  | .courseSpeed course speed =>
    "Moving ".toList ++ Decimal.digits speed ++ " kts @ ".toList ++ Decimal.digits course
      ++ " deg".toList
  | .phg p =>
    Decimal.digits p.watts ++ " watts".toList ++ antennaText p.feet p.gain p.degrees
  | .range miles => "Range ".toList ++ Decimal.digits miles ++ " miles".toList
  | .dfStrength d =>
    "DF S".toList ++ Decimal.digits d.strength ++ antennaText d.feet d.gain d.degrees

/-! ## Seven characters -/

/-- The width of the field. -/
def width : Nat := 7

/-- The symbol code of a weather station, whose position has no extension. -/
def weatherSymbol : UInt8 := 0x5F

/-- The value of a one-digit code, zero for anything but a digit. -/
def code (b : UInt8) : Nat := (Decimal.digit? b).getD 0

/-- The value of a number, zero for anything but digits. -/
def slot (field : Bytes) : Nat := (Decimal.field? field).getD 0

/-- The extension that seven characters write: three letters and four codes or digits, or two
numbers of three digits with a slash between them. -/
def ofField? : Bytes → Option Extension
  | [a, b, c, d, e, f, g] =>
    if [a, b, c] = [0x50, 0x48, 0x47] then some (.phg ⟨code d, code e, code f, code g⟩)
    else if [a, b, c] = [0x52, 0x4E, 0x47] then some (.range (slot [d, e, f, g]))
    else if [a, b, c] = [0x44, 0x46, 0x53] then
      some (.dfStrength ⟨code d, code e, code f, code g⟩)
    else if d = 0x2F then some (.courseSpeed (slot [a, b, c]) (slot [e, f, g]))
    else none
  | _ => none

/-- The extension at a place behind an uncompressed position with the given symbol code. -/
def ofUncompressed? (payload : Bytes) (start : Nat) (symbol : UInt8) : Option Extension :=
  if symbol = weatherSymbol then none else ofField? ((payload.drop start).take width)

/-- An extension stands in as many octets of the payload as it is wide. -/
theorem room_of_ofUncompressed? {payload : Bytes} {start : Nat} {symbol : UInt8}
    (h : (ofUncompressed? payload start symbol).isSome) : start + width ≤ payload.length := by
  have hwidth : width = 7 := rfl
  unfold ofUncompressed? ofField? at h
  split at h
  · simp at h
  split at h
  · next hfield =>
    have hlength := congrArg List.length hfield
    rw [List.length_take, List.length_drop] at hlength
    simp only [List.length_cons, List.length_nil] at hlength
    omega
  · simp at h

/-! ## Two digits and a type -/

/-- Whether the type of a compressed position tells that its two digits carry the altitude. -/
def isAltitudeType (t : UInt8) : Bool :=
  Base91.zero ≤ t.toNat && (t.toNat - Base91.zero) / 8 % 4 == 2

/-- The extension in the digits `c` and `s` of a compressed position with type `t`. The arithmetic
in which the powers are computed is a parameter. -/
def ofCompressed? (α : Type) [Scalar α] (c s t symbol : UInt8) : Option Extension :=
  if symbol = weatherSymbol ∨ c = 0x20 ∨ isAltitudeType t ∨ s.toNat < Base91.zero then none
  else
    let growth : α := Scalar.power (Scalar.decimal 108 2) (s.toNat - Base91.zero)
    if c = 0x7B then some (.range (Scalar.rounded16 (Scalar.ofNat 2 * growth)))
    else if Base91.zero ≤ c.toNat ∧ c.toNat - Base91.zero < 90 then
      some (.courseSpeed ((c.toNat - Base91.zero) * 4)
        (Scalar.rounded16 (growth - Scalar.ofNat 1)))
    else none

/-! ## Three offset octets -/

/-- What is added to each value so that its octet is printable. -/
def micEOffset : Nat := 28

/-- The extension in three octets that share the speed and the course between them. Either may have
been sent with a multiple added to it. -/
def ofMicE? (sp dc se : UInt8) : Option Extension :=
  if sp.toNat < micEOffset ∨ dc.toNat < micEOffset ∨ se.toNat < micEOffset then none
  else
    let sp := sp.toNat - micEOffset
    let dc := dc.toNat - micEOffset
    let se := se.toNat - micEOffset
    let speed := sp * 10 + dc / 10
    let course := dc % 10 * 100 + se
    some (.courseSpeed (if 400 ≤ course then course - 400 else course)
      (if 800 ≤ speed then speed - 800 else speed))

end Extension

end Aprs
