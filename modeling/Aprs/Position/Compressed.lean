import Aprs.Position.Report

/-!
# Compressed positions

Thirteen characters: the symbol table, the latitude and the longitude in four base-91 digits each,
the symbol code, and two digits with a type for the course and speed, the range or the altitude. An
overlay digit stands as a letter in the place of the table.

Specification: 4.3 (Position Decoder) and 12.2 (Position rendering and geometry).
-/

namespace Aprs.Compressed

/-- The width of a position. -/
def width : Nat := 13

/-- The symbol table that a character stands for. -/
def table (b : UInt8) : Char :=
  if 0x61 ≤ b.toNat ∧ b.toNat ≤ 0x6A then Char.ofNat (b.toNat - 0x31) else charOfByte b

variable {α : Type} [Scalar α]

/-- The latitude that lies a distance from the north pole. -/
def latitude (n : Nat) : α :=
  Scalar.ofNat 90 - Scalar.ofNat n / Scalar.ofNat Position.latitudeUnits

/-- The longitude that lies a distance from the date line. -/
def longitude (n : Nat) : α :=
  -Scalar.ofNat 180 + Scalar.ofNat n / Scalar.ofNat Position.longitudeUnits

/-- Whether a coordinate lies within its limits. -/
def inRange (axis : Axis) (x : α) : Bool :=
  Scalar.le (-Scalar.ofNat axis.limit) x && Scalar.le x (Scalar.ofNat axis.limit)

/-- The two numbers in eight base-91 digits. -/
def distances (field : Bytes) : Except Base91.Error (Nat × Nat) := do
  let latitude ← Base91.decode (field.take 4)
  let longitude ← Base91.decode (field.drop 4)
  return (latitude, longitude)

/-- The altitude in feet that the digits `c` and `s` carry if the type says so. -/
def altitude? (c s t : UInt8) : Option α :=
  if c = 0x20 ∨ Extension.isAltitudeType t = false then none
  else
    match Base91.decode [c, s] with
    | .ok n => some (Scalar.power (Scalar.decimal 1002 3) n)
    | .error _ => none

/-- The position at `start`, and the place behind what was read. An altitude in the position goes
before one in the comment. -/
def decode (payload : Bytes) (start : Nat) (instant : Instant) : PositionReport α × Nat :=
  let field := (payload.drop start).take width
  if field.length < width then
    PositionReport.failed start .compressed instant .tooShort
  else
    let symbol := field.getD 9 0
    let c := field.getD 10 0
    let s := field.getD 11 0
    let t := field.getD 12 0
    match distances ((field.drop 1).take 8) with
    | .error cause => PositionReport.failed start .compressed instant (.compressedDigits cause)
    | .ok (north, east) =>
      let lat : α := latitude north
      let lon : α := longitude east
      if inRange .latitude lat && inRange .longitude lon then
        let cursor := start + width
        let altitude :=
          match altitude? c s t with
          | some feet => some feet
          | none =>
            if symbol = Extension.weatherSymbol then none
            else Altitude.ofComment? (payload.drop cursor)
        let position :=
          Position.make lat lon 0 (table (field.getD 0 0)) (charOfByte symbol) instant
        let report := PositionReport.plain { position with altitude } .compressed
        ({ report with extension := Extension.ofCompressed? α c s t symbol }, cursor)
      else PositionReport.failed start .compressed instant .compressedOutOfRange

end Aprs.Compressed
