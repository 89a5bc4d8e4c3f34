import Aprs.Position.Report

/-!
# Uncompressed positions

Nineteen characters: the latitude as `DDMM.mmN`, the symbol table, the longitude as `DDDMM.mmW`, and
the symbol code. Digits of the minutes may be blank from the last one on; how many of the latitude
are blank is the ambiguity, and as many digits of the longitude are disregarded.

Specification: 4.3 (Position Decoder).
-/

namespace Aprs.Uncompressed

open Position (UncompressedFault)

/-- The width of a position. -/
def width : Nat := 19

/-- The four digits of the minutes with zeros for the blanks behind them, and how many blanks there
are. A blank before a digit is a gap. -/
def unblank (field : Bytes) : Except UncompressedFault (Bytes × Nat) :=
  let blanks := (field.reverse.takeWhile (· = 0x20)).length
  let kept := field.take (field.length - blanks)
  if kept.contains 0x20 then .error .gap else .ok (kept ++ List.replicate blanks 0x30, blanks)

/-- The number in a field of digits. -/
def number (field : Bytes) : Except UncompressedFault Nat :=
  match Decimal.field? field with
  | some n => .ok n
  | none => .error (.number (.invalidNumber (Utf8.lossy field)))

/-- The angle that a field writes along an axis, and how many digits of the minutes are blank.
Before the angle is held against its limits, the last digits of the minutes are disregarded as far
as `disregarded` says. -/
def angle (axis : Axis) (disregarded : Nat) (field : Bytes) :
    Except UncompressedFault (Angle × Nat) := do
  let degrees := field.take axis.degreeDigits
  match field.drop axis.degreeDigits with
  | [a, b, point, c, d, letter] =>
    if point ≠ 0x2E then throw (.missingPoint axis)
    let (minutes, blanks) ← unblank [a, b, c, d]
    let degrees ← number degrees
    let minutes := Angle.truncate disregarded (← number minutes)
    if axis.limit < degrees ∨ Angle.perDegree ≤ minutes ∨
        axis.limit * Angle.perDegree < degrees * Angle.perDegree + minutes then
      throw (.outOfRange axis)
    match axis.negative? letter with
    | some negative => return (⟨degrees, minutes, negative⟩, blanks)
    | none => throw (.hemisphere axis)
  | _ => throw (.missingPoint axis)

/-- The value of an angle that was read, zero if it was not. -/
def valueOrZero {α : Type} [Scalar α] : Except UncompressedFault (Angle × Nat) → α
  | .ok (a, _) => a.value
  | .error _ => Scalar.ofNat 0

/-- The ambiguity of a latitude that was read, zero if it was not. -/
def ambiguityOrZero : Except UncompressedFault (Angle × Nat) → Nat
  | .ok (_, blanks) => blanks
  | .error _ => 0

/-- The fault of the latitude, or else of the longitude. -/
def fault? (latitude longitude : Except UncompressedFault (Angle × Nat)) :
    Option UncompressedFault :=
  match latitude, longitude with
  | .error e, _ => some e
  | _, .error e => some e
  | _, _ => none

/-- The position at `start` with the extension and the altitude behind it, and the place behind
what was read. A coordinate that can be read is kept even if the other one cannot. -/
def decode {α : Type} [Scalar α] (payload : Bytes) (start : Nat) (instant : Instant) :
    PositionReport α × Nat :=
  let field := (payload.drop start).take width
  if field.length < width then
    PositionReport.failed start .uncompressed instant .tooShort
  else
    let symbol := field.getD 18 0
    let latitude := angle .latitude 0 (field.take 8)
    let ambiguity := ambiguityOrZero latitude
    let longitude := angle .longitude ambiguity ((field.drop 9).take 9)
    let position : Position α :=
      Position.make (valueOrZero latitude) (valueOrZero longitude) ambiguity
        (charOfByte (field.getD 8 0)) (charOfByte symbol) instant
    match fault? latitude longitude with
    | some cause => (PositionReport.faulted position .uncompressed (.uncompressed cause), start)
    | none =>
      let extension := Extension.ofUncompressed? payload (start + width) symbol
      let cursor := start + width + if extension.isSome then Extension.width else 0
      let altitude :=
        if symbol = Extension.weatherSymbol then none
        else Altitude.ofComment? (payload.drop cursor)
      let report := PositionReport.plain { position with altitude } .uncompressed
      ({ report with extension }, cursor)

end Aprs.Uncompressed
