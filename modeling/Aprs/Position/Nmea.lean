import Aprs.Cut
import Aprs.Position.Report

/-!
# Sentences of a receiver

A tracker may send what its satellite receiver says: a sentence of fields between commas, with a
checksum behind an asterisk. Three kinds of sentence give a position.

Specification: 4.3 (Position Decoder) and 12.2 (Position rendering and geometry).
-/

namespace Aprs.Nmea

open Position (NmeaFault)

/-- The length of the shortest sentence that is looked at. -/
def minLength : Nat := 11

/-- The fields of a sentence, without its checksum. -/
def fields (sentence : Text) : List Text :=
  let line := dropTrailing (fun c => c = '\r' || c = '\n') sentence
  let body :=
    match cutFirst '*' line with
    | some (body, _) => body
    | none => line
  pieces ',' body

/-- The field at a place. -/
def field (fields : List Text) (place : Nat) : Except NmeaFault Text :=
  match fields[place]? with
  | some t => .ok t
  | none => .error .missingField

variable {α : Type} [Scalar α]

/-- The number in a field, if there is one. -/
def number? (fields : List Text) (place : Nat) : Option α :=
  (fields[place]?.bind Numeral.parse?).map Scalar.ofNumeral

/-- A coordinate as degrees and minutes in one number, and the letter of its hemisphere. -/
def coordinate (value hemisphere : Text) : Except NmeaFault α :=
  match Numeral.parse? value with
  | none => .error (.number value)
  | some numeral =>
    let raw : α := Scalar.ofNumeral numeral
    let degrees := Scalar.truncate (raw / Scalar.ofNat 100)
    let minutes := raw - degrees * Scalar.ofNat 100
    if Scalar.le (Scalar.ofNat 0) minutes && Scalar.lt minutes (Scalar.ofNat 60) then
      let size := degrees + minutes / Scalar.ofNat 60
      if hemisphere = ['N'] ∧ Scalar.le size (Scalar.ofNat 90) then .ok size
      else if hemisphere = ['S'] ∧ Scalar.le size (Scalar.ofNat 90) then .ok (-size)
      else if hemisphere = ['E'] ∧ Scalar.le size (Scalar.ofNat 180) then .ok size
      else if hemisphere = ['W'] ∧ Scalar.le size (Scalar.ofNat 180) then .ok (-size)
      else .error .hemisphere
    else .error (.number value)

/-- A coordinate in the fields from a place on. -/
def coordinateAt (fields : List Text) (place : Nat) : Except NmeaFault (Text × Text) := do
  let value ← field fields place
  let hemisphere ← field fields (place + 1)
  return (value, hemisphere)

/-- What a sentence gives. -/
structure Fix (α : Type) where
  latitude : α
  longitude : α
  extension : Option Extension
  altitude : Option α

/-- The latitude in the fields from a place on and the longitude behind it. -/
def place (fields : List Text) (start : Nat) : Except NmeaFault (α × α) := do
  let (value, hemisphere) ← coordinateAt fields start
  let latitude ← coordinate value hemisphere
  let (value, hemisphere) ← coordinateAt fields (start + 2)
  let longitude ← coordinate value hemisphere
  return (latitude, longitude)

/-- The course and speed in two fields, the speed first, if both are numbers. -/
def courseSpeed? (α : Type) [Scalar α] (fields : List Text) (start : Nat) : Option Extension :=
  match (number? fields start : Option α), (number? fields (start + 1) : Option α) with
  | some speed, some course =>
    some (.courseSpeed (Scalar.rounded16 course) (Scalar.rounded16 speed))
  | _, _ => none

/-- The recommended minimum: a status, the position, the speed and the course. -/
def recommendedMinimum (fields : List Text) : Except NmeaFault (Fix α) := do
  if (← field fields 2) ≠ ['A'] then throw .fixNotValid
  let (latitude, longitude) ← place fields 3
  return ⟨latitude, longitude, courseSpeed? α fields 7, none⟩

/-- The fix data: the position, its quality and the altitude in metres. -/
def fixData (fields : List Text) : Except NmeaFault (Fix α) := do
  if (← field fields 6) = ['0'] then throw .fixNotValid
  let (latitude, longitude) ← place fields 2
  return ⟨latitude, longitude, none, (number? fields 9).map Position.feetOfMeters⟩

/-- The geographic position: the position, and a status that may be left out. -/
def geographicPosition (fields : List Text) : Except NmeaFault (Fix α) := do
  if fields[6]?.any (· ≠ ['A']) then throw .fixNotValid
  let (latitude, longitude) ← place fields 1
  return ⟨latitude, longitude, none, none⟩

/-- The fix in a sentence. The kind of sentence stands behind three octets of the first field. -/
def fix (payload : Bytes) : Except NmeaFault (Fix α) := do
  match Utf8.decode? payload with
  | none => throw .notText
  | some sentence =>
    let fields := fields sentence
    match Utf8.splitAt? 3 (fields.headD []) with
    | none => throw .missingType
    | some (_, kind) =>
      if kind = "RMC".toList then recommendedMinimum fields
      else if kind = "GGA".toList then fixData fields
      else if kind = "GLL".toList then geographicPosition fields
      else throw .unsupported

/-- The report in a sentence, all of which is taken. -/
def decode (payload : Bytes) (instant : Instant) : PositionReport α × Nat :=
  if payload.length < minLength then PositionReport.failed 1 .nmea instant .nmeaTooShort
  else
    match fix payload with
    | .error cause => PositionReport.failed 1 .nmea instant (.nmea cause)
    | .ok f =>
      let position : Position α := Position.make f.latitude f.longitude 0 '\\' '.' instant
      let report := PositionReport.plain { position with altitude := f.altitude } .nmea
      ({ report with extension := f.extension }, payload.length)

end Aprs.Nmea
