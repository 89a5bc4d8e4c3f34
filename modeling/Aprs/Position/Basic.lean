import Aprs.Base91
import Aprs.Calendar
import Aprs.Position.Angle
import Aprs.Text.Utf8

/-!
# Positions

A position is a latitude and a longitude in degrees, kept to five places, with what a map needs to
draw it: how exactly the station told its place, a symbol, and the instant at which the report was
made. It is written in degrees and minutes, or in base-91 digits.

Specification: 3 (Data Model) and 12.2 (Position rendering and geometry).
-/

namespace Aprs

/-- A position, its coordinates and altitude in an arithmetic `α`. The altitude is in feet. -/
structure Position (α : Type) where
  latitude : α
  longitude : α
  altitude : Option α
  ambiguity : Nat
  table : Char
  code : Char
  instant : Instant

namespace Position

variable {α : Type} [Scalar α]

/-- A value rounded to five places. -/
def roundPlaces (x : α) : α := Scalar.round (x * Scalar.ofNat 100000) / Scalar.ofNat 100000

/-- A position at the given degrees, rounded, with an ambiguity no greater than the greatest. -/
def make (latitude longitude : α) (ambiguity : Nat) (table code : Char) (instant : Instant) :
    Position α :=
  { latitude := roundPlaces latitude
    longitude := roundPlaces longitude
    altitude := none
    ambiguity := min ambiguity Angle.maxAmbiguity
    table := table
    code := code
    instant := instant }

/-- Stands for a position that could not be read. -/
def unknown (instant : Instant) : Position α :=
  make (Scalar.ofNat 0) (Scalar.ofNat 0) 0 '\\' '.' instant

/-! ## Degrees and minutes -/

/-- The magnitude of a coordinate in hundredths of minutes. -/
def hundredths (x : α) : Nat :=
  Scalar.rounded32 (Scalar.magnitude x * Scalar.ofNat Angle.perDegree)

/-- The places of the four digits of the minutes, from the last to the first. -/
def minutePlaces (axis : Axis) : List Nat :=
  [axis.degreeDigits + 4, axis.degreeDigits + 3, axis.degreeDigits + 1, axis.degreeDigits]

/-- The text with blanks for the last digits of the minutes. -/
def blankMinutes (axis : Axis) (ambiguity : Nat) (t : Text) : Text :=
  ((minutePlaces axis).take ambiguity).foldl (fun t place => t.set place ' ') t

/-- A coordinate in degrees and minutes. -/
def angleText (axis : Axis) (hundredths : Nat) (negative : Bool) : Text :=
  Decimal.padded axis.degreeDigits (hundredths / Angle.perDegree)
    ++ Decimal.padded 2 (hundredths % Angle.perDegree / 100)
    ++ '.' :: Decimal.padded 2 (hundredths % 100) ++ [axis.letter negative]

/-- A coordinate of a position in degrees and minutes. -/
def coordinateText (axis : Axis) (ambiguity : Nat) (x : α) : Text :=
  blankMinutes axis ambiguity (angleText axis (hundredths x) (Scalar.isNegative x))

/-- The latitude as `DDMM.mmN`. -/
def latitudeText (p : Position α) : Text := coordinateText .latitude p.ambiguity p.latitude

/-- The longitude as `DDDMM.mmW`. -/
def longitudeText (p : Position α) : Text := coordinateText .longitude p.ambiguity p.longitude

/-- The position with its symbol, as a station sends it. -/
def text (p : Position α) : Text :=
  p.latitudeText ++ p.table :: p.longitudeText ++ [p.code]

/-! ## Base-91 digits -/

/-- The character of a symbol table in the compressed form, in which an overlay digit is a letter,
so that the form is told from the uncompressed one. -/
def compressedTable (table : Char) : Char :=
  if table.isDigit then Char.ofNat (table.toNat + 0x31) else table

/-- Units of the compressed form in a degree of latitude. -/
def latitudeUnits : Nat := 380926

/-- Units of the compressed form in a degree of longitude. -/
def longitudeUnits : Nat := 190463

/-- The latitude as a distance from the north pole in compressed units. -/
def compressedLatitude (x : α) : Nat :=
  Scalar.rounded32 (Scalar.ofNat latitudeUnits * (Scalar.ofNat 90 - x))

/-- The longitude as a distance from the date line in compressed units. -/
def compressedLongitude (x : α) : Nat :=
  Scalar.rounded32 (Scalar.ofNat longitudeUnits * (Scalar.ofNat 180 + x))

/-- A number in four base-91 digits. -/
def compressedText (n : Nat) : Text := (Base91.encode 4 n).map charOfByte

/-- What stands for a course and speed that are not three octets: none, and an unknown type. -/
def noCourse : Text := " sT".toList

/-- The position in the compressed form, with its course, speed and type. -/
def compressed (p : Position α) (courseSpeedType : Text) : Text :=
  compressedTable p.table :: compressedText (compressedLatitude p.latitude)
    ++ compressedText (compressedLongitude p.longitude)
    ++ p.code :: if Utf8.size courseSpeedType = 3 then courseSpeedType else noCourse

/-! ## Altitudes and distances -/

/-- Metres in feet. -/
def feetOfMeters (meters : α) : α := meters * Scalar.decimal 32808399 7

/-- The radius of the earth in miles. -/
def earthRadius : Float := 3958.75

/-- Degrees in radians. -/
def radians (degrees : Float) : Float := degrees * (3.14159265358979323846 / 180.0)

/-- The distance between two positions along a great circle, in statute miles. -/
def distance (a b : Position Float) : Float :=
  let square (x : Float) : Float := x * x
  let phi := radians a.latitude
  let phi' := radians b.latitude
  let dPhi := phi' - phi
  let dLambda := radians (b.longitude - a.longitude)
  let h := square (Float.sin (dPhi / 2.0))
    + Float.cos phi * Float.cos phi' * square (Float.sin (dLambda / 2.0))
  2.0 * earthRadius * Float.atan2 (Float.sqrt h) (Float.sqrt (1.0 - h))

end Position

end Aprs
