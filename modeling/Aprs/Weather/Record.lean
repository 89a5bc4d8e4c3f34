import Aprs.Weather.Report

/-!
# Weather records

A report as it is handed on. Whole readings lie in words that are as wide as they need to be, and amounts
of rain and snow and the pressure are scalars in the units in which people use them. What is matched for a
field is read as an integer of 32 bits and then converted, and a conversion to a narrower word keeps the
lowest bits, whatever the others say.

A record is read as a report is (`Aprs.Weather.Report`): the same patterns are tried on the same octets, and
what has been found so far is kept in words at every step.

Specification: 3 (Data Model) and 4.5 (Weather Decoder).
-/

namespace Aprs.Weather

/-- The readings of a station in words and scalars, each of which may be missing. -/
structure Record (α : Type) where
  /-- Degrees. -/
  windDirection : Option UInt16
  /-- Miles an hour, over the last minute. -/
  windSpeed : Option UInt16
  /-- Miles an hour, at the peak of the last five minutes. -/
  windGust : Option UInt16
  /-- Degrees Fahrenheit. -/
  temperature : Option Int16
  /-- Inches. -/
  rainLastHour : Option α
  /-- Inches. -/
  rainLastDay : Option α
  /-- Inches. -/
  rainSinceMidnight : Option α
  /-- Percent. -/
  humidity : Option UInt8
  /-- Millibars. -/
  pressure : Option α
  /-- Watts a square metre. -/
  luminosity : Option UInt16
  /-- Inches in the last day. -/
  snowfall : Option α
  rainCounter : Option UInt32
  fault : Option Fault

namespace Record

variable {α : Type} [Scalar α]

/-- A record without any reading. -/
def empty : Record α :=
  ⟨none, none, none, none, none, none, none, none, none, none, none, none, none⟩

/-! ## Conversions -/

/-- The integer that a text writes, if it is one of 32 bits. -/
def number? (written : Text) : Option Int32 :=
  (Decimal.integer? written).bind fun n =>
    if -0x80000000 ≤ n ∧ n ≤ 0x7FFFFFFF then some (Int32.ofInt n) else none

/-- The lowest eight bits of an integer. -/
def word8 (v : Int32) : UInt8 := v.toUInt32.toUInt8

/-- The lowest sixteen bits of an integer. -/
def word16 (v : Int32) : UInt16 := v.toUInt32.toUInt16

/-- An integer as a scalar. -/
def scalar (v : Int32) : α :=
  let size := Scalar.ofNat v.toInt.natAbs
  if v < 0 then -size else size

/-- The hundredth part of an integer. -/
def hundredth (v : Int32) : α := scalar v / Scalar.ofNat 100

/-- The tenth part of an integer. -/
def tenth (v : Int32) : α := scalar v / Scalar.ofNat 10

/-! ## Fields -/

/-- Whether an `s` is the wind speed: the direction came as a field, and no speed is held. -/
def speedExpected (w : Record α) (directionAsField : Bool) : Bool :=
  directionAsField && w.windSpeed.isNone

/-- The record with the reading that was written for a field, or without one if what was written is no
number. A humidity of zero stands for a hundred. -/
def set (w : Record α) (directionAsField : Bool) (f : Field) (written : Text) : Record α :=
  let number := number? written
  match f with
  | .windDirection => { w with windDirection := number.map word16 }
  | .windSpeedOrSnowfall =>
    if w.speedExpected directionAsField then { w with windSpeed := number.map word16 }
    else { w with snowfall := number.map scalar }
  | .windGust => { w with windGust := number.map word16 }
  | .temperature => { w with temperature := number.map Int32.toInt16 }
  | .rainLastHour => { w with rainLastHour := number.map hundredth }
  | .rainLastDay => { w with rainLastDay := number.map hundredth }
  | .rainSinceMidnight => { w with rainSinceMidnight := number.map hundredth }
  | .humidity => { w with humidity := number.map fun v => if v = 0 then 100 else word8 v }
  | .pressure => { w with pressure := number.map tenth }
  | .luminosityLow => { w with luminosity := number.map fun v => word16 (max v 0) }
  | .luminosityHigh => { w with luminosity := number.map fun v => word16 (max v 0 + 1000) }
  | .rainCounter => { w with rainCounter := number.map Int32.toUInt32 }

/-- Whether the reading that a field would give is held. -/
def holds (w : Record α) (directionAsField : Bool) : Field → Bool
  | .windDirection => w.windDirection.isSome
  | .windSpeedOrSnowfall => !w.speedExpected directionAsField && w.snowfall.isSome
  | .windGust => w.windGust.isSome
  | .temperature => w.temperature.isSome
  | .rainLastHour => w.rainLastHour.isSome
  | .rainLastDay => w.rainLastDay.isSome
  | .rainSinceMidnight => w.rainSinceMidnight.isSome
  | .humidity => w.humidity.isSome
  | .pressure => w.pressure.isSome
  | .luminosityLow | .luminosityHigh => w.luminosity.isSome
  | .rainCounter => w.rainCounter.isSome

/-! ## The whole record -/

/-- The record with the fields of a block. Its speed follows a direction. -/
def applyBlock (w : Record α) (fields : List (Field × Text)) : Record α :=
  fields.foldl (fun w (f, written) => w.set true f written) w

/-- The record so far, and whether the direction of the wind came as a field. -/
structure Progress (α : Type) where
  record : Record α
  directionAsField : Bool

/-- What a token makes of the record. -/
def Progress.apply (p : Progress α) : Token → Progress α
  | .wind direction speed =>
    let record := p.record.set false .windDirection direction
    { p with record := { record with windSpeed := (number? speed).map word16 } }
  | .field f written =>
    let directionAsField := p.directionAsField || f == .windDirection
    ⟨p.record.set directionAsField f written, directionAsField⟩

/-- The record with the field from what follows if it lacks it, and whether one was found. -/
def seek (directionAsField : Bool) (rest : Bytes) (w : Record α) (f : Field) : Record α × Bool :=
  if w.holds directionAsField f then (w, false)
  else
    match find? f rest with
    | some written => (w.set directionAsField f written, true)
    | none => (w, false)

/-- The record with the given fields from what follows as far as it lacks them, and whether one was found
now or before. -/
def seekFields (directionAsField : Bool) (rest : Bytes) (fields : List Field)
    (state : Record α × Bool) : Record α × Bool :=
  fields.foldl (fun (w, found) f =>
    let (w, foundNow) := seek directionAsField rest w f
    (w, found || foundNow)) state

/-- The record in `bytes` when a block has given `held` and left `rest` of them, and the octets behind what
was read in order. A record in which nothing was found has a fault. -/
def readFrom (bytes : Bytes) (held : Record α) (rest : Bytes) : Record α × Bytes :=
  let (row, rest) := tokens rest
  let progress := row.foldl Progress.apply ⟨held, false⟩
  let (record, found) := seekFields progress.directionAsField rest sought (progress.record, false)
  if rest.length = bytes.length ∧ found = false then
    ({ record with fault := some .nothingFound }, rest)
  else (record, rest)

/-- The record that octets begin with, and the octets behind what was read in order. -/
def read (bytes : Bytes) : Record α × Bytes :=
  match block? bytes with
  | some (fields, rest) => readFrom bytes (empty.applyBlock fields) rest
  | none => readFrom bytes empty bytes

/-- The weather record at `start`, and the place behind what was read in order. -/
def decode (payload : Bytes) (start : Nat) : Record α × Nat :=
  let (record, rest) := read (payload.drop start)
  (record, payload.length - rest.length)

end Record

end Aprs.Weather
