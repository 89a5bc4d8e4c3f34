import Aprs.Decimal.Digits
import Aprs.Scalar
import Aprs.Weather.Token

/-!
# Weather reports

A report is read in three passes. A complete block in the usual order is read as a whole. Then come
tokens in any order, a later one of a field going before an earlier one. At the first octets that
are no token the reading stops, and fields that are still missing are looked for in what follows,
which stays in the comment.

Readings are kept in the units in which they are sent, so every one of them is a whole number.

Specification: 4.5 (Weather Decoder) and 12.5 (Weather).
-/

namespace Aprs

namespace Weather

/-- What is wrong with a weather report. -/
inductive Fault
  | nothingFound
  deriving DecidableEq, Repr

/-- The wording of a fault. -/
def Fault.reason : Fault → Text
  | .nothingFound => "no weather fields found".toList

end Weather

/-- The readings of a station, each of which may be missing. -/
structure Weather where
  /-- Degrees. -/
  windDirection : Option Nat
  /-- Miles an hour, over the last minute. -/
  windSpeed : Option Nat
  /-- Miles an hour, at the peak of the last five minutes. -/
  windGust : Option Nat
  /-- Degrees Fahrenheit. -/
  temperature : Option Int
  /-- Hundredths of an inch. -/
  rainLastHour : Option Nat
  /-- Hundredths of an inch. -/
  rainLastDay : Option Nat
  /-- Hundredths of an inch. -/
  rainSinceMidnight : Option Nat
  /-- Percent. -/
  humidity : Option Nat
  /-- Tenths of a millibar. -/
  pressure : Option Nat
  /-- Watts a square metre. -/
  luminosity : Option Nat
  /-- Inches in the last day. -/
  snowfall : Option Nat
  rainCounter : Option Nat
  fault : Option Weather.Fault
  deriving DecidableEq, Repr

namespace Weather

/-- A report without any reading. -/
def empty : Weather :=
  ⟨none, none, none, none, none, none, none, none, none, none, none, none, none⟩

/-- An amount of rain in inches. -/
def inches {α : Type} [Scalar α] (hundredths : Nat) : α :=
  Scalar.ofNat hundredths / Scalar.ofNat 100

/-- A pressure in millibars. -/
def millibars {α : Type} [Scalar α] (tenths : Nat) : α := Scalar.ofNat tenths / Scalar.ofNat 10

/-! ## Fields -/

/-- Whether an `s` is the wind speed: the direction came as a field, and no speed is held. -/
def speedExpected (w : Weather) (directionAsField : Bool) : Bool :=
  directionAsField && w.windSpeed.isNone

/-- The report with the reading that was written for a field, or without one if what was written is
no number. A humidity of zero stands for a hundred. -/
def set (w : Weather) (directionAsField : Bool) (f : Field) (written : Text) : Weather :=
  let number := Decimal.integer? written
  let count := number.map Int.toNat
  match f with
  | .windDirection => { w with windDirection := count }
  | .windSpeedOrSnowfall =>
    if w.speedExpected directionAsField then { w with windSpeed := count }
    else { w with snowfall := count }
  | .windGust => { w with windGust := count }
  | .temperature => { w with temperature := number }
  | .rainLastHour => { w with rainLastHour := count }
  | .rainLastDay => { w with rainLastDay := count }
  | .rainSinceMidnight => { w with rainSinceMidnight := count }
  | .humidity => { w with humidity := count.map fun n => if n = 0 then 100 else n }
  | .pressure => { w with pressure := count }
  | .luminosityLow => { w with luminosity := count }
  | .luminosityHigh => { w with luminosity := count.map (· + 1000) }
  | .rainCounter => { w with rainCounter := count }

/-- Whether the reading that a field would give is held. -/
def holds (w : Weather) (directionAsField : Bool) : Field → Bool
  | .windDirection => w.windDirection.isSome
  | .windSpeedOrSnowfall => !w.speedExpected directionAsField && w.snowfall.isSome
  | .windGust => w.windGust.isSome
  | .temperature => w.temperature.isSome
  | .rainLastHour => w.rainLastHour.isSome
  | .rainLastDay => w.rainLastDay.isSome
  | .rainSinceMidnight => w.rainSinceMidnight.isSome
  | .humidity => w.humidity.isSome
  | .pressure => w.pressure.isSome
  | .luminosityLow | .luminosityHigh => w.luminosity.isSome
  | .rainCounter => w.rainCounter.isSome

/-! ## The complete block -/

/-- The octets behind a given one. -/
def literal? (c : Char) : Bytes → Option Bytes
  | [] => none
  | b :: rest => if charOfByte b = c then some rest else none

/-- The fields of a complete block at the start of octets, and the octets behind it. Any three
characters stand in the place of the temperature. -/
def block? (bytes : Bytes) : Option (List (Field × Text) × Bytes) := do
  let (direction, rest) ← Text.takeDigits? 3 bytes
  let rest ← literal? '/' rest
  let (speed, rest) ← Text.takeDigits? 3 rest
  let rest ← literal? 'g' rest
  let (gust, rest) ← Text.takeDigits? 3 rest
  let rest ← literal? 't' rest
  let (temperature, rest) ← Text.takeCharacters? 3 rest
  let rest ← literal? 'r' rest
  let (lastHour, rest) ← Text.takeDigits? 3 rest
  let rest ← literal? 'p' rest
  let (lastDay, rest) ← Text.takeDigits? 3 rest
  let rest ← literal? 'P' rest
  let (sinceMidnight, rest) ← Text.takeDigits? 3 rest
  let rest ← literal? 'h' rest
  let (humidity, rest) ← Text.takeDigits? 2 rest
  let rest ← literal? 'b' rest
  let (pressure, rest) ← Text.takeDigits? 5 rest
  return ([(.windDirection, direction), (.windSpeedOrSnowfall, speed), (.windGust, gust),
    (.temperature, temperature), (.rainLastHour, lastHour), (.rainLastDay, lastDay),
    (.rainSinceMidnight, sinceMidnight), (.humidity, humidity), (.pressure, pressure)], rest)

theorem literal?_suffix {c : Char} {bytes rest : Bytes} (h : literal? c bytes = some rest) :
    rest <:+ bytes := by
  cases bytes with
  | nil => simp [literal?] at h
  | cons b more =>
    rw [literal?] at h
    split at h
    · rw [← Option.some.inj h]
      exact List.suffix_cons b more
    · simp at h

/-- The octets behind a block are the last ones. -/
theorem block?_suffix {bytes rest : Bytes} {fields : List (Field × Text)}
    (h : block? bytes = some (fields, rest)) : rest <:+ bytes := by
  unfold block? at h
  obtain ⟨⟨_, _⟩, h₁, h⟩ := Option.bind_eq_some_iff.mp h
  obtain ⟨_, h₂, h⟩ := Option.bind_eq_some_iff.mp h
  obtain ⟨⟨_, _⟩, h₃, h⟩ := Option.bind_eq_some_iff.mp h
  obtain ⟨_, h₄, h⟩ := Option.bind_eq_some_iff.mp h
  obtain ⟨⟨_, _⟩, h₅, h⟩ := Option.bind_eq_some_iff.mp h
  obtain ⟨_, h₆, h⟩ := Option.bind_eq_some_iff.mp h
  obtain ⟨⟨_, _⟩, h₇, h⟩ := Option.bind_eq_some_iff.mp h
  obtain ⟨_, h₈, h⟩ := Option.bind_eq_some_iff.mp h
  obtain ⟨⟨_, _⟩, h₉, h⟩ := Option.bind_eq_some_iff.mp h
  obtain ⟨_, h₁₀, h⟩ := Option.bind_eq_some_iff.mp h
  obtain ⟨⟨_, _⟩, h₁₁, h⟩ := Option.bind_eq_some_iff.mp h
  obtain ⟨_, h₁₂, h⟩ := Option.bind_eq_some_iff.mp h
  obtain ⟨⟨_, _⟩, h₁₃, h⟩ := Option.bind_eq_some_iff.mp h
  obtain ⟨_, h₁₄, h⟩ := Option.bind_eq_some_iff.mp h
  obtain ⟨⟨_, _⟩, h₁₅, h⟩ := Option.bind_eq_some_iff.mp h
  obtain ⟨_, h₁₆, h⟩ := Option.bind_eq_some_iff.mp h
  obtain ⟨⟨_, _⟩, h₁₇, h⟩ := Option.bind_eq_some_iff.mp h
  obtain ⟨-, rfl⟩ := Prod.mk.inj (Option.some.inj h)
  -- each part leaves the last octets of what the part before it has left
  have hgust := (literal?_suffix h₄).trans <| (Text.takeDigits?_suffix h₃).trans <|
    (literal?_suffix h₂).trans (Text.takeDigits?_suffix h₁)
  have hlastHour := (literal?_suffix h₈).trans <| (Text.takeCharacters?_suffix h₇).trans <|
    (literal?_suffix h₆).trans <| (Text.takeDigits?_suffix h₅).trans hgust
  have hsinceMidnight := (literal?_suffix h₁₂).trans <| (Text.takeDigits?_suffix h₁₁).trans <|
    (literal?_suffix h₁₀).trans <| (Text.takeDigits?_suffix h₉).trans hlastHour
  have hpressure := (literal?_suffix h₁₆).trans <| (Text.takeDigits?_suffix h₁₅).trans <|
    (literal?_suffix h₁₄).trans <| (Text.takeDigits?_suffix h₁₃).trans hsinceMidnight
  exact (Text.takeDigits?_suffix h₁₇).trans hpressure

/-- The report with the fields of a block. Its speed follows a direction. -/
def applyBlock (w : Weather) (fields : List (Field × Text)) : Weather :=
  fields.foldl (fun w (f, written) => w.set true f written) w

/-! ## Tokens -/

/-- The report so far, and whether the direction of the wind came as a field. -/
structure Progress where
  report : Weather
  directionAsField : Bool
  deriving DecidableEq, Repr

/-- What a token makes of the report. -/
def Progress.apply (p : Progress) : Token → Progress
  | .wind direction speed =>
    let report := p.report.set false .windDirection direction
    { p with report := { report with windSpeed := (Decimal.integer? speed).map Int.toNat } }
  | .field f written =>
    let directionAsField := p.directionAsField || f == .windDirection
    ⟨p.report.set directionAsField f written, directionAsField⟩

/-! ## Fields in what follows -/

/-- The fields that are looked for, in order. -/
def sought : List Field :=
  [.windGust, .temperature, .rainLastHour, .rainLastDay, .rainSinceMidnight, .humidity, .pressure,
    .luminosityLow, .luminosityHigh, .windSpeedOrSnowfall, .rainCounter]

/-- The number behind the first letter of a field that has one behind it. -/
def find? (f : Field) : Bytes → Option Text
  | [] => none
  | b :: rest =>
    match (if f.letter = charOfByte b then f.number? rest else none) with
    | some (written, _) => some written
    | none => find? f rest

/-- What is found for a field is as wide as the field. -/
theorem find?_width {f : Field} {bytes : Bytes} {written : Text} (h : find? f bytes = some written) :
    written.length = f.width := by
  induction bytes with
  | nil => simp [find?] at h
  | cons b rest ih =>
    unfold find? at h
    split at h
    · next t r hnumber =>
      split at hnumber
      · rw [← Option.some.inj h]
        exact Field.number?_width hnumber
      · simp at hnumber
    · exact ih h

/-- The report with the field from what follows if it lacks it, and whether one was found. -/
def seek (directionAsField : Bool) (rest : Bytes) (w : Weather) (f : Field) : Weather × Bool :=
  if w.holds directionAsField f then (w, false)
  else
    match find? f rest with
    | some written => (w.set directionAsField f written, true)
    | none => (w, false)

/-- The report with all fields from what follows that it lacks, and whether one was found. -/
def seekAll (directionAsField : Bool) (rest : Bytes) (w : Weather) : Weather × Bool :=
  sought.foldl (fun (w, found) f =>
    let (w, foundNow) := seek directionAsField rest w f
    (w, found || foundNow)) (w, false)

/-! ## The whole report -/

/-- The report in `bytes` when a block has given `held` and left `rest` of them, and the octets behind
what was read in order. A report in which nothing was found has a fault. -/
def readFrom (bytes : Bytes) (held : Weather) (rest : Bytes) : Weather × Bytes :=
  let (row, rest) := tokens rest
  let progress := row.foldl Progress.apply ⟨held, false⟩
  let (report, found) := seekAll progress.directionAsField rest progress.report
  if rest.length = bytes.length ∧ found = false then
    ({ report with fault := some .nothingFound }, rest)
  else (report, rest)

/-- The report that octets begin with, and the octets behind what was read in order. -/
def read (bytes : Bytes) : Weather × Bytes :=
  match block? bytes with
  | some (fields, rest) => readFrom bytes (empty.applyBlock fields) rest
  | none => readFrom bytes empty bytes

/-- The weather report at `start`, and the place behind what was read in order. -/
def decode (payload : Bytes) (start : Nat) : Weather × Nat :=
  let (report, rest) := read (payload.drop start)
  (report, payload.length - rest.length)

end Weather

end Aprs
