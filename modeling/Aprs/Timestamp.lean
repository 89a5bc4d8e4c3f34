import Aprs.Calendar
import Aprs.Reader

/-!
# Timestamps

A report tells when it was made by a few digits: a day, an hour and a minute; an hour, a minute and
a second; or a month, a day, an hour and a minute. What is missing is taken from the instant `now`
at which the report came in, so that the instant meant is the latest one that fits.

The character behind the first six digits tells which of the forms it is, a digit in its place
belonging to the last form. A timestamp that cannot be resolved keeps its form and stands at the
epoch, and one cut short stands nowhere.

Specification: 4.2 (Time Decoder) and 12.4 (Time).
-/

namespace Aprs

/-- The forms of a timestamp. -/
inductive TimeFormat
  | dayHourMinuteZulu
  | dayHourMinuteLocal
  | hourMinuteSecond
  | monthDayHourMinute
  deriving DecidableEq, Repr

namespace TimeFormat

/-- The form that the character behind six digits tells. -/
def ofIndicator? (b : UInt8) : Option TimeFormat :=
  if b = 0x7A then some dayHourMinuteZulu
  else if b = 0x2F then some dayHourMinuteLocal
  else if b = 0x68 then some hourMinuteSecond
  else if Decimal.isDigit b then some monthDayHourMinute
  else none

/-- How many octets a timestamp takes. -/
def width : TimeFormat → Nat
  | monthDayHourMinute => 8
  | _ => 7

end TimeFormat

namespace Timestamp

/-- What is wrong with a timestamp. -/
inductive Fault
  | cutShort
  | unsupportedIndicator (indicator : Char)
  | number (cause : ReadError)
  | notInCalendar
  | noDayBefore
  deriving DecidableEq, Repr

/-- The wording of a fault. -/
def Fault.reason : Fault → Text
  | .cutShort => "Index out of bounds parsing time field".toList
  | .unsupportedIndicator indicator => "unsupported time indicator '".toList ++ [indicator, '\'']
  | .number cause => cause.message
  | .notInCalendar => "timestamp is not a valid calendar time".toList
  | .noDayBefore => "invalid value".toList

end Timestamp

/-- A timestamp as it was read. -/
structure Timestamp where
  format : Option TimeFormat
  instant : Option Instant
  fault : Option Timestamp.Fault
  deriving DecidableEq

namespace Timestamp

/-- Whether the station gave its local time, which is read as universal time. -/
def isLocal (t : Timestamp) : Bool := t.format = some .dayHourMinuteLocal

/-- The width of a timestamp up to and including its indicator. -/
def indicatorWidth : Nat := 7

/-- The number in the two digits at a place of a field, counted in pairs. -/
def number (field : Bytes) (place : Nat) : Except Fault Nat :=
  match field.drop (2 * place) with
  | a :: b :: _ =>
    match Decimal.field? [a, b] with
    | some n => .ok n
    | none => .error (.number (.invalidNumber (Utf8.lossy [a, b])))
  | _ => .error (.number .unexpectedEnd)

/-- An instant that is there, or else the fault. -/
def orFault (fault : Fault) : Option Instant → Except Fault Instant
  | some t => .ok t
  | none => .error fault

/-- The latest time of that day of the month: in this month up to today, else in the month before. -/
def dayHourMinute (field : Bytes) (now : Instant) : Except Fault Instant := do
  let day ← number field 0
  let hour ← number field 1
  let minute ← number field 2
  let today := now.date
  let (year, month) :=
    if day ≤ today.day then (today.year, today.month)
    else if today.month = 1 then (today.year - 1, 12)
    else (today.year, today.month - 1)
  orFault .notInCalendar (Instant.ofParts? year month day hour minute 0)

/-- The latest such time of day up to now: today, else yesterday. -/
def hourMinuteSecond (field : Bytes) (now : Instant) : Except Fault Instant := do
  let hour ← number field 0
  let minute ← number field 1
  let second ← number field 2
  let stamp ← orFault .notInCalendar (Instant.onDate? now.date hour minute second)
  if stamp ≤ now then return stamp
  match now.date.yesterday? with
  | none => throw .noDayBefore
  | some yesterday => orFault .notInCalendar (Instant.onDate? yesterday hour minute second)

/-- The latest such day and time up to now: this year, else last year. -/
def monthDayHourMinute (field : Bytes) (now : Instant) : Except Fault Instant := do
  let month ← number field 0
  let day ← number field 1
  let hour ← number field 2
  let minute ← number field 3
  let year := now.date.year
  let stamp ← orFault .notInCalendar (Instant.ofParts? year month day hour minute 0)
  if stamp ≤ now then return stamp
  orFault .notInCalendar (Instant.ofParts? (year - 1) month day hour minute 0)

/-- The instant that a field of a known form means. -/
def resolve (format : TimeFormat) (field : Bytes) (now : Instant) : Except Fault Instant :=
  match format with
  | .dayHourMinuteZulu | .dayHourMinuteLocal => dayHourMinute field now
  | .hourMinuteSecond => hourMinuteSecond field now
  | .monthDayHourMinute => monthDayHourMinute field now

/-- The timestamp at `start`, and the position behind it. -/
def decode (payload : Bytes) (start : Nat) (now : Instant) : Timestamp × Nat :=
  match payload[start + (indicatorWidth - 1)]? with
  | none => (⟨none, none, some .cutShort⟩, min (start + indicatorWidth) payload.length)
  | some indicator =>
    match TimeFormat.ofIndicator? indicator with
    | none =>
      (⟨none, some .epoch, some (.unsupportedIndicator (charOfByte indicator))⟩,
        min (start + indicatorWidth) payload.length)
    | some format =>
      let behind := min (start + format.width) payload.length
      match resolve format (payload.drop start) now with
      | .ok t => (⟨some format, some t, none⟩, behind)
      | .error fault => (⟨some format, some .epoch, some fault⟩, behind)

/-- The instant at which a report was made: its timestamp if that is sound, else `now`. -/
def generated (t : Timestamp) (now : Instant) : Instant :=
  match t.fault, t.instant with
  | none, some instant => instant
  | _, _ => now

end Timestamp

end Aprs
