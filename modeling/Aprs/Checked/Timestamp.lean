import Aprs.Checked
import Aprs.Timestamp

/-!
# Checked timestamps

A timestamp is read through a `Reader`, two digits at a time. Digits are added up in words of 32
bits, and so are the parts of a date; years have a sign.

Specification: 4.2 (Time Decoder).
-/

namespace Aprs.Checked

/-! ## Digits -/

/-- The number that digits write, continued from `n`. -/
def digitsFrom? (n : Nat) : Bytes → Checked (Option Nat)
  | [] => .ok (some n)
  | b :: rest =>
    if Decimal.isDigit b then do
      let tens ← mul Scalar.word32 n 10
      let ones ← sub b.toNat 48
      let sum ← add Scalar.word32 tens ones
      digitsFrom? sum rest
    else .ok none

/-- The number in a field of one to nine digits. -/
def field? (octets : Bytes) : Checked (Option Nat) :=
  if octets.isEmpty ∨ Decimal.maxFieldLength < octets.length then .ok none
  else digitsFrom? 0 octets

/-! ## Reading -/

/-- The next `count` octets, and the reader behind them. -/
def exact (limit : Nat) (r : Reader) (count : Nat) : Checked (Except ReadError (Bytes × Reader)) :=
  if r.remaining < count then .ok (.error .unexpectedEnd)
  else do
    let stop ← add limit r.position count
    let octets ← piece r.data r.position stop
    return .ok (octets, { r with position := stop })

/-- The number in the next two digits, and the reader behind them. -/
def pair (limit : Nat) (r : Reader) : ExceptT Timestamp.Fault Checked (Nat × Reader) := do
  match ← exact limit r 2 with
  | .error cause => throw (.number cause)
  | .ok (octets, r) =>
    match ← field? octets with
    | some n => return (n, r)
    | none => throw (.number (.invalidNumber (Utf8.lossy octets)))

/-! ## Instants -/

/-- The year and the month in which the latest such day lies. -/
def monthOf (day : Nat) (today : Date) : Checked (Int × Nat) :=
  if day ≤ today.day then return (today.year, today.month)
  else if today.month = 1 then return (← signed (today.year - 1), 12)
  else return (today.year, ← sub today.month 1)

/-- The latest time of that day of the month. -/
def dayHourMinute (limit : Nat) (r : Reader) (now : Instant) :
    ExceptT Timestamp.Fault Checked Instant := do
  let (day, r) ← pair limit r
  let (hour, r) ← pair limit r
  let (minute, _) ← pair limit r
  let (year, month) ← monthOf day now.date
  Timestamp.orFault .notInCalendar (Instant.ofParts? year month day hour minute 0)

/-- The latest such time of day up to now. -/
def hourMinuteSecond (limit : Nat) (r : Reader) (now : Instant) :
    ExceptT Timestamp.Fault Checked Instant := do
  let (hour, r) ← pair limit r
  let (minute, r) ← pair limit r
  let (second, _) ← pair limit r
  let stamp ← Timestamp.orFault .notInCalendar (Instant.onDate? now.date hour minute second)
  if stamp ≤ now then return stamp
  match now.date.yesterday? with
  | none => throw .noDayBefore
  | some yesterday =>
    Timestamp.orFault .notInCalendar (Instant.onDate? yesterday hour minute second)

/-- The latest such day and time up to now. -/
def monthDayHourMinute (limit : Nat) (r : Reader) (now : Instant) :
    ExceptT Timestamp.Fault Checked Instant := do
  let (month, r) ← pair limit r
  let (day, r) ← pair limit r
  let (hour, r) ← pair limit r
  let (minute, _) ← pair limit r
  let year := now.date.year
  let stamp ← Timestamp.orFault .notInCalendar (Instant.ofParts? year month day hour minute 0)
  if stamp ≤ now then return stamp
  let lastYear ← signed (year - 1)
  Timestamp.orFault .notInCalendar (Instant.ofParts? lastYear month day hour minute 0)

/-- The instant that a field of a known form means. -/
def resolve (limit : Nat) (format : TimeFormat) (r : Reader) (now : Instant) :
    ExceptT Timestamp.Fault Checked Instant :=
  match format with
  | .dayHourMinuteZulu | .dayHourMinuteLocal => dayHourMinute limit r now
  | .hourMinuteSecond => hourMinuteSecond limit r now
  | .monthDayHourMinute => monthDayHourMinute limit r now

/-- The timestamp at `start`, and the position behind it. -/
def decodeTimestamp (limit : Nat) (payload : Bytes) (start : Nat) (now : Instant) :
    Checked (Timestamp × Nat) := do
  let behind ← add limit start Timestamp.indicatorWidth
  let place ← sub behind 1
  match payload[place]? with
  | none => return (⟨none, none, some .cutShort⟩, min behind payload.length)
  | some indicator =>
    match TimeFormat.ofIndicator? indicator with
    | none =>
      return (⟨none, some .epoch, some (.unsupportedIndicator (charOfByte indicator))⟩,
        min behind payload.length)
    | some format =>
      let resolved ← (resolve limit format ⟨payload, start⟩ now).run
      let behind ← add limit start format.width
      match resolved with
      | .ok t => return (⟨some format, some t, none⟩, min behind payload.length)
      | .error fault => return (⟨some format, some .epoch, some fault⟩, min behind payload.length)

end Aprs.Checked
