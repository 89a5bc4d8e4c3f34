import Aprs.Decimal.Digits

/-!
# Calendar

Days of the proleptic Gregorian calendar and seconds within them, in universal time. A `Date` or an
`Instant` exists only if it is valid, so a reading that names no day has no value.

Instants are ordered by their parts from the year down; `ordinal` puts the parts into one integer
with the same order.
-/

namespace Aprs

/-- Whether February has twenty-nine days. -/
def isLeapYear (year : Int) : Bool :=
  year % 4 = 0 ∧ (year % 100 ≠ 0 ∨ year % 400 = 0)

/-- The number of days of a month. -/
def daysInMonth (year : Int) (month : Nat) : Nat :=
  if month = 2 then if isLeapYear year then 29 else 28
  else if month = 4 ∨ month = 6 ∨ month = 9 ∨ month = 11 then 30
  else 31

/-- The first year that dates reach. -/
def firstYear : Int := -262143

/-- The last year that dates reach. -/
def lastYear : Int := 262142

/-- What makes a year, a month and a day a date. -/
def IsDate (year : Int) (month day : Nat) : Prop :=
  firstYear ≤ year ∧ year ≤ lastYear ∧ 1 ≤ month ∧ month ≤ 12 ∧
    1 ≤ day ∧ day ≤ daysInMonth year month

instance (year : Int) (month day : Nat) : Decidable (IsDate year month day) := by
  unfold IsDate
  infer_instance

/-- A day. -/
structure Date where
  year : Int
  month : Nat
  day : Nat
  valid : IsDate year month day
  deriving DecidableEq

namespace Date

/-- The day with the given parts, if there is one. -/
def ofParts? (year : Int) (month day : Nat) : Option Date :=
  if h : IsDate year month day then some ⟨year, month, day, h⟩ else none

/-- The day before, unless it is the first of all. -/
def yesterday? (date : Date) : Option Date :=
  if 1 < date.day then ofParts? date.year date.month (date.day - 1)
  else if 1 < date.month then
    ofParts? date.year (date.month - 1) (daysInMonth date.year (date.month - 1))
  else ofParts? (date.year - 1) 12 31

/-- The place of a day in the order of days. -/
def ordinal (date : Date) : Int := (date.year * 13 + date.month) * 32 + date.day

end Date

/-- What makes an hour, a minute and a second a time of day. -/
def IsTimeOfDay (hour minute second : Nat) : Prop := hour < 24 ∧ minute < 60 ∧ second < 60

instance (hour minute second : Nat) : Decidable (IsTimeOfDay hour minute second) := by
  unfold IsTimeOfDay
  infer_instance

/-- A second of a day. -/
structure Instant where
  date : Date
  hour : Nat
  minute : Nat
  second : Nat
  valid : IsTimeOfDay hour minute second
  deriving DecidableEq

namespace Instant

/-- The time of a day, if there is one with the given parts. -/
def onDate? (date : Date) (hour minute second : Nat) : Option Instant :=
  if h : IsTimeOfDay hour minute second then some ⟨date, hour, minute, second, h⟩ else none

/-- The instant with the given parts, if there is one. -/
def ofParts? (year : Int) (month day hour minute second : Nat) : Option Instant :=
  (Date.ofParts? year month day).bind fun date => onDate? date hour minute second

/-- The instant from which seconds are counted. -/
def epoch : Instant := ⟨⟨1970, 1, 1, by decide⟩, 0, 0, 0, by decide⟩

/-- The place of an instant in the order of instants. -/
def ordinal (t : Instant) : Int :=
  ((t.date.ordinal * 24 + t.hour) * 60 + t.minute) * 60 + t.second

instance : LE Instant := ⟨fun a b => a.ordinal ≤ b.ordinal⟩

instance : LT Instant := ⟨fun a b => a.ordinal < b.ordinal⟩

instance (a b : Instant) : Decidable (a ≤ b) := inferInstanceAs (Decidable (a.ordinal ≤ b.ordinal))

instance (a b : Instant) : Decidable (a < b) := inferInstanceAs (Decidable (a.ordinal < b.ordinal))

/-- A year in four digits, with its sign where it has more of them or lies before the year zero. -/
def yearText (year : Int) : Text :=
  if year < 0 then '-' :: Decimal.padded 4 year.natAbs
  else if year ≤ 9999 then Decimal.padded 4 year.toNat
  else '+' :: Decimal.padded 4 year.toNat

/-- The instant as `2024-03-20T12:00:00Z`. -/
def text (t : Instant) : Text :=
  yearText t.date.year ++ '-' :: Decimal.padded 2 t.date.month ++ '-' :: Decimal.padded 2 t.date.day
    ++ 'T' :: Decimal.padded 2 t.hour ++ ':' :: Decimal.padded 2 t.minute
    ++ ':' :: Decimal.padded 2 t.second ++ ['Z']

/-- The number that a pair of digits writes. -/
private def pair? (a b : Char) : Option Nat :=
  (Decimal.integer? [a, b]).bind fun n => if a.isDigit then some n.toNat else none

/-- The instant that a text as `2024-03-20T12:00:00Z` writes. -/
def ofText? (t : Text) : Option Instant :=
  match t.drop (t.length - 16) with
  | ['-', m, m', '-', d, d', 'T', h, h', ':', n, n', ':', s, s', 'Z'] => do
    let year ← Decimal.integer? (t.take (t.length - 16))
    ofParts? year (← pair? m m') (← pair? d d') (← pair? h h') (← pair? n n') (← pair? s s')
  | _ => none

/-- The instant that lies a number of seconds after the epoch. Days are counted in eras of four
hundred years that begin in March, so that a leap day ends its year. -/
def ofEpochSeconds? (seconds : Int) : Option Instant :=
  let days := seconds / 86400 + 719468
  let clock := (seconds % 86400).toNat
  let dayOfEra := (days % 146097).toNat
  let yearOfEra :=
    (dayOfEra - dayOfEra / 1460 + dayOfEra / 36524 - dayOfEra / 146096) / 365
  let dayOfYear := dayOfEra - (365 * yearOfEra + yearOfEra / 4 - yearOfEra / 100)
  let monthFromMarch := (5 * dayOfYear + 2) / 153
  let day := dayOfYear - (153 * monthFromMarch + 2) / 5 + 1
  let month := if monthFromMarch < 10 then monthFromMarch + 3 else monthFromMarch - 9
  let year := (yearOfEra : Int) + days / 146097 * 400 + if month ≤ 2 then 1 else 0
  ofParts? year month day (clock / 3600) (clock / 60 % 60) (clock % 60)

end Instant

end Aprs
