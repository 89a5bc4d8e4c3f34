import Aprs.Calendar
import Mathlib.Order.Bounds.Defs

/-!
# The order of days and instants

An ordinal leaves each part of a day more room than the part can take, so days are in order as their
years are, then their months, then their days (`Date.le_iff`), and an instant of an earlier day is an
earlier one (`Instant.lt_of_date_lt`).

The latest of the days up to a given one is found by that order alone: the day before it
(`Date.yesterday?_isGreatest`), and the last one with a given number in its month
(`Date.isGreatest_of_month`). Instants are found likewise, by a time of day (`Instant.isGreatest_today`,
`Instant.isGreatest_yesterday`) and by a day of the year (`Instant.isGreatest_this_year`,
`Instant.isGreatest_last_year`).
-/

namespace Aprs

theorem daysInMonth_le (year : Int) (month : Nat) : daysInMonth year month ≤ 31 := by
  unfold daysInMonth
  split
  · split <;> omega
  · split <;> omega

/-! ## Days -/

namespace Date

variable {a b today : Date} {day : Nat}

instance : LE Date := ⟨fun a b => a.ordinal ≤ b.ordinal⟩

instance : LT Date := ⟨fun a b => a.ordinal < b.ordinal⟩

theorem not_le : ¬ a ≤ b ↔ b < a := Int.not_le

theorem day_le_daysInMonth (d : Date) : d.day ≤ daysInMonth d.year d.month := d.valid.2.2.2.2.2

theorem parts_range (d : Date) : 1 ≤ d.month ∧ d.month ≤ 12 ∧ 1 ≤ d.day ∧ d.day ≤ 31 := by
  obtain ⟨-, -, hmonth, hmonth', hday, -⟩ := d.valid
  exact ⟨hmonth, hmonth', hday, Nat.le_trans d.day_le_daysInMonth (daysInMonth_le d.year d.month)⟩

/-- Days are in order as their parts are, from the year down. -/
theorem le_iff : a ≤ b ↔ a.year < b.year ∨
    a.year = b.year ∧ (a.month < b.month ∨ a.month = b.month ∧ a.day ≤ b.day) := by
  have ha := a.parts_range
  have hb := b.parts_range
  show a.ordinal ≤ b.ordinal ↔ _
  unfold ordinal
  omega

/-- Dates are ordered by year, month and day. -/
theorem lt_iff : a < b ↔ a.year < b.year ∨
    a.year = b.year ∧ (a.month < b.month ∨ a.month = b.month ∧ a.day < b.day) := by
  have ha := a.parts_range
  have hb := b.parts_range
  show a.ordinal < b.ordinal ↔ _
  unfold ordinal
  omega

theorem ofParts?_eq_some_iff {year : Int} {month day : Nat} {d : Date} :
    ofParts? year month day = some d ↔ d.year = year ∧ d.month = month ∧ d.day = day := by
  unfold ofParts?
  constructor
  · intro h
    split at h
    · cases Option.some.inj h
      exact ⟨rfl, rfl, rfl⟩
    · simp at h
  · rintro ⟨rfl, rfl, rfl⟩
    rw [dif_pos d.valid]

/-- The day before is the last of all days before. -/
theorem yesterday?_isGreatest {yesterday : Date} (h : today.yesterday? = some yesterday) :
    IsGreatest {d : Date | d < today} yesterday := by
  have htoday := today.parts_range
  unfold yesterday? at h
  -- within the month, over the end of a month, or over the end of a year
  split at h
  · obtain ⟨hyear, hmonth, hday⟩ := ofParts?_eq_some_iff.mp h
    refine ⟨lt_iff.mpr (by omega), fun d (hd : d < today) => le_iff.mpr ?_⟩
    have hbefore := lt_iff.mp hd
    omega
  split at h
  · obtain ⟨hyear, hmonth, hday⟩ := ofParts?_eq_some_iff.mp h
    refine ⟨lt_iff.mpr (by omega), fun d (hd : d < today) => le_iff.mpr ?_⟩
    have hparts := d.parts_range
    have hbefore := lt_iff.mp hd
    -- the day before is the last that its month has
    have hend : d.year = today.year → d.month = today.month - 1 → d.day ≤ yesterday.day := by
      intro hsame hlast
      rw [hday, ← hsame, ← hlast]
      exact d.day_le_daysInMonth
    omega
  · obtain ⟨hyear, hmonth, hday⟩ := ofParts?_eq_some_iff.mp h
    refine ⟨lt_iff.mpr (by omega), fun d (hd : d < today) => le_iff.mpr ?_⟩
    have hparts := d.parts_range
    have hbefore := lt_iff.mp hd
    omega

/-- Months counted on through the years. -/
def monthCount (d : Date) : Int := d.year * 12 + d.month

/-- The month in which the number of a day last was that of a day: this one if it has come in it, and
else the last. -/
theorem month_cases {year : Int} {month : Nat}
    (h : (year, month) = if day ≤ today.day then (today.year, today.month)
      else if today.month = 1 then (today.year - 1, 12) else (today.year, today.month - 1)) :
    (day ≤ today.day ∧ year = today.year ∧ month = today.month) ∨
      (today.day < day ∧ year * 12 + month = today.monthCount - 1 ∧ 1 ≤ month ∧ month ≤ 12) := by
  have htoday := today.parts_range
  unfold monthCount
  split at h
  · obtain ⟨hyear, hmonth⟩ := Prod.mk.inj h
    omega
  · split at h
    · obtain ⟨hyear, hmonth⟩ := Prod.mk.inj h
      omega
    · obtain ⟨hyear, hmonth⟩ := Prod.mk.inj h
      omega

/-- Up to today a number was last that of a day in this month, or else in the month before, if there it
is one. -/
theorem isGreatest_of_month {d : Date}
    (hmonth : (d.year, d.month) = if day ≤ today.day then (today.year, today.month)
      else if today.month = 1 then (today.year - 1, 12) else (today.year, today.month - 1))
    (hday : d.day = day) : IsGreatest {u : Date | u ≤ today ∧ u.day = day} d := by
  have htoday := today.parts_range
  have hmonth := month_cases hmonth
  unfold monthCount at hmonth
  refine ⟨⟨le_iff.mpr (by omega), hday⟩, fun u ⟨hu, hnumber⟩ => le_iff.mpr ?_⟩
  have hparts := u.parts_range
  have hupTo := le_iff.mp hu
  omega

end Date

/-! ## Instants -/

namespace Instant

/-- Whether an instant is at a time of day. -/
def IsAt (t : Instant) (hour minute second : Nat) : Prop :=
  t.hour = hour ∧ t.minute = minute ∧ t.second = second

variable {a b now t : Instant} {date : Date} {year : Int} {month day hour minute second : Nat}

theorem onDate?_eq_some_iff :
    onDate? date hour minute second = some t ↔ t.date = date ∧ t.IsAt hour minute second := by
  unfold onDate?
  constructor
  · intro h
    split at h
    · cases Option.some.inj h
      exact ⟨rfl, rfl, rfl, rfl⟩
    · simp at h
  · rintro ⟨rfl, rfl, rfl, rfl⟩
    rw [dif_pos t.valid]

theorem ofParts?_eq_some_iff : ofParts? year month day hour minute second = some t ↔
    (t.date.year = year ∧ t.date.month = month ∧ t.date.day = day) ∧ t.IsAt hour minute second := by
  unfold ofParts?
  simp only [Option.bind_eq_some_iff, Date.ofParts?_eq_some_iff, onDate?_eq_some_iff]
  constructor
  · rintro ⟨_, hdate, rfl, hclock⟩
    exact ⟨hdate, hclock⟩
  · rintro ⟨hdate, hclock⟩
    exact ⟨t.date, hdate, rfl, hclock⟩

theorem le_of_lt (h : a < b) : a ≤ b := Int.le_of_lt h

/-- An instant of an earlier day is an earlier instant. -/
theorem lt_of_date_lt (h : a.date < b.date) : a < b := by
  obtain ⟨hhour, hminute, hsecond⟩ := a.valid
  have h : a.date.ordinal < b.date.ordinal := h
  show a.ordinal < b.ordinal
  unfold ordinal
  omega

theorem date_le (h : a ≤ b) : a.date ≤ b.date :=
  Int.not_lt.mp fun hlt => Int.not_lt.mpr h (lt_of_date_lt hlt)

/-- At one time of day the instants are in order as their days are. -/
theorem le_of_isAt (ha : a.IsAt hour minute second) (hb : b.IsAt hour minute second)
    (h : a.date ≤ b.date) : a ≤ b := by
  obtain ⟨rfl, rfl, rfl⟩ := ha
  obtain ⟨hhour, hminute, hsecond⟩ := hb
  have h : a.date.ordinal ≤ b.date.ordinal := h
  show a.ordinal ≤ b.ordinal
  unfold ordinal
  omega

/-- A time of day that is past today was last today. -/
theorem isGreatest_today (hdate : t.date = now.date) (ht : t.IsAt hour minute second)
    (hpast : t ≤ now) : IsGreatest {u : Instant | u ≤ now ∧ u.IsAt hour minute second} t := by
  refine ⟨⟨hpast, ht⟩, fun u ⟨hu, hclock⟩ => le_of_isAt hclock ht ?_⟩
  rw [hdate]
  exact date_le hu

/-- A time of day that is still to come today was last yesterday. -/
theorem isGreatest_yesterday {today : Instant} (htoday : today.date = now.date)
    (hstamp : today.IsAt hour minute second) (hfuture : ¬ today ≤ now)
    (hdate : now.date.yesterday? = some t.date) (ht : t.IsAt hour minute second) :
    IsGreatest {u : Instant | u ≤ now ∧ u.IsAt hour minute second} t := by
  obtain ⟨hbefore, hlast⟩ := Date.yesterday?_isGreatest hdate
  refine ⟨⟨le_of_lt (lt_of_date_lt hbefore), ht⟩, fun u ⟨hu, hclock⟩ => ?_⟩
  refine le_of_isAt hclock ht (hlast (Date.not_le.mp fun hlate => hfuture ?_))
  -- an instant of today at that time is the one that is still to come
  have hlater : today ≤ u := le_of_isAt hstamp hclock (by rw [htoday]; exact hlate)
  exact Int.le_trans hlater hu

/-- A day of the year that is past this year was last this year. -/
theorem isGreatest_this_year (hyear : t.date.year = now.date.year)
    (hday : t.date.month = month ∧ t.date.day = day) (ht : t.IsAt hour minute second)
    (hpast : t ≤ now) : IsGreatest {u : Instant | u ≤ now ∧
      (u.date.month = month ∧ u.date.day = day) ∧ u.IsAt hour minute second} t := by
  refine ⟨⟨hpast, hday, ht⟩, fun u ⟨hu, hday', hclock⟩ => le_of_isAt hclock ht ?_⟩
  have hdate := Date.le_iff.mp (date_le hu)
  rw [Date.le_iff]
  omega

/-- A day of the year that is still to come this year was last in the year before, if it is a day of
that year. -/
theorem isGreatest_last_year {later : Instant} (hlater : later.date.year = now.date.year)
    (hlaterDay : later.date.month = month ∧ later.date.day = day)
    (hstamp : later.IsAt hour minute second) (hfuture : ¬ later ≤ now)
    (hyear : t.date.year = now.date.year - 1)
    (hday : t.date.month = month ∧ t.date.day = day) (ht : t.IsAt hour minute second) :
    IsGreatest {u : Instant | u ≤ now ∧
      (u.date.month = month ∧ u.date.day = day) ∧ u.IsAt hour minute second} t := by
  have hbefore : t.date < now.date := Date.lt_iff.mpr (by omega)
  refine ⟨⟨le_of_lt (lt_of_date_lt hbefore), hday, ht⟩, fun u ⟨hu, hday', hclock⟩ => ?_⟩
  have hdate := Date.le_iff.mp (date_le hu)
  have hyear' : u.date.year < now.date.year := by
    refine Int.not_le.mp fun hlate => hfuture ?_
    -- an instant of this year on that day is the one that is still to come
    have hle : later ≤ u := le_of_isAt hstamp hclock (Date.le_iff.mpr (by omega))
    exact Int.le_trans hle hu
  exact le_of_isAt hclock ht (Date.le_iff.mpr (by omega))

end Instant

end Aprs
