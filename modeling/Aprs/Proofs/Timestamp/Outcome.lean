import Aprs.Proofs.Timestamp

/-!
# What becomes of a timestamp

A timestamp has no instant if it is cut short, stands at the epoch if something is wrong with it, and else
stands at the instant that it means. One that is complete and of a known form should be at fault only if no
instant near `now` has its numbers (`IsNear`): none on that day of this month or the last, none at that time
of today or yesterday, none on that day of this year or the last. Every time of day is near in this sense,
but for those still to come on the first day of the calendar (`exists_near_of_isTimeOfDay`).

Two timestamps break these rules. One that is cut before its very last octet stands at the epoch, as only
the indicator is missed if it is not there (`CutBeforeLast`). And the leap day of last year is not found, as
a day is looked for in the last year only if this year has it (`LeapDayPassedOver`).

> `decode_explained_iff`: a timestamp goes by these rules unless it is one of the two, and exactly then.

Specification: 4.2 (Time Decoder) and 12.4 (Time).
-/

namespace Aprs

/-! ## Days of another year -/

namespace Date

/-- A day that is not a leap day comes in every year. -/
theorem isDate_of_not_leap {year other : Int} {month day : Nat} (h : IsDate year month day)
    (hfirst : firstYear ≤ other) (hlast : other ≤ lastYear) (hleap : ¬(month = 2 ∧ day = 29)) :
    IsDate other month day := by
  obtain ⟨-, -, hmonth, hmonth', hday, hdays⟩ := h
  refine ⟨hfirst, hlast, hmonth, hmonth', hday, ?_⟩
  unfold daysInMonth at hdays ⊢
  by_cases hfebruary : month = 2
  · rw [if_pos hfebruary] at hdays ⊢
    split at hdays
    · split <;> omega
    · split <;> omega
  · rw [if_neg hfebruary] at hdays ⊢
    exact hdays

/-- No two years that follow each other have a leap day. -/
theorem not_isDate_of_leap_before {year : Int} (h : IsDate (year - 1) 2 29) : ¬IsDate year 2 29 := by
  have hleap {y : Int} (hy : IsDate y 2 29) : y % 4 = 0 := by
    have hdays : 29 ≤ daysInMonth y 2 := hy.2.2.2.2.2
    refine Decidable.byContradiction fun hne => ?_
    have hplain : isLeapYear y = false := decide_eq_false fun hyear => hne hyear.1
    rw [daysInMonth, if_pos rfl, hplain] at hdays
    exact absurd hdays (by decide)
  intro h'
  have hbefore := hleap h
  have hthis := hleap h'
  omega

/-- A day that has its number in that month is one of this month or the last, up to today. -/
theorem near_of_month {d today : Date}
    (h : (d.year, d.month) = if d.day ≤ today.day then (today.year, today.month)
      else if today.month = 1 then (today.year - 1, 12) else (today.year, today.month - 1)) :
    d ≤ today ∧ today.monthCount - 1 ≤ d.monthCount := by
  have htoday := today.parts_range
  have hmonth := month_cases h
  rw [le_iff]
  unfold monthCount at hmonth ⊢
  omega

/-- If this month or the last has a day with a number up to today, there is one in that month. -/
theorem exists_of_near {d today : Date} {year : Int} {month : Nat} (hupTo : d ≤ today)
    (hnear : today.monthCount - 1 ≤ d.monthCount)
    (h : (year, month) = if d.day ≤ today.day then (today.year, today.month)
      else if today.month = 1 then (today.year - 1, 12) else (today.year, today.month - 1)) :
    ∃ u : Date, u.year = year ∧ u.month = month ∧ u.day = d.day := by
  have hd := d.parts_range
  have hupTo := le_iff.mp hupTo
  rcases month_cases h with ⟨hday, rfl, rfl⟩ | ⟨hday, hmonth, hlow, hhigh⟩
  · obtain ⟨hfirst, hlast, hmonth, hmonth', -, hdays⟩ := today.valid
    exact ⟨⟨today.year, today.month, d.day, hfirst, hlast, hmonth, hmonth', hd.2.2.1,
      Nat.le_trans hday hdays⟩, rfl, rfl, rfl⟩
  · have htoday := today.parts_range
    unfold monthCount at hnear hmonth
    exact ⟨d, by omega, by omega, rfl⟩

end Date

namespace Timestamp

variable {payload : Bytes} {start : Nat} {now t : Instant} {format : TimeFormat}

instance (payload : Bytes) (place n : Nat) : Decidable (Written payload place n) := by
  unfold Written
  infer_instance

/-! ## The rules -/

/-- How many octets the timestamp at a place takes: eight if the seventh of them is a digit. -/
def fieldWidth (payload : Bytes) (start : Nat) : Nat :=
  if payload[start + 6]?.any Decimal.isDigit then 8 else 7

/-- Whether an instant has the numbers of a timestamp of a form and is near enough before `now` to be
meant: on a day of this month or the last up to today, at a time of today or yesterday up to now, or at a
time of this year or the last up to now. -/
def IsNear (payload : Bytes) (start : Nat) (now t : Instant) : TimeFormat → Prop
  | .dayHourMinuteZulu | .dayHourMinuteLocal =>
    ∃ day hour minute, Written payload start day ∧ Written payload (start + 2) hour ∧
      Written payload (start + 4) minute ∧
      (t.date ≤ now.date ∧ now.date.monthCount - 1 ≤ t.date.monthCount) ∧
      t.date.day = day ∧ t.IsAt hour minute 0
  | .hourMinuteSecond =>
    ∃ hour minute second, Written payload start hour ∧ Written payload (start + 2) minute ∧
      Written payload (start + 4) second ∧
      (t ≤ now ∧ (t.date = now.date ∨ now.date.yesterday? = some t.date)) ∧
      t.IsAt hour minute second
  | .monthDayHourMinute =>
    ∃ month day hour minute, Written payload start month ∧ Written payload (start + 2) day ∧
      Written payload (start + 4) hour ∧ Written payload (start + 6) minute ∧
      (t ≤ now ∧ now.date.year - 1 ≤ t.date.year) ∧
      (t.date.month = month ∧ t.date.day = day) ∧ t.IsAt hour minute 0

/-- The rules for what becomes of a timestamp: it has no instant exactly if the payload ends before it
does; if it is complete and of a known form, it is at fault exactly if no instant near `now` has its
numbers; and whatever else is wrong with it, it stands at the epoch. -/
structure Explained (payload : Bytes) (start : Nat) (now : Instant) : Prop where
  absent_iff : (decode payload start now).1.instant = none ↔
    payload.length < start + fieldWidth payload start
  fault_iff : ∀ format, payload[start + 6]?.bind TimeFormat.ofIndicator? = some format →
    start + format.width ≤ payload.length →
      ((decode payload start now).1.fault ≠ none ↔ ¬∃ t, IsNear payload start now t format)
  epoch : (decode payload start now).1.fault ≠ none →
    (decode payload start now).1.instant ≠ none → (decode payload start now).1.instant = some .epoch

/-- A timestamp of eight octets of which the payload holds all but the last. -/
def CutBeforeLast (payload : Bytes) (start : Nat) : Prop :=
  payload[start + 6]?.any Decimal.isDigit = true ∧ payload.length = start + 7

/-- A timestamp on the leap day of the year before that of `now`. -/
def LeapDayPassedOver (payload : Bytes) (start : Nat) (now : Instant) : Prop :=
  payload[start + 6]?.any Decimal.isDigit = true ∧
    Written payload start 2 ∧ Written payload (start + 2) 29 ∧ IsDate (now.date.year - 1) 2 29 ∧
    ∃ hour minute, Written payload (start + 4) hour ∧ Written payload (start + 6) minute ∧
      IsTimeOfDay hour minute 0

/-! ## The instant of each form -/

/-- A day of the month that is found is near `now`. -/
theorem dayHourMinute_near (h : dayHourMinute (payload.drop start) now = .ok t) :
    IsNear payload start now t .dayHourMinuteZulu := by
  obtain ⟨day, hday, h⟩ := bind_eq_ok_iff.mp h
  obtain ⟨hour, hhour, h⟩ := bind_eq_ok_iff.mp h
  obtain ⟨minute, hminute, h⟩ := bind_eq_ok_iff.mp h
  obtain ⟨year, month, hparts, h⟩ : ∃ year month, (year, month) =
      (if day ≤ now.date.day then (now.date.year, now.date.month)
        else if now.date.month = 1 then (now.date.year - 1, 12)
        else (now.date.year, now.date.month - 1)) ∧
      orFault .notInCalendar (Instant.ofParts? year month day hour minute 0) = .ok t :=
    ⟨_, _, rfl, h⟩
  obtain ⟨⟨rfl, rfl, rfl⟩, hclock⟩ := Instant.ofParts?_eq_some_iff.mp (orFault_eq_ok_iff.mp h)
  exact ⟨t.date.day, hour, minute, number_eq_ok_iff.mp hday, number_eq_ok_iff.mp hhour,
    number_eq_ok_iff.mp hminute, Date.near_of_month hparts, rfl, hclock⟩

/-- If a day of the month is near `now`, one is found. -/
theorem exists_dayHourMinute (h : IsNear payload start now t .dayHourMinuteZulu) :
    ∃ u, dayHourMinute (payload.drop start) now = .ok u := by
  obtain ⟨_, hour, minute, hday, hhour, hminute, ⟨hupTo, hnear⟩, rfl, hclock⟩ := h
  obtain ⟨date, hdate⟩ := Date.exists_of_near hupTo hnear rfl
  let stamp : Instant := ⟨date, t.hour, t.minute, t.second, t.valid⟩
  refine ⟨stamp, bind_eq_ok_iff.mpr ⟨_, number_eq_ok_iff.mpr hday, ?_⟩⟩
  refine bind_eq_ok_iff.mpr ⟨hour, number_eq_ok_iff.mpr hhour, ?_⟩
  refine bind_eq_ok_iff.mpr ⟨minute, number_eq_ok_iff.mpr hminute, ?_⟩
  exact orFault_eq_ok_iff.mpr (Instant.ofParts?_eq_some_iff.mpr ⟨hdate, hclock⟩)

/-- A time of day that is found is near `now`. -/
theorem hourMinuteSecond_near (h : hourMinuteSecond (payload.drop start) now = .ok t) :
    IsNear payload start now t .hourMinuteSecond := by
  obtain ⟨hour, minute, second, hhour, hminute, hsecond, ⟨hupTo, hclock⟩, -⟩ :=
    hourMinuteSecond_isLatest h
  obtain ⟨_, hhour', h⟩ := bind_eq_ok_iff.mp h
  obtain ⟨_, hminute', h⟩ := bind_eq_ok_iff.mp h
  obtain ⟨_, hsecond', h⟩ := bind_eq_ok_iff.mp h
  obtain ⟨stamp, hstamp, h⟩ := bind_eq_ok_iff.mp h
  refine ⟨hour, minute, second, hhour, hminute, hsecond, ⟨hupTo, ?_⟩, hclock⟩
  by_cases hpast : stamp ≤ now
  · rw [if_pos hpast] at h
    cases Except.ok.inj h
    exact Or.inl (Instant.onDate?_eq_some_iff.mp (orFault_eq_ok_iff.mp hstamp)).1
  · rw [if_neg hpast] at h
    cases hyesterday : now.date.yesterday? with
    | none =>
      rw [hyesterday] at h
      exact nomatch h
    | some yesterday =>
      rw [hyesterday] at h
      exact Or.inr (congrArg some (Instant.onDate?_eq_some_iff.mp (orFault_eq_ok_iff.mp h)).1.symm)

/-- If a time of day is near `now`, one is found. -/
theorem exists_hourMinuteSecond (h : IsNear payload start now t .hourMinuteSecond) :
    ∃ u, hourMinuteSecond (payload.drop start) now = .ok u := by
  obtain ⟨hour, minute, second, hhour, hminute, hsecond, ⟨hupTo, hdate⟩, hclock⟩ := h
  obtain ⟨stamp, htoday, hstamp⟩ : ∃ u : Instant, u.date = now.date ∧ u.IsAt hour minute second :=
    ⟨⟨now.date, t.hour, t.minute, t.second, t.valid⟩, rfl, hclock⟩
  have hfound := Instant.onDate?_eq_some_iff.mpr ⟨htoday, hstamp⟩
  obtain ⟨u, hu⟩ : ∃ u, stamp ≤ now ∧ u = stamp ∨ ¬stamp ≤ now ∧ ∃ yesterday,
      now.date.yesterday? = some yesterday ∧ Instant.onDate? yesterday hour minute second = some u := by
    by_cases hpast : stamp ≤ now
    · exact ⟨stamp, Or.inl ⟨hpast, rfl⟩⟩
    · rcases hdate with hsame | hyesterday
      · -- at that time of today there is one instant only
        have heq := Instant.onDate?_eq_some_iff.mpr ⟨hsame, hclock⟩
        rw [hfound] at heq
        exact absurd (Option.some.inj heq ▸ hupTo) hpast
      · exact ⟨t, Or.inr ⟨hpast, t.date, hyesterday, Instant.onDate?_eq_some_iff.mpr ⟨rfl, hclock⟩⟩⟩
  refine ⟨u, bind_eq_ok_iff.mpr ⟨hour, number_eq_ok_iff.mpr hhour, ?_⟩⟩
  refine bind_eq_ok_iff.mpr ⟨minute, number_eq_ok_iff.mpr hminute, ?_⟩
  refine bind_eq_ok_iff.mpr ⟨second, number_eq_ok_iff.mpr hsecond, ?_⟩
  refine bind_eq_ok_iff.mpr ⟨stamp, orFault_eq_ok_iff.mpr hfound, ?_⟩
  rcases hu with ⟨hpast, rfl⟩ | ⟨hpast, yesterday, hyesterday, hu⟩
  · exact if_pos hpast
  · rw [if_neg hpast, hyesterday]
    exact orFault_eq_ok_iff.mpr hu

/-- Every time of day is near `now`, unless there is no day before. -/
theorem exists_near_of_isTimeOfDay {hour minute second : Nat} (hhour : Written payload start hour)
    (hminute : Written payload (start + 2) minute) (hsecond : Written payload (start + 4) second)
    (htime : IsTimeOfDay hour minute second) (hday : now.date.yesterday? ≠ none) :
    ∃ t, IsNear payload start now t .hourMinuteSecond := by
  obtain ⟨yesterday, hyesterday⟩ := Option.ne_none_iff_exists'.mp hday
  have hbefore : yesterday < now.date := (Date.yesterday?_isGreatest hyesterday).1
  exact ⟨⟨yesterday, hour, minute, second, htime⟩, hour, minute, second, hhour, hminute, hsecond,
    ⟨Instant.le_of_lt (Instant.lt_of_date_lt hbefore), Or.inr hyesterday⟩, rfl, rfl, rfl⟩

/-- A day of the year that is found is near `now`. -/
theorem monthDayHourMinute_near (h : monthDayHourMinute (payload.drop start) now = .ok t) :
    IsNear payload start now t .monthDayHourMinute := by
  obtain ⟨month, day, hour, minute, hmonth, hday, hhour, hminute, ⟨hupTo, hdate, hclock⟩, -⟩ :=
    monthDayHourMinute_isLatest h
  refine ⟨month, day, hour, minute, hmonth, hday, hhour, hminute, ⟨hupTo, ?_⟩, hdate, hclock⟩
  obtain ⟨_, -, h⟩ := bind_eq_ok_iff.mp h
  obtain ⟨_, -, h⟩ := bind_eq_ok_iff.mp h
  obtain ⟨_, -, h⟩ := bind_eq_ok_iff.mp h
  obtain ⟨_, -, h⟩ := bind_eq_ok_iff.mp h
  obtain ⟨stamp, hstamp, h⟩ := bind_eq_ok_iff.mp h
  by_cases hpast : stamp ≤ now
  · rw [if_pos hpast] at h
    cases Except.ok.inj h
    have hyear := (Instant.ofParts?_eq_some_iff.mp (orFault_eq_ok_iff.mp hstamp)).1.1
    omega
  · rw [if_neg hpast] at h
    have hyear := (Instant.ofParts?_eq_some_iff.mp (orFault_eq_ok_iff.mp h)).1.1
    omega

/-- If a day of the year is near `now`, one is found, unless it is the leap day of last year. -/
theorem exists_monthDayHourMinute (h : IsNear payload start now t .monthDayHourMinute)
    (hleap : ¬(t.date.year = now.date.year - 1 ∧ t.date.month = 2 ∧ t.date.day = 29)) :
    ∃ u, monthDayHourMinute (payload.drop start) now = .ok u := by
  obtain ⟨_, _, hour, minute, hmonth, hday, hhour, hminute, ⟨hupTo, hyear⟩, ⟨rfl, rfl⟩, hclock⟩ := h
  have hyear : t.date.year = now.date.year ∨ t.date.year = now.date.year - 1 := by
    have hdate := Date.le_iff.mp (Instant.date_le hupTo)
    omega
  have hthisYear : IsDate now.date.year t.date.month t.date.day := by
    rcases hyear with hyear | hyear
    · exact hyear ▸ t.date.valid
    · exact Date.isDate_of_not_leap t.date.valid now.date.valid.1 now.date.valid.2.1
        fun hday => hleap ⟨hyear, hday⟩
  obtain ⟨stamp, hparts⟩ : ∃ u : Instant, (u.date.year = now.date.year ∧
      u.date.month = t.date.month ∧ u.date.day = t.date.day) ∧ u.IsAt hour minute 0 :=
    ⟨⟨⟨_, _, _, hthisYear⟩, t.hour, t.minute, t.second, t.valid⟩, ⟨rfl, rfl, rfl⟩, hclock⟩
  have hfound := Instant.ofParts?_eq_some_iff.mpr hparts
  obtain ⟨u, hu⟩ : ∃ u, (if stamp ≤ now then .ok stamp else orFault .notInCalendar
      (Instant.ofParts? (now.date.year - 1) t.date.month t.date.day hour minute 0)) =
        Except.ok (ε := Fault) u := by
    by_cases hpast : stamp ≤ now
    · exact ⟨stamp, if_pos hpast⟩
    · rw [if_neg hpast]
      rcases hyear with hsame | hlast
      · -- on that day of this year there is one such instant only
        have heq := Instant.ofParts?_eq_some_iff.mpr ⟨⟨hsame, rfl, rfl⟩, hclock⟩
        rw [hfound] at heq
        exact absurd (Option.some.inj heq ▸ hupTo) hpast
      · exact ⟨t, orFault_eq_ok_iff.mpr
          (Instant.ofParts?_eq_some_iff.mpr ⟨⟨hlast, rfl, rfl⟩, hclock⟩)⟩
  refine ⟨u, bind_eq_ok_iff.mpr ⟨_, number_eq_ok_iff.mpr hmonth, ?_⟩⟩
  refine bind_eq_ok_iff.mpr ⟨_, number_eq_ok_iff.mpr hday, ?_⟩
  refine bind_eq_ok_iff.mpr ⟨hour, number_eq_ok_iff.mpr hhour, ?_⟩
  refine bind_eq_ok_iff.mpr ⟨minute, number_eq_ok_iff.mpr hminute, ?_⟩
  exact bind_eq_ok_iff.mpr ⟨stamp, orFault_eq_ok_iff.mpr hfound, hu⟩

theorem resolve_near (h : resolve format (payload.drop start) now = .ok t) :
    IsNear payload start now t format := by
  cases format with
  | dayHourMinuteZulu => exact dayHourMinute_near h
  | dayHourMinuteLocal => exact dayHourMinute_near h
  | hourMinuteSecond => exact hourMinuteSecond_near h
  | monthDayHourMinute => exact monthDayHourMinute_near h

/-! ## The leap day of last year -/

theorem Written.eq {place n m : Nat} (hn : Written payload place n) (hm : Written payload place m) :
    n = m := by
  have h := (number_eq_ok_iff (i := 0)).mpr hn
  rw [(number_eq_ok_iff (i := 0)).mpr hm] at h
  exact (Except.ok.inj h).symm

theorem Written.le_length {place n : Nat} (h : Written payload place n) :
    place + 2 ≤ payload.length := by
  have hlength := h.2.length_le
  rw [length_encode_pair h.1, List.length_drop] at hlength
  omega

/-- The leap day of last year is near `now`. -/
theorem LeapDayPassedOver.exists_near (h : LeapDayPassedOver payload start now) :
    ∃ t, IsNear payload start now t .monthDayHourMinute := by
  obtain ⟨-, hmonth, hday, hdate, hour, minute, hhour, hminute, htime⟩ := h
  refine ⟨⟨⟨_, _, _, hdate⟩, hour, minute, 0, htime⟩, 2, 29, hour, minute, hmonth, hday, hhour, hminute,
    ⟨?_, Int.le_refl _⟩, ⟨rfl, rfl⟩, rfl, rfl, rfl⟩
  refine Instant.le_of_lt (Instant.lt_of_date_lt (Date.lt_iff.mpr (Or.inl ?_)))
  show now.date.year - 1 < now.date.year
  omega

/-- But it is not found, as this year has no such day. -/
theorem LeapDayPassedOver.not_found (h : LeapDayPassedOver payload start now) :
    ¬∃ t, monthDayHourMinute (payload.drop start) now = .ok t := by
  rintro ⟨t, ht⟩
  obtain ⟨-, hmonth, hday, hdate, -⟩ := h
  obtain ⟨month, hmonth', ht⟩ := bind_eq_ok_iff.mp ht
  obtain ⟨day, hday', ht⟩ := bind_eq_ok_iff.mp ht
  obtain ⟨_, -, ht⟩ := bind_eq_ok_iff.mp ht
  obtain ⟨_, -, ht⟩ := bind_eq_ok_iff.mp ht
  obtain ⟨stamp, hstamp, -⟩ := bind_eq_ok_iff.mp ht
  obtain ⟨⟨hyear, hsame, hsameDay⟩, -⟩ :=
    Instant.ofParts?_eq_some_iff.mp (orFault_eq_ok_iff.mp hstamp)
  have hfebruary : stamp.date.month = 2 := hsame.trans ((number_eq_ok_iff.mp hmonth').eq hmonth)
  have hlast : stamp.date.day = 29 := hsameDay.trans ((number_eq_ok_iff.mp hday').eq hday)
  refine Date.not_isDate_of_leap_before hdate ?_
  have hvalid := stamp.date.valid
  rw [hyear, hfebruary, hlast] at hvalid
  exact hvalid

/-- Every other instant near `now` lets one be found. -/
theorem exists_resolve (hdigit : format = .monthDayHourMinute → payload[start + 6]?.any Decimal.isDigit)
    (hleap : ¬LeapDayPassedOver payload start now) (h : IsNear payload start now t format) :
    ∃ u, resolve format (payload.drop start) now = .ok u := by
  cases format with
  | dayHourMinuteZulu => exact exists_dayHourMinute h
  | dayHourMinuteLocal => exact exists_dayHourMinute h
  | hourMinuteSecond => exact exists_hourMinuteSecond h
  | monthDayHourMinute =>
    refine exists_monthDayHourMinute h ?_
    rintro ⟨hyear, hmonth, hday⟩
    obtain ⟨_, _, _, _, hmonth', hday', hhour, hminute, -, ⟨rfl, rfl⟩, rfl, rfl, hsecond⟩ := h
    have hdate := t.date.valid
    have htime := t.valid
    rw [hyear, hmonth, hday] at hdate
    rw [hsecond] at htime
    rw [hmonth] at hmonth'
    rw [hday] at hday'
    exact hleap ⟨hdigit rfl, hmonth', hday', hdate, _, _, hhour, hminute, htime⟩

/-! ## The timestamp at a place -/

theorem ofIndicator?_eq_monthDayHourMinute_iff (indicator : UInt8) :
    TimeFormat.ofIndicator? indicator = some .monthDayHourMinute ↔ Decimal.isDigit indicator = true := by
  have hall : ∀ n < 256, TimeFormat.ofIndicator? (UInt8.ofNat n) = some .monthDayHourMinute ↔
      Decimal.isDigit (UInt8.ofNat n) = true := by
    decide +kernel
  rw [← UInt8.ofNat_toNat (x := indicator)]
  exact hall indicator.toNat indicator.toNat_lt

/-- A timestamp has no instant if its indicator is not there. -/
theorem instant_eq_none_iff :
    (decode payload start now).1.instant = none ↔ payload.length < start + 7 := by
  rcases decode_cases payload start now with ⟨hplace, h⟩ | ⟨_, hplace, -, h⟩ |
    ⟨indicator, format, hplace, -, h⟩
  · have hlength := List.getElem?_eq_none_iff.mp hplace
    rw [h]
    exact iff_of_true rfl (by omega)
  · obtain ⟨hlength, -⟩ := List.getElem?_eq_some_iff.mp hplace
    rw [h]
    exact iff_of_false (fun heq => nomatch heq) (by omega)
  · obtain ⟨hlength, -⟩ := List.getElem?_eq_some_iff.mp hplace
    rw [h]
    refine iff_of_false ?_ (by omega)
    cases resolve format (payload.drop start) now <;> exact fun heq => nomatch heq

/-- A timestamp with a fault stands at the epoch, if anywhere. -/
theorem instant_of_fault (hfault : (decode payload start now).1.fault ≠ none)
    (hinstant : (decode payload start now).1.instant ≠ none) :
    (decode payload start now).1.instant = some .epoch := by
  rcases decode_cases payload start now with ⟨-, h⟩ | ⟨_, -, -, h⟩ | ⟨_, format, -, -, h⟩
  · rw [h] at hinstant
    exact absurd rfl hinstant
  · rw [h]
  · rw [h] at hfault ⊢
    cases hresolve : resolve format (payload.drop start) now with
    | error fault => rfl
    | ok t =>
      rw [hresolve] at hfault
      exact absurd rfl hfault

/-- A timestamp of a known form is without fault if an instant is found for it. -/
theorem fault_ne_none_iff (h : payload[start + 6]?.bind TimeFormat.ofIndicator? = some format) :
    (decode payload start now).1.fault ≠ none ↔
      ¬∃ t, resolve format (payload.drop start) now = .ok t := by
  rcases decode_cases payload start now with ⟨hplace, -⟩ | ⟨_, hplace, hform, -⟩ |
    ⟨_, told, hplace, hform, hdecode⟩
  · rw [hplace] at h
    contradiction
  · rw [hplace, Option.bind_some, hform] at h
    contradiction
  · rw [hplace, Option.bind_some, hform] at h
    cases Option.some.inj h
    rw [hdecode]
    cases resolve format (payload.drop start) now with
    | ok t => exact iff_of_false (fun hne => hne rfl) (fun hnone => hnone ⟨t, rfl⟩)
    | error fault =>
      refine iff_of_true (fun heq => nomatch heq) ?_
      rintro ⟨t, ht⟩
      exact nomatch ht

/-- **A timestamp goes by the rules** unless it is cut before its very last octet or names the leap day of
last year, and exactly then. -/
theorem decode_explained_iff (payload : Bytes) (start : Nat) (now : Instant) :
    Explained payload start now ↔
      ¬CutBeforeLast payload start ∧ ¬LeapDayPassedOver payload start now := by
  constructor
  · intro h
    constructor
    · rintro ⟨hdigit, hlength⟩
      have habsent := h.absent_iff
      rw [instant_eq_none_iff, fieldWidth, if_pos hdigit] at habsent
      omega
    · intro hleap
      obtain ⟨indicator, hplace, hindicator⟩ := (Option.any_eq_true _ _).mp hleap.1
      have hform : payload[start + 6]?.bind TimeFormat.ofIndicator? = some .monthDayHourMinute := by
        rw [hplace]
        exact (ofIndicator?_eq_monthDayHourMinute_iff indicator).mpr hindicator
      obtain ⟨_, _, -, hminute, -⟩ := hleap.2.2.2.2
      have hfault := (fault_ne_none_iff hform).mpr hleap.not_found
      exact (h.fault_iff _ hform hminute.le_length).mp hfault hleap.exists_near
  · rintro ⟨hcut, hleap⟩
    refine ⟨?_, fun format hform _ => ?_, instant_of_fault⟩
    · -- of a timestamp of eight octets the seventh is there, so one that is cut ends right behind it
      rw [instant_eq_none_iff, fieldWidth]
      by_cases hdigit : payload[start + 6]?.any Decimal.isDigit = true
      · obtain ⟨_, hplace, -⟩ := (Option.any_eq_true _ _).mp hdigit
        obtain ⟨hroom, -⟩ := List.getElem?_eq_some_iff.mp hplace
        have hlength : payload.length ≠ start + 7 := fun heq => hcut ⟨hdigit, heq⟩
        rw [if_pos hdigit]
        omega
      · rw [if_neg hdigit]
    · have hdigit : format = .monthDayHourMinute → payload[start + 6]?.any Decimal.isDigit := by
        rintro rfl
        obtain ⟨indicator, hplace, hindicator⟩ := Option.bind_eq_some_iff.mp hform
        rw [hplace]
        exact (ofIndicator?_eq_monthDayHourMinute_iff indicator).mp hindicator
      rw [fault_ne_none_iff hform]
      refine not_congr ⟨fun ⟨t, ht⟩ => ⟨t, resolve_near ht⟩, fun ⟨t, ht⟩ => ?_⟩
      exact exists_resolve hdigit hleap ht

/-- Seven octets of a timestamp of eight stand at the epoch, though one octet is missing; and in January
of the year after a leap year, its leap day is at fault. -/
theorem not_explained_cut_or_leap_day :
    ¬Explained (Utf8.encode "@0102030".toList) 1 ⟨⟨2024, 3, 20, by decide⟩, 12, 0, 0, by decide⟩ ∧
      ¬Explained (Utf8.encode "@02291200".toList) 1 ⟨⟨2025, 1, 15, by decide⟩, 12, 0, 0, by decide⟩ := by
  constructor
  · intro h
    have hstands : (decode (Utf8.encode "@0102030".toList) 1
        ⟨⟨2024, 3, 20, by decide⟩, 12, 0, 0, by decide⟩).1.instant = some .epoch := by decide +kernel
    have habsent := h.absent_iff.mpr (by decide +kernel)
    rw [hstands] at habsent
    exact nomatch habsent
  · intro h
    have hleap : LeapDayPassedOver (Utf8.encode "@02291200".toList) 1
        ⟨⟨2025, 1, 15, by decide⟩, 12, 0, 0, by decide⟩ :=
      ⟨by decide +kernel, by decide +kernel, by decide +kernel, by decide +kernel, 12, 0,
        by decide +kernel, by decide +kernel, by decide⟩
    have hfault := h.fault_iff .monthDayHourMinute (by decide +kernel) (by decide +kernel)
    exact hfault.mp (by decide +kernel) hleap.exists_near

end Timestamp

end Aprs
