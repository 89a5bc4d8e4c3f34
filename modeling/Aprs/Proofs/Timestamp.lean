import Aprs.Proofs.Calendar
import Aprs.Proofs.Decimal
import Aprs.Timestamp

/-!
# The instant that a timestamp means

A timestamp gives some parts of an instant and leaves the rest to `now`. The rules for the rest are one
law: the instant meant is the latest that is not after `now` and has the parts given, and where only
the day of the month is given, it is the day that is the latest.

> `decode_isLatest`: a timestamp read without a fault is of the form that its indicator tells, its
> numbers stand in the payload as two digits each, and its instant is the latest one with those numbers.

The law says nothing of a timestamp with a fault. Of every timestamp, the form and the place behind it
depend on the indicator alone (`decode_format`, `decode_snd`).

Specification: 4.2 (Time Decoder) and 12.4 (Time).
-/

namespace Aprs

/-! ## Numbers of two digits -/

/-- Two octets are read as a number exactly if they are the digits of one, zero before it included. -/
theorem Decimal.field?_pair_eq_some_iff {a b : UInt8} {n : Nat} :
    field? [a, b] = some n ↔ n < 100 ∧ Utf8.encode (padded 2 n) = [a, b] := by
  have hpadded (hn : n < 100) : padded 2 n = lowDigits 2 n := padded_eq_lowDigits (by decide) hn
  constructor
  · intro h
    obtain ⟨-, -, hdigits, rfl⟩ := field?_eq_some_iff.mp h
    have hn : value [a, b] < 100 := value_lt hdigits
    refine ⟨hn, ?_⟩
    rw [hpadded hn]
    exact (congrArg Utf8.encode (lowDigits_value hdigits)).trans
      (Utf8.encode_map_charOfByte fun c hc => Nat.lt_of_le_of_lt (hdigits c hc).2 (by decide))
  · rintro ⟨hn, hoctets⟩
    rw [← hoctets, hpadded hn]
    exact field?_lowDigits (by decide) (by decide) hn

namespace Timestamp

variable {payload : Bytes} {start i n : Nat} {now t : Instant} {format : TimeFormat}

/-- Whether a number of two digits stands at a place of a payload. -/
def Written (payload : Bytes) (place n : Nat) : Prop :=
  n < 100 ∧ Utf8.encode (Decimal.padded 2 n) <+: payload.drop place

theorem length_encode_pair (h : n < 100) : (Utf8.encode (Decimal.padded 2 n)).length = 2 := by
  rw [Decimal.padded_eq_lowDigits (by decide) h, Decimal.length_encode_lowDigits]

/-- A number of a timestamp is read exactly if it is written there. -/
theorem number_eq_ok_iff :
    number (payload.drop start) i = .ok n ↔ Written payload (start + 2 * i) n := by
  unfold number Written
  rw [List.drop_drop]
  match payload.drop (start + 2 * i) with
  | a :: b :: rest =>
    have hfield := Decimal.field?_pair_eq_some_iff (a := a) (b := b) (n := n)
    have hpair (hn : n < 100) : Utf8.encode (Decimal.padded 2 n) <+: a :: b :: rest ↔
        Utf8.encode (Decimal.padded 2 n) = [a, b] := by
      rw [List.prefix_iff_eq_take, length_encode_pair hn]
      rfl
    rw [and_congr_right hpair, ← hfield]
    dsimp only
    cases Decimal.field? [a, b] <;> simp
  | [] => exact ⟨fun h => (nomatch h), fun h => by simpa [length_encode_pair h.1] using h.2.length_le⟩
  | [a] => exact ⟨fun h => (nomatch h), fun h => by simpa [length_encode_pair h.1] using h.2.length_le⟩

/-! ## The instant of each form -/

theorem orFault_eq_ok_iff {fault : Fault} {found : Option Instant} :
    orFault fault found = .ok t ↔ found = some t := by
  cases found with
  | none => exact ⟨fun h => (nomatch h), fun h => (nomatch h)⟩
  | some _ => exact ⟨fun h => congrArg some (Except.ok.inj h), fun h => congrArg _ (Option.some.inj h)⟩

/-- Whether an instant has the numbers of a timestamp of a form, and is the latest such one up to `now`.
Where only the day of the month and the time are given, the day is the latest up to that of `now`. -/
def IsLatest (payload : Bytes) (start : Nat) (now t : Instant) : TimeFormat → Prop
  | .dayHourMinuteZulu | .dayHourMinuteLocal =>
    ∃ day hour minute, Written payload start day ∧ Written payload (start + 2) hour ∧
      Written payload (start + 4) minute ∧
      IsGreatest {d : Date | d ≤ now.date ∧ d.day = day} t.date ∧ t.IsAt hour minute 0
  | .hourMinuteSecond =>
    ∃ hour minute second, Written payload start hour ∧ Written payload (start + 2) minute ∧
      Written payload (start + 4) second ∧
      IsGreatest {u : Instant | u ≤ now ∧ u.IsAt hour minute second} t
  | .monthDayHourMinute =>
    ∃ month day hour minute, Written payload start month ∧ Written payload (start + 2) day ∧
      Written payload (start + 4) hour ∧ Written payload (start + 6) minute ∧
      IsGreatest {u : Instant | u ≤ now ∧ (u.date.month = month ∧ u.date.day = day) ∧
        u.IsAt hour minute 0} t

/-- The day found is the latest with its number, in this month or the last. -/
theorem dayHourMinute_isLatest (h : dayHourMinute (payload.drop start) now = .ok t) :
    IsLatest payload start now t .dayHourMinuteZulu := by
  obtain ⟨day, hday, h⟩ := bind_eq_ok_iff.mp h
  obtain ⟨hour, hhour, h⟩ := bind_eq_ok_iff.mp h
  obtain ⟨minute, hminute, h⟩ := bind_eq_ok_iff.mp h
  refine ⟨day, hour, minute, number_eq_ok_iff.mp hday, number_eq_ok_iff.mp hhour,
    number_eq_ok_iff.mp hminute, ?_⟩
  obtain ⟨year, month, hparts, h⟩ : ∃ year month, (year, month) =
      (if day ≤ now.date.day then (now.date.year, now.date.month)
        else if now.date.month = 1 then (now.date.year - 1, 12)
        else (now.date.year, now.date.month - 1)) ∧
      orFault .notInCalendar (Instant.ofParts? year month day hour minute 0) = .ok t :=
    ⟨_, _, rfl, h⟩
  obtain ⟨⟨rfl, rfl, hnumber⟩, hclock⟩ := Instant.ofParts?_eq_some_iff.mp (orFault_eq_ok_iff.mp h)
  exact ⟨Date.isGreatest_of_month hparts hnumber, hclock⟩

/-- The time found is the latest of today or yesterday. -/
theorem hourMinuteSecond_isLatest (h : hourMinuteSecond (payload.drop start) now = .ok t) :
    IsLatest payload start now t .hourMinuteSecond := by
  obtain ⟨hour, hhour, h⟩ := bind_eq_ok_iff.mp h
  obtain ⟨minute, hminute, h⟩ := bind_eq_ok_iff.mp h
  obtain ⟨second, hsecond, h⟩ := bind_eq_ok_iff.mp h
  obtain ⟨stamp, hstamp, h⟩ := bind_eq_ok_iff.mp h
  obtain ⟨hdate, hclock⟩ := Instant.onDate?_eq_some_iff.mp (orFault_eq_ok_iff.mp hstamp)
  refine ⟨hour, minute, second, number_eq_ok_iff.mp hhour, number_eq_ok_iff.mp hminute,
    number_eq_ok_iff.mp hsecond, ?_⟩
  by_cases hpast : stamp ≤ now
  · rw [if_pos hpast] at h
    cases Except.ok.inj h
    exact Instant.isGreatest_today hdate hclock hpast
  · rw [if_neg hpast] at h
    cases hyesterday : now.date.yesterday? with
    | none =>
      rw [hyesterday] at h
      exact nomatch h
    | some yesterday =>
      rw [hyesterday] at h
      obtain ⟨rfl, hclock'⟩ := Instant.onDate?_eq_some_iff.mp (orFault_eq_ok_iff.mp h)
      exact Instant.isGreatest_yesterday hdate hclock hpast hyesterday hclock'

/-- The day of the year found is the latest in this year or the last. -/
theorem monthDayHourMinute_isLatest (h : monthDayHourMinute (payload.drop start) now = .ok t) :
    IsLatest payload start now t .monthDayHourMinute := by
  obtain ⟨month, hmonth, h⟩ := bind_eq_ok_iff.mp h
  obtain ⟨day, hday, h⟩ := bind_eq_ok_iff.mp h
  obtain ⟨hour, hhour, h⟩ := bind_eq_ok_iff.mp h
  obtain ⟨minute, hminute, h⟩ := bind_eq_ok_iff.mp h
  obtain ⟨stamp, hstamp, h⟩ := bind_eq_ok_iff.mp h
  obtain ⟨⟨hyear, hdate⟩, hclock⟩ := Instant.ofParts?_eq_some_iff.mp (orFault_eq_ok_iff.mp hstamp)
  refine ⟨month, day, hour, minute, number_eq_ok_iff.mp hmonth, number_eq_ok_iff.mp hday,
    number_eq_ok_iff.mp hhour, number_eq_ok_iff.mp hminute, ?_⟩
  by_cases hpast : stamp ≤ now
  · rw [if_pos hpast] at h
    cases Except.ok.inj h
    exact Instant.isGreatest_this_year hyear hdate hclock hpast
  · rw [if_neg hpast] at h
    obtain ⟨⟨hyear', hdate'⟩, hclock'⟩ :=
      Instant.ofParts?_eq_some_iff.mp (orFault_eq_ok_iff.mp h)
    exact Instant.isGreatest_last_year hyear hdate hclock hpast hyear' hdate' hclock'

/-- **Each form gives the latest instant** that is not after now. -/
theorem resolve_isLatest (h : resolve format (payload.drop start) now = .ok t) :
    IsLatest payload start now t format := by
  cases format with
  | dayHourMinuteZulu => exact dayHourMinute_isLatest h
  | dayHourMinuteLocal => exact dayHourMinute_isLatest h
  | hourMinuteSecond => exact hourMinuteSecond_isLatest h
  | monthDayHourMinute => exact monthDayHourMinute_isLatest h

/-! ## The timestamp at a place -/

/-- The timestamp of a form whose field was resolved, or not. -/
def ofResult (format : TimeFormat) : Except Fault Instant → Timestamp
  | .ok t => ⟨some format, some t, none⟩
  | .error fault => ⟨some format, some .epoch, some fault⟩

/-- A timestamp is cut short, or its indicator tells no form, or it tells the one that is resolved. -/
theorem decode_cases (payload : Bytes) (start : Nat) (now : Instant) :
    (payload[start + 6]? = none ∧ decode payload start now =
      (⟨none, none, some .cutShort⟩, min (start + 7) payload.length)) ∨
    (∃ indicator, payload[start + 6]? = some indicator ∧ TimeFormat.ofIndicator? indicator = none ∧
      decode payload start now =
        (⟨none, some .epoch, some (.unsupportedIndicator (charOfByte indicator))⟩,
          min (start + 7) payload.length)) ∨
    (∃ indicator format, payload[start + 6]? = some indicator ∧
      TimeFormat.ofIndicator? indicator = some format ∧ decode payload start now =
        (ofResult format (resolve format (payload.drop start) now),
          min (start + format.width) payload.length)) := by
  unfold decode
  rw [show start + (indicatorWidth - 1) = start + 6 from rfl]
  cases payload[start + 6]? with
  | none => exact Or.inl ⟨rfl, rfl⟩
  | some indicator =>
    cases hformat : TimeFormat.ofIndicator? indicator with
    | none => exact Or.inr (Or.inl ⟨indicator, rfl, hformat, by simp only [hformat, indicatorWidth]⟩)
    | some format =>
      refine Or.inr (Or.inr ⟨indicator, format, rfl, hformat, ?_⟩)
      simp only [hformat]
      cases resolve format (payload.drop start) now <;> rfl

/-- The form of a timestamp is the one that its indicator tells. -/
theorem decode_format (payload : Bytes) (start : Nat) (now : Instant) :
    (decode payload start now).1.format = payload[start + 6]?.bind TimeFormat.ofIndicator? := by
  rcases decode_cases payload start now with ⟨hplace, h⟩ | ⟨indicator, hplace, hform, h⟩ |
    ⟨indicator, format, hplace, hform, h⟩
  · rw [h, hplace]
    rfl
  · rw [h, hplace]
    exact hform.symm
  · rw [h, hplace]
    refine Eq.trans ?_ hform.symm
    cases resolve format (payload.drop start) now <;> rfl

/-- An indicator that is a digit belongs to the form that takes eight octets, and no other does. -/
theorem width_ofIndicator? (indicator : UInt8) :
    ((TimeFormat.ofIndicator? indicator).map TimeFormat.width).getD 7 =
      if Decimal.isDigit indicator then 8 else 7 := by
  have hall : ∀ n < 256, ((TimeFormat.ofIndicator? (UInt8.ofNat n)).map TimeFormat.width).getD 7 =
      if Decimal.isDigit (UInt8.ofNat n) then 8 else 7 := by decide +kernel
  rw [← UInt8.ofNat_toNat (x := indicator)]
  exact hall indicator.toNat indicator.toNat_lt

/-- The place behind a timestamp, whether it is sound or not: eight octets on if the seventh of them
is a digit, seven octets on otherwise, as far as there are any. -/
theorem decode_snd (payload : Bytes) (start : Nat) (now : Instant) :
    (decode payload start now).2 =
      min (start + if payload[start + 6]?.any Decimal.isDigit then 8 else 7) payload.length := by
  rcases decode_cases payload start now with ⟨hplace, h⟩ | ⟨indicator, hplace, hform, h⟩ |
    ⟨indicator, format, hplace, hform, h⟩
  · rw [h, hplace]
    rfl
  · have hwidth := width_ofIndicator? indicator
    rw [hform] at hwidth
    rw [h, hplace, Option.any_some, ← hwidth]
    rfl
  · have hwidth := width_ofIndicator? indicator
    rw [hform] at hwidth
    rw [h, hplace, Option.any_some, ← hwidth]
    rfl

/-- **A timestamp read without a fault is the latest instant with its numbers** that is not after `now`,
as its form counts it. -/
theorem decode_isLatest (h : (decode payload start now).1.fault = none) :
    ∃ format t, payload[start + 6]?.bind TimeFormat.ofIndicator? = some format ∧
      (decode payload start now).1 = ⟨some format, some t, none⟩ ∧
      IsLatest payload start now t format := by
  rcases decode_cases payload start now with ⟨-, hdecode⟩ | ⟨_, -, -, hdecode⟩ |
    ⟨indicator, format, hplace, hform, hdecode⟩
  · rw [hdecode] at h
    exact nomatch h
  · rw [hdecode] at h
    exact nomatch h
  · rw [hdecode] at h ⊢
    cases hresolve : resolve format (payload.drop start) now with
    | error fault =>
      rw [hresolve] at h
      exact nomatch h
    | ok t =>
      refine ⟨format, t, ?_, rfl, resolve_isLatest hresolve⟩
      rw [hplace]
      exact hform

/-- In the first days of March, the 29th is that of February if there is one. -/
theorem decode_isLatest_leap_day :
    (decode (Utf8.encode "@291200z".toList) 1
      ⟨⟨2024, 3, 5, by decide⟩, 0, 0, 0, by decide⟩).1.fault = none ∧
    IsLatest (Utf8.encode "@291200z".toList) 1 ⟨⟨2024, 3, 5, by decide⟩, 0, 0, 0, by decide⟩
      ⟨⟨2024, 2, 29, by decide⟩, 12, 0, 0, by decide⟩ .dayHourMinuteZulu := by
  have hsound : (decode (Utf8.encode "@291200z".toList) 1
      ⟨⟨2024, 3, 5, by decide⟩, 0, 0, 0, by decide⟩).1 =
      ⟨some .dayHourMinuteZulu, some ⟨⟨2024, 2, 29, by decide⟩, 12, 0, 0, by decide⟩, none⟩ := by
    decide +kernel
  obtain ⟨format, t, -, hdecode, hlatest⟩ := decode_isLatest (congrArg Timestamp.fault hsound)
  rw [hsound] at hdecode
  cases hdecode
  exact ⟨congrArg Timestamp.fault hsound, hlatest⟩

end Timestamp

end Aprs
