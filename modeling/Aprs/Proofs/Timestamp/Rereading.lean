import Aprs.Object
import Aprs.Proofs.Timestamp
import Aprs.Text.Utf8.RoundTrip

/-!
# Timestamps that are sent on

An object writes its timestamp as it is given: three numbers of two digits, and the indicator of its form.
What a timestamp of such a form means depends on these numbers alone (`resolve_congr`), and they are parts of
the instant meant (`written_of_resolve`). Hence

> `decode_timeText`: a timestamp that was read without a fault is read from its text as it was, if `now` is
> the same.

The form with a month has a number more than an object writes.

Specification: 12.4 (Time) and 14 (Resolved Ambiguities).
-/

namespace Aprs

namespace TimeFormat

/-- The parts of an instant that an object writes in a form. -/
def parts (format : TimeFormat) (t : Instant) : List Nat :=
  match format with
  | .hourMinuteSecond => [t.hour, t.minute, t.second]
  | _ => [t.date.day, t.hour, t.minute]

/-- The indicator that an object writes for a form. -/
def indicator : TimeFormat → Char
  | .hourMinuteSecond => 'h'
  | .dayHourMinuteLocal => '/'
  | _ => 'z'

/-- A form that has an indicator is told by it. -/
theorem ofIndicator?_indicator {format : TimeFormat} (h : format ≠ .monthDayHourMinute) :
    ofIndicator? (UInt8.ofNat format.indicator.toNat) = some format := by
  cases format with
  | monthDayHourMinute => exact absurd rfl h
  | _ => decide

theorem length_parts (format : TimeFormat) (t : Instant) : (format.parts t).length = 3 := by
  cases format <;> rfl

theorem parts_lt (format : TimeFormat) (t : Instant) : ∀ n ∈ format.parts t, n < 100 := by
  have hday := t.date.parts_range
  obtain ⟨hhour, hminute, hsecond⟩ := t.valid
  cases format <;> simp only [parts, List.forall_mem_cons] <;>
    exact ⟨by omega, by omega, by omega, nofun⟩

end TimeFormat

/-- The text of a timestamp: its three numbers and its indicator. -/
theorem Object.timeText_eq (format : TimeFormat) (t : Instant) (fault : Option Timestamp.Fault) :
    timeText ⟨some format, some t, fault⟩ =
      (format.parts t).flatMap (Decimal.padded 2) ++ [format.indicator] := by
  cases format <;> simp [timeText, TimeFormat.parts, TimeFormat.indicator]

namespace Timestamp

variable {payload again rest : Bytes} {start start' : Nat} {now t : Instant} {format : TimeFormat}

theorem length_encode_pairs {numbers : List Nat} (h : ∀ n ∈ numbers, n < 100) :
    (Utf8.encode (numbers.flatMap (Decimal.padded 2))).length = 2 * numbers.length := by
  induction numbers with
  | nil => rfl
  | cons first more ih =>
    obtain ⟨hfirst, hmore⟩ := List.forall_mem_cons.mp h
    rw [List.flatMap_cons, Utf8.encode_append, List.length_append, length_encode_pair hfirst, ih hmore,
      List.length_cons]
    omega

/-- Numbers that are written one behind the other stand at every second place. -/
theorem written_of_drop {numbers : List Nat} (hnumbers : ∀ n ∈ numbers, n < 100)
    (h : payload.drop start = Utf8.encode (numbers.flatMap (Decimal.padded 2)) ++ rest) :
    ∀ i n, numbers[i]? = some n → Written payload (start + 2 * i) n := by
  induction numbers generalizing start with
  | nil => exact fun i n hn => nomatch hn
  | cons first more ih =>
    obtain ⟨hfirst, hmore⟩ := List.forall_mem_cons.mp hnumbers
    rw [List.flatMap_cons, Utf8.encode_append, List.append_assoc] at h
    intro i n hn
    cases i with
    | zero =>
      obtain rfl : first = n := Option.some.inj hn
      exact ⟨hfirst, _, h.symm⟩
    | succ i =>
      have hdrop : payload.drop (start + 2) = Utf8.encode (more.flatMap (Decimal.padded 2)) ++ rest := by
        rw [← List.drop_drop, h, List.drop_left' (length_encode_pair hfirst)]
      have hplace : start + 2 * (i + 1) = start + 2 + 2 * i := by omega
      rw [hplace]
      exact ih hmore hdrop i n hn

theorem written_three {first second third : Nat} (hfirst : Written payload start first)
    (hsecond : Written payload (start + 2) second) (hthird : Written payload (start + 4) third) :
    ∀ i n, [first, second, third][i]? = some n → Written payload (start + 2 * i) n := by
  intro i n hn
  match i, hn with
  | 0, hn => exact Option.some.inj hn ▸ hfirst
  | 1, hn => exact Option.some.inj hn ▸ hsecond
  | 2, hn => exact Option.some.inj hn ▸ hthird

/-- The numbers of a timestamp without a month are parts of the instant that it means. -/
theorem written_of_resolve (hformat : format ≠ .monthDayHourMinute)
    (h : resolve format (payload.drop start) now = .ok t) :
    ∀ i n, (format.parts t)[i]? = some n → Written payload (start + 2 * i) n := by
  have hlatest := resolve_isLatest h
  cases format with
  | monthDayHourMinute => exact absurd rfl hformat
  | hourMinuteSecond =>
    obtain ⟨_, _, _, hhour, hminute, hsecond, ⟨-, rfl, rfl, rfl⟩, -⟩ := hlatest
    exact written_three hhour hminute hsecond
  | dayHourMinuteZulu =>
    obtain ⟨_, _, _, hday, hhour, hminute, ⟨⟨-, rfl⟩, -⟩, rfl, rfl, -⟩ := hlatest
    exact written_three hday hhour hminute
  | dayHourMinuteLocal =>
    obtain ⟨_, _, _, hday, hhour, hminute, ⟨⟨-, rfl⟩, -⟩, rfl, rfl, -⟩ := hlatest
    exact written_three hday hhour hminute

/-- What a timestamp without a month means depends on its three numbers. -/
theorem resolve_congr {field field' : Bytes} (hformat : format ≠ .monthDayHourMinute)
    (h : ∀ i < 3, number field i = number field' i) :
    resolve format field now = resolve format field' now := by
  have hfirst := h 0 (by decide)
  have hsecond := h 1 (by decide)
  have hthird := h 2 (by decide)
  have hday : dayHourMinute field now = dayHourMinute field' now := by
    unfold dayHourMinute
    rw [hfirst, hsecond, hthird]
  cases format with
  | monthDayHourMinute => exact absurd rfl hformat
  | hourMinuteSecond =>
    show hourMinuteSecond field now = hourMinuteSecond field' now
    unfold hourMinuteSecond
    rw [hfirst, hsecond, hthird]
  | dayHourMinuteZulu => exact hday
  | dayHourMinuteLocal => exact hday

/-- What is resolved is decoded, its place and indicator aside. -/
theorem decode_of_resolve {indicator : UInt8} (hplace : payload[start + 6]? = some indicator)
    (hform : TimeFormat.ofIndicator? indicator = some format)
    (hresolve : resolve format (payload.drop start) now = .ok t) :
    decode payload start now =
      (⟨some format, some t, none⟩, min (start + format.width) payload.length) := by
  rcases decode_cases payload start now with ⟨hplace', -⟩ | ⟨_, hplace', hform', -⟩ |
    ⟨_, _, hplace', hform', hdecode⟩
  · rw [hplace] at hplace'
    contradiction
  · obtain rfl := Option.some.inj (hplace.symm.trans hplace')
    rw [hform] at hform'
    contradiction
  · obtain rfl := Option.some.inj (hplace.symm.trans hplace')
    obtain rfl := Option.some.inj (hform.symm.trans hform')
    rw [hdecode, hresolve]
    rfl

/-- A timestamp that was read without a fault has a form and an instant that this form was resolved to. -/
theorem exists_resolve_of_sound (h : (decode payload start now).1.fault = none) :
    ∃ format t, (decode payload start now).1 = ⟨some format, some t, none⟩ ∧
      resolve format (payload.drop start) now = .ok t := by
  rcases decode_cases payload start now with ⟨-, hdecode⟩ | ⟨_, -, -, hdecode⟩ |
    ⟨_, format, -, -, hdecode⟩
  · rw [hdecode] at h
    contradiction
  · rw [hdecode] at h
    contradiction
  · rw [hdecode] at h ⊢
    cases hresolve : resolve format (payload.drop start) now with
    | error fault =>
      rw [hresolve] at h
      contradiction
    | ok t => exact ⟨format, t, rfl, hresolve⟩

/-- A timestamp is written in seven octets. -/
theorem length_encode_timeText (format : TimeFormat) (t : Instant) (fault : Option Fault) :
    (Utf8.encode (Object.timeText ⟨some format, some t, fault⟩)).length = 7 := by
  have hindicator : Utf8.encode [format.indicator] = [UInt8.ofNat format.indicator.toNat] :=
    Utf8.encode_cons_ascii (by cases format <;> decide) []
  rw [Object.timeText_eq, Utf8.encode_append, List.length_append, hindicator,
    length_encode_pairs (format.parts_lt t), format.length_parts]
  rfl

/-- **A timestamp that was read is read from its text as it was**, whatever stands behind it. -/
theorem decode_timeText (hfault : (decode payload start now).1.fault = none)
    (hformat : (decode payload start now).1.format ≠ some .monthDayHourMinute)
    (hagain : again.drop start' = Utf8.encode (Object.timeText (decode payload start now).1) ++ rest) :
    decode again start' now = ((decode payload start now).1, start' + 7) := by
  obtain ⟨format, t, hread, hresolve⟩ := exists_resolve_of_sound hfault
  rw [hread] at hformat hagain ⊢
  have hformat : format ≠ .monthDayHourMinute := fun h => hformat (congrArg some h)
  rw [Object.timeText_eq, Utf8.encode_append, List.append_assoc] at hagain
  -- the same three numbers are written in both places, and they are all that is resolved
  have hwritten := written_of_resolve hformat hresolve
  have hwritten' := written_of_drop (format.parts_lt t) hagain
  have hnumbers : ∀ i < 3, number (again.drop start') i = number (payload.drop start) i := by
    intro i hi
    have hlt : i < (format.parts t).length := by
      rw [format.length_parts]
      exact hi
    have hpart := List.getElem?_eq_getElem hlt
    rw [number_eq_ok_iff.mpr (hwritten i _ hpart), number_eq_ok_iff.mpr (hwritten' i _ hpart)]
  have hsix := length_encode_pairs (format.parts_lt t)
  rw [format.length_parts] at hsix
  have hindicator : Utf8.encode [format.indicator] = [UInt8.ofNat format.indicator.toNat] :=
    Utf8.encode_cons_ascii (by cases format <;> decide) []
  rw [hindicator] at hagain
  have hplace : again[start' + 6]? = some (UInt8.ofNat format.indicator.toNat) := by
    rw [← List.getElem?_drop, hagain, List.getElem?_append_right (Nat.le_of_eq hsix), hsix]
    rfl
  have hroom : start' + 7 ≤ again.length := (List.getElem?_eq_some_iff.mp hplace).choose
  have hwidth : format.width = 7 := by
    cases format with
    | monthDayHourMinute => exact absurd rfl hformat
    | _ => rfl
  rw [decode_of_resolve hplace (TimeFormat.ofIndicator?_indicator hformat)
    ((resolve_congr hformat hnumbers).trans hresolve), hwidth, Nat.min_eq_left hroom]

end Timestamp

end Aprs
