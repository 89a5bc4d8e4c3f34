import Aprs.Checked.Timestamp

/-!
# No check of a timestamp fails

A field has at most nine digits, so the sum stays below `10 ^ 9` and within its word
(`digitsFrom?_eq`). A `Reader` asks for two digits only where two are left. The number of a day is at
least one and that of a year lies far inside its word, since the instant `now` is one of the calendar.

> `decodeTimestamp_eq`: the checked reading of a timestamp is never aborted and agrees with the
> total one.

Specification: 4.2 (Time Decoder).
-/

namespace Aprs.Checked

/-! ## Digits -/

theorem isDigit_eq_true {b : UInt8} (h : Decimal.isDigit b = true) :
    48 ≤ b.toNat ∧ b.toNat ≤ 57 ∧ Decimal.digit? b = some (b.toNat - 48) := by
  unfold Decimal.isDigit Decimal.digit? at h
  split at h
  · next hb => exact ⟨hb.1, hb.2, if_pos hb⟩
  · simp at h

theorem digit?_of_not_isDigit {b : UInt8} (h : ¬ Decimal.isDigit b = true) :
    Decimal.digit? b = none := by
  unfold Decimal.isDigit at h
  simpa using h

/-- The sum stays within its word: with the digits to come it is below `10 ^ 9`. -/
theorem digitsFrom?_eq {octets : Bytes} :
    ∀ {n : Nat}, (n + 1) * Nat.pow 10 octets.length ≤ Nat.pow 10 9 →
      digitsFrom? n octets = .ok (Decimal.readFrom? n octets) := by
  induction octets with
  | nil => intro n _; rfl
  | cons b rest ih =>
    intro n h
    unfold digitsFrom? Decimal.readFrom?
    by_cases hb : Decimal.isDigit b = true
    · obtain ⟨low, high, hdigit⟩ := isDigit_eq_true hb
      -- the digit uses up one of those to come, and the bound stays as it is
      have hstep : (10 * n + (b.toNat - 48) + 1) * Nat.pow 10 rest.length ≤ Nat.pow 10 9 :=
        Nat.le_trans (digit_step (by omega) n rest.length) h
      have hpos : 1 ≤ Nat.pow 10 rest.length := Nat.pow_pos (by decide)
      have hsum : 10 * n + (b.toNat - 48) + 1 ≤ Nat.pow 10 9 :=
        Nat.le_trans (Nat.le_mul_of_pos_right _ hpos) hstep
      have hword : Nat.pow 10 9 ≤ Scalar.word32 := by decide
      rw [if_pos hb, mul_eq (by omega), ok_bind, sub_eq low, ok_bind, add_eq (by omega), ok_bind,
        hdigit, Nat.mul_comm n 10]
      exact ih hstep
    · rw [if_neg hb, digit?_of_not_isDigit hb]
      rfl

/-- **A field of digits is added up without an abort**: it has nine of them at most. -/
theorem field?_eq (octets : Bytes) : field? octets = .ok (Decimal.field? octets) := by
  unfold field? Decimal.field?
  split
  · rfl
  · next h =>
    have hlength : octets.length ≤ 9 := Nat.not_lt.mp fun hlt => h (Or.inr hlt)
    refine digitsFrom?_eq ?_
    rw [Nat.zero_add, Nat.one_mul]
    exact Nat.pow_le_pow_right (by decide) hlength

/-- A number is below the power of ten that its digits reach. -/
theorem readFrom?_bound {octets : Bytes} :
    ∀ {n m : Nat}, Decimal.readFrom? n octets = some m →
      m + 1 ≤ (n + 1) * Nat.pow 10 octets.length := by
  induction octets with
  | nil =>
    intro n m h
    simp only [Decimal.readFrom?, Option.some.injEq] at h
    rw [h]
    exact Nat.le_of_eq (Nat.mul_one _).symm
  | cons b rest ih =>
    intro n m h
    simp only [Decimal.readFrom?, Option.bind_eq_some_iff] at h
    obtain ⟨d, hdigit, hrest⟩ := h
    have hd : d < 10 := by
      unfold Decimal.digit? at hdigit
      split at hdigit
      · simp only [Option.some.injEq] at hdigit
        omega
      · simp at hdigit
    exact Nat.le_trans (ih hrest) (digit_step hd n rest.length)

/-- A field that is a number is below a thousand million. -/
theorem field?_bound {octets : Bytes} {n : Nat} (h : Decimal.field? octets = some n) :
    n < 1000000000 := by
  unfold Decimal.field? at h
  split at h
  · simp at h
  · next hlength =>
    have hlength : octets.length ≤ 9 := Nat.not_lt.mp fun hlt => hlength (Or.inr hlt)
    have hbound := readFrom?_bound h
    rw [Nat.zero_add, Nat.one_mul] at hbound
    exact Nat.le_trans hbound (Nat.pow_le_pow_right (by decide) hlength)

/-! ## Reading -/

theorem exact_eq {limit count : Nat} {r : Reader} (hcount : 0 < count)
    (h : r.position + count ≤ limit) :
    exact limit r count = .ok (if r.remaining < count then .error .unexpectedEnd
      else .ok ((r.data.drop r.position).take count, { r with position := r.position + count })) := by
  unfold exact
  by_cases hshort : r.remaining < count
  · rw [if_pos hshort, if_pos hshort]
  · have hroom : r.position + count ≤ r.data.length := by
      unfold Reader.remaining at hshort
      omega
    rw [if_neg hshort, if_neg hshort, add_eq h, ok_bind, piece_eq (Nat.le_add_right _ _) hroom,
      ok_bind, Nat.add_sub_cancel_left]
    rfl

/-- Two digits at a place are those of the field that begins at `start`. -/
theorem pair_gives {limit start i : Nat} {payload : Bytes} (h : start + 2 * i + 2 ≤ limit) :
    Gives (pair limit ⟨payload, start + 2 * i⟩)
      ((Timestamp.number (payload.drop start) i).map fun n => (n, ⟨payload, start + 2 * i + 2⟩)) := by
  unfold pair Timestamp.number
  refine Gives.check (exact_eq (by decide) h) ?_
  -- the reader has left what stands behind the two digits for each number before
  have hleft : Reader.remaining ⟨payload, start + 2 * i⟩ =
      ((payload.drop start).drop (2 * i)).length := by
    rw [List.drop_drop, List.length_drop]
    rfl
  rw [hleft, ← List.drop_drop]
  -- fewer than two octets are left, or the first two are the digits
  match (payload.drop start).drop (2 * i) with
  | [] => rfl
  | [_] => rfl
  | a :: b :: rest =>
    rw [if_neg (by simp)]
    refine Gives.check (field?_eq [a, b]) ?_
    dsimp only
    cases Decimal.field? [a, b] <;> rfl

/-! ## Instants -/

/-- A day that is still to come in this month is one of the month before. -/
theorem monthOf_eq (day : Nat) (today : Date) :
    monthOf day today =
      .ok (if day ≤ today.day then (today.year, today.month)
        else if today.month = 1 then (today.year - 1, 12)
        else (today.year, today.month - 1)) := by
  -- the calendar ends long before the words do
  obtain ⟨hfirst, hlast, hmonth, -⟩ := today.valid
  have hfirst : -262143 ≤ today.year := hfirst
  have hlast : today.year ≤ 262142 := hlast
  unfold monthOf
  split
  · rfl
  · split
    · rw [signed_eq (by omega) (by omega)]
      rfl
    · rw [sub_eq hmonth]
      rfl

variable {limit start : Nat} {payload : Bytes} {now : Instant}

theorem dayHourMinute_gives (h : start + 6 ≤ limit) :
    Gives (dayHourMinute limit ⟨payload, start⟩ now)
      (Timestamp.dayHourMinute (payload.drop start) now) := by
  unfold dayHourMinute Timestamp.dayHourMinute
  refine Gives.bind_map (pair_gives (i := 0) (by omega)) fun day _ => ?_
  refine Gives.bind_map (pair_gives (i := 1) (by omega)) fun hour _ => ?_
  refine Gives.bind_map (pair_gives (i := 2) (by omega)) fun minute _ => ?_
  exact Gives.check (monthOf_eq day now.date) (Gives.found _)

theorem hourMinuteSecond_gives (h : start + 6 ≤ limit) :
    Gives (hourMinuteSecond limit ⟨payload, start⟩ now)
      (Timestamp.hourMinuteSecond (payload.drop start) now) := by
  unfold hourMinuteSecond Timestamp.hourMinuteSecond
  refine Gives.bind_map (pair_gives (i := 0) (by omega)) fun hour _ => ?_
  refine Gives.bind_map (pair_gives (i := 1) (by omega)) fun minute _ => ?_
  refine Gives.bind_map (pair_gives (i := 2) (by omega)) fun second _ => ?_
  refine Gives.bind (Gives.found _) fun stamp _ => ?_
  split
  · exact Gives.pure stamp
  · cases now.date.yesterday? with
    | none => exact Gives.throw _
    | some yesterday => exact Gives.found _

theorem monthDayHourMinute_gives (h : start + 8 ≤ limit) :
    Gives (monthDayHourMinute limit ⟨payload, start⟩ now)
      (Timestamp.monthDayHourMinute (payload.drop start) now) := by
  unfold monthDayHourMinute Timestamp.monthDayHourMinute
  refine Gives.bind_map (pair_gives (i := 0) (by omega)) fun month _ => ?_
  refine Gives.bind_map (pair_gives (i := 1) (by omega)) fun day _ => ?_
  refine Gives.bind_map (pair_gives (i := 2) (by omega)) fun hour _ => ?_
  refine Gives.bind_map (pair_gives (i := 3) (by omega)) fun minute _ => ?_
  refine Gives.bind (Gives.found _) fun stamp _ => ?_
  split
  · exact Gives.pure stamp
  · obtain ⟨hfirst, hlast, -⟩ := now.date.valid
    have hfirst : -262143 ≤ now.date.year := hfirst
    have hlast : now.date.year ≤ 262142 := hlast
    exact Gives.check (signed_eq (by omega) (by omega)) (Gives.found _)

/-- **A timestamp is resolved without an abort**, in each of its forms. -/
theorem resolve_gives (h : start + 8 ≤ limit) (format : TimeFormat) :
    Gives (resolve limit format ⟨payload, start⟩ now)
      (Timestamp.resolve format (payload.drop start) now) := by
  cases format with
  | dayHourMinuteZulu => exact dayHourMinute_gives (by omega)
  | dayHourMinuteLocal => exact dayHourMinute_gives (by omega)
  | hourMinuteSecond => exact hourMinuteSecond_gives (by omega)
  | monthDayHourMinute => exact monthDayHourMinute_gives h

/-- **The checked reading of a timestamp is never aborted** and agrees with the total one. -/
theorem decodeTimestamp_eq (h : start + 8 ≤ limit) :
    decodeTimestamp limit payload start now = .ok (Timestamp.decode payload start now) := by
  have hplace : sub (start + Timestamp.indicatorWidth) 1 =
      .ok (start + (Timestamp.indicatorWidth - 1)) := sub_eq (Nat.le_add_left 1 (start + 6))
  unfold decodeTimestamp Timestamp.decode
  rw [add_eq (show start + Timestamp.indicatorWidth ≤ limit from Nat.le_of_succ_le h), ok_bind,
    hplace, ok_bind]
  cases payload[start + (Timestamp.indicatorWidth - 1)]? with
  | none => rfl
  | some indicator =>
    dsimp only
    cases TimeFormat.ofIndicator? indicator with
    | none => rfl
    | some format =>
      have hwidth : start + format.width ≤ limit := by
        cases format <;> simp only [TimeFormat.width] <;> omega
      dsimp only
      rw [show (resolve limit format ⟨payload, start⟩ now).run = _ from resolve_gives h format, ok_bind,
        add_eq hwidth, ok_bind]
      cases Timestamp.resolve format (payload.drop start) now <;> rfl

end Aprs.Checked
