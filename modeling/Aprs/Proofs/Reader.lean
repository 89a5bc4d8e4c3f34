import Aprs.Checked.Reader
import Aprs.Proofs.Checked.Timestamp

/-!
# What the steps of a reader pass over

A step is told by the octets that are left (`Step.Reads`): it passes over those that it asks for, the
ones of a field that is no number as well, and over none if there are too few. On the reader that is a
`Turn`, and a `Trace` is one turn after another. The pieces that the turns of a trace pass over stand
one behind another in the string, from the position at the start on (`Trace.left_eq`).

All this is for a reader within its string, or one past its end that is asked for something. A piece of
no octets that is asked for past the end is not there, and the run is aborted (`take_of_stuck`), which
no error of the reader's own says. Only a step that takes the rest gets such a reader back to the end.

> `run_trace`: a run is aborted **exactly if** a piece of no octets is asked for past the end, before the
> rest is taken. Any other run is a trace, and what it passes over is the beginning of what was left.
-/

namespace Aprs.Reader

theorem length_left (r : Reader) : r.left.length = r.remaining := List.length_drop

/-! ## A step -/

/-- What a step gives for the octets that are left, and which of them it passes over. -/
inductive Step.Reads : Step → Bytes → Except ReadError Value → Bytes → Prop
  | short {step : Step} {left : Bytes} (h : left.length < step.asks) :
    Reads step left (.error .unexpectedEnd) []
  | octet (b : UInt8) (left : Bytes) : Reads .octet (b :: left) (.ok (.octet b)) [b]
  | exact {count : Nat} {left : Bytes} (h : count ≤ left.length) :
    Reads (.exact count) left (.ok (.octets (left.take count))) (left.take count)
  | number {count n : Nat} {left : Bytes} (h : count ≤ left.length)
    (hfield : Decimal.field? (left.take count) = some n) :
    Reads (.decimal count) left (.ok (.number n)) (left.take count)
  | noNumber {count : Nat} {left : Bytes} (h : count ≤ left.length)
    (hfield : Decimal.field? (left.take count) = none) :
    Reads (.decimal count) left (.error (.invalidNumber (Utf8.lossy (left.take count))))
      (left.take count)
  | rest (left : Bytes) : Reads .rest left (.ok (.octets left)) left

namespace Step.Reads

variable {step : Step} {left passed : Bytes} {outcome : Except ReadError Value}

/-- A step ends unexpectedly exactly if it asks for more than is left. -/
theorem unexpectedEnd_iff (h : step.Reads left outcome passed) :
    outcome = .error .unexpectedEnd ↔ left.length < step.asks := by
  cases h with
  | short h => exact iff_of_true rfl h
  | octet b left => exact iff_of_false (nomatch ·) (by simp [Step.asks])
  | exact h => exact iff_of_false (nomatch ·) (Nat.not_lt.mpr h)
  | number h => exact iff_of_false (nomatch ·) (Nat.not_lt.mpr h)
  | noNumber h => exact iff_of_false (nomatch ·) (Nat.not_lt.mpr h)
  | rest => exact iff_of_false (nomatch ·) (Nat.not_lt_zero _)

/-- A field that is no number is passed over in full. -/
theorem decimal_of_invalidNumber {field : Text} (h : step.Reads left outcome passed)
    (hfield : outcome = .error (.invalidNumber field)) : step = .decimal passed.length := by
  cases h with
  | noNumber h => rw [List.length_take_of_le h]
  | _ => exact nomatch hfield

end Step.Reads

/-- How a step leads from one reader to the next, over the octets that it passes. -/
structure Turn (r : Reader) (step : Step) (outcome : Except ReadError Value) (passed : Bytes)
    (next : Reader) : Prop where
  data_eq : next.data = r.data
  left_eq : r.left = passed ++ next.left
  position_eq : r.position ≤ r.data.length → next.position = r.position + passed.length
  reads : step.Reads r.left outcome passed
  unexpectedEnd_iff : outcome = .error .unexpectedEnd ↔ r.remaining < step.asks
  unmoved : outcome = .error .unexpectedEnd → next = r
  invalidNumber : ∀ field, outcome = .error (.invalidNumber field) → step = .decimal passed.length

/-- One turn after another, each from the reader that the one before it has led to. -/
inductive Trace :
    Reader → List Step → List (Except ReadError Value) → List Bytes → Reader → Prop
  | nil (r : Reader) : Trace r [] [] [] r
  | cons {r next last : Reader} {step : Step} {steps : List Step}
    {outcome : Except ReadError Value} {outcomes : List (Except ReadError Value)} {passed : Bytes}
    {pieces : List Bytes} (turn : Turn r step outcome passed next)
    (trace : Trace next steps outcomes pieces last) :
    Trace r (step :: steps) (outcome :: outcomes) (passed :: pieces) last

variable {r next last : Reader} {step : Step} {steps : List Step} {limit : Nat}

/-- A step that passes over what it reads, and moves the reader only then, is a turn. -/
theorem Turn.of_reads {outcome : Except ReadError Value} {passed : Bytes}
    (hreads : step.Reads r.left outcome passed) (hdata : next.data = r.data)
    (hleft : r.left = passed ++ next.left)
    (hposition : r.position ≤ r.data.length → next.position = r.position + passed.length)
    (hunmoved : r.remaining < step.asks → next = r) : Turn r step outcome passed next := by
  have hend : outcome = .error .unexpectedEnd ↔ r.remaining < step.asks := by
    rw [← length_left]
    exact hreads.unexpectedEnd_iff
  exact ⟨hdata, hleft, hposition, hreads, hend, fun h => hunmoved (hend.mp h),
    fun _ hfield => hreads.decimal_of_invalidNumber hfield⟩

/-- A step that asks for more than is left. -/
theorem Turn.short (h : r.remaining < step.asks) :
    Turn r step (.error .unexpectedEnd) [] r := by
  have hreads : step.Reads r.left (.error .unexpectedEnd) [] := .short (by rwa [length_left])
  exact .of_reads hreads rfl rfl (fun _ => rfl) fun _ => rfl

/-- A step over as many octets as it asks for. -/
theorem Turn.over {outcome : Except ReadError Value}
    (hreads : step.Reads r.left outcome (r.left.take step.asks)) (h : step.asks ≤ r.remaining) :
    Turn r step outcome (r.left.take step.asks) { r with position := r.position + step.asks } := by
  have hleft : r.left = r.left.take step.asks ++ r.left.drop step.asks :=
    (List.take_append_drop _ _).symm
  have hlength : (r.left.take step.asks).length = step.asks :=
    List.length_take_of_le (by rwa [length_left])
  refine .of_reads hreads rfl ?_ (fun _ => by rw [hlength]) fun hshort =>
    absurd hshort (Nat.not_lt.mpr h)
  rwa [left, List.drop_drop] at hleft

/-! ## The pieces of a trace -/

theorem Trace.data_eq {outcomes : List (Except ReadError Value)} {pieces : List Bytes}
    (h : Trace r steps outcomes pieces last) : last.data = r.data := by
  induction h with
  | nil => rfl
  | cons turn _ ih => exact ih.trans turn.data_eq

/-- The pieces stand one behind another at the beginning of what was left. -/
theorem Trace.left_eq {outcomes : List (Except ReadError Value)} {pieces : List Bytes}
    (h : Trace r steps outcomes pieces last) : r.left = pieces.flatten ++ last.left := by
  induction h with
  | nil => rfl
  | cons turn _ ih => rw [turn.left_eq, ih, List.flatten_cons, List.append_assoc]

/-- **What a run passed over and what it left are what there was.** -/
theorem Trace.remaining_eq {outcomes : List (Except ReadError Value)} {pieces : List Bytes}
    (h : Trace r steps outcomes pieces last) :
    r.remaining = pieces.flatten.length + last.remaining := by
  rw [← length_left, h.left_eq, List.length_append, length_left]

/-! ## A piece of no octets past the end -/

/-- A step asks for a piece of no octets past the end of the string. -/
def Step.Stuck (r : Reader) (step : Step) : Prop :=
  r.data.length < r.position ∧ step ≠ .rest ∧ step.asks = 0

/-- One of the steps before the rest is taken does so. -/
def Stuck (r : Reader) (steps : List Step) : Prop :=
  r.data.length < r.position ∧ ∃ step ∈ steps.takeWhile (· ≠ .rest), step.asks = 0

theorem not_stuck_of_le (h : r.position ≤ r.data.length) : ¬ r.Stuck steps :=
  fun hstuck => Nat.not_lt.mpr h hstuck.1

/-- The steps get stuck at the first one or behind it. -/
theorem stuck_cons : r.Stuck (step :: steps) ↔ step.Stuck r ∨ step ≠ .rest ∧ r.Stuck steps := by
  unfold Stuck Step.Stuck
  by_cases hrest : step = .rest
  · simp [hrest]
  · simp [hrest, and_or_left]

/-- Past the end a step that is not stuck asks for something, the rest apart. -/
theorem Step.asks_ne_zero (h : ¬ step.Stuck r) (hrest : step ≠ .rest)
    (hpast : r.data.length < r.position) : step.asks ≠ 0 := fun h0 => h ⟨hpast, hrest, h0⟩

theorem remaining_eq_zero (hpast : r.data.length < r.position) : r.remaining = 0 :=
  Nat.sub_eq_zero_of_le (Nat.le_of_lt hpast)

/-- A reader within its string stays there. -/
theorem Turn.within {outcome : Except ReadError Value} {passed : Bytes}
    (h : Turn r step outcome passed next) (hwithin : r.position ≤ r.data.length) :
    next.position ≤ next.data.length := by
  have hlength : r.remaining = passed.length + next.left.length := by
    rw [← length_left, h.left_eq, List.length_append]
  have hposition := h.position_eq hwithin
  rw [h.data_eq]
  unfold remaining at hlength
  omega

/-! ## The steps that get a piece -/

/-- The next octet is the first of those that are left. -/
theorem octet_cases (r : Reader) :
    r.remaining < 1 ∧ r.data[r.position]? = none ∨
      ∃ b left, r.left = b :: left ∧ r.data[r.position]? = some b ∧ r.position < r.data.length := by
  by_cases h : r.position < r.data.length
  · exact .inr ⟨_, _, List.drop_eq_getElem_cons h, List.getElem?_eq_getElem h, h⟩
  · refine .inl ⟨?_, List.getElem?_eq_none (Nat.not_lt.mp h)⟩
    unfold remaining
    omega

/-- Reading octets fails or takes them all, unless none are asked for past the end. -/
theorem exact_eq {count : Nat} (h : r.data.length < r.position → count ≠ 0) :
    r.exact count = if r.remaining < count then (.error .unexpectedEnd, r)
      else (.ok (r.left.take count), { r with position := r.position + count }) := by
  unfold exact
  split
  · rfl
  · next hroom =>
    refine if_neg fun hpast => hroom ?_
    rw [remaining_eq_zero hpast]
    exact Nat.pos_of_ne_zero (h hpast)

/-- A step that is not stuck is a turn. -/
theorem turn_take (h : ¬ step.Stuck r) :
    ∃ passed, Turn r step (r.take step).1 passed (r.take step).2 := by
  have hasks := Step.asks_ne_zero h
  cases step with
  | octet =>
    rw [take, octet]
    rcases octet_cases r with ⟨hshort, hnone⟩ | ⟨b, left, hleft, hsome, hlt⟩
    · rw [hnone]
      exact ⟨_, .short hshort⟩
    · rw [hsome]
      have hreads : Step.octet.Reads r.left (.ok (.octet b)) (r.left.take 1) := by
        rw [hleft]
        exact .octet b left
      exact ⟨_, .over hreads (Nat.sub_pos_of_lt hlt)⟩
  | exact count =>
    have hcount : r.data.length < r.position → count ≠ 0 := hasks (nomatch ·)
    rw [take, exact_eq hcount]
    by_cases hshort : r.remaining < count
    · rw [if_pos hshort]
      exact ⟨_, .short hshort⟩
    · have hroom := Nat.not_lt.mp hshort
      rw [if_neg hshort]
      exact ⟨_, .over (.exact (by rwa [length_left])) hroom⟩
  | decimal count =>
    have hcount : r.data.length < r.position → count ≠ 0 := hasks (nomatch ·)
    rw [take, decimal, exact_eq hcount]
    by_cases hshort : r.remaining < count
    · rw [if_pos hshort]
      exact ⟨_, .short hshort⟩
    · have hroom := Nat.not_lt.mp hshort
      have hlength : count ≤ r.left.length := by rwa [length_left]
      rw [if_neg hshort]
      cases hfield : Decimal.field? (r.left.take count) with
      | some n =>
        simp only [hfield]
        exact ⟨_, .over (.number hlength hfield) hroom⟩
      | none =>
        simp only [hfield]
        exact ⟨_, .over (.noNumber hlength hfield) hroom⟩
  | rest =>
    have hleft : r.left = r.left ++ r.rest.2.left := by
      rw [show r.rest.2.left = [] from List.drop_length, List.append_nil]
    refine ⟨_, .of_reads (.rest _) rfl hleft (fun hwithin => ?_) fun h => absurd h (Nat.not_lt_zero _)⟩
    rw [length_left, remaining, Nat.add_sub_cancel' hwithin]
    rfl

/-- Past the end a step that is neither stuck nor takes the rest leaves the reader as it is. -/
theorem take_past (h : ¬ step.Stuck r) (hrest : step ≠ .rest) (hpast : r.data.length < r.position) :
    (r.take step).2 = r := by
  obtain ⟨passed, turn⟩ := turn_take h
  have hshort : r.remaining < step.asks := by
    rw [remaining_eq_zero hpast]
    exact Nat.pos_of_ne_zero (Step.asks_ne_zero h hrest hpast)
  exact turn.unmoved (turn.unexpectedEnd_iff.mpr hshort)

/-- Behind a step that is not stuck the others get stuck only where they did before it. -/
theorem stuck_take (h : ¬ step.Stuck r) :
    (r.take step).2.Stuck steps ↔ step ≠ .rest ∧ r.Stuck steps := by
  by_cases hpast : r.data.length < r.position
  · by_cases hrest : step = .rest
    · subst hrest
      exact iff_of_false (not_stuck_of_le (Nat.le_refl _)) fun hstuck => hstuck.1 rfl
    · rw [take_past h hrest hpast]
      exact ⟨fun hstuck => ⟨hrest, hstuck⟩, And.right⟩
  · obtain ⟨passed, turn⟩ := turn_take h
    have hwithin := turn.within (Nat.not_lt.mp hpast)
    exact iff_of_false (not_stuck_of_le hwithin) fun hstuck => hpast hstuck.2.1

/-- **A run that does not get stuck is a trace.** -/
theorem trace_run (h : ¬ r.Stuck steps) :
    ∃ pieces, Trace r steps (r.run steps).1 pieces (r.run steps).2 := by
  induction steps generalizing r with
  | nil => exact ⟨_, .nil r⟩
  | cons step steps ih =>
    rw [stuck_cons, not_or] at h
    obtain ⟨passed, turn⟩ := turn_take h.1
    obtain ⟨pieces, trace⟩ := ih (fun hstuck => h.2 ((stuck_take h.1).mp hstuck))
    exact ⟨passed :: pieces, .cons turn trace⟩

end Aprs.Reader

namespace Aprs.Checked

open Reader (Step)

variable {r : Reader} {step : Step} {steps : List Step} {limit count : Nat}

/-! ## Which checks fail -/

/-- Reading an octet does not abort. -/
theorem takeOctet_eq (hlimit : r.data.length ≤ limit) : takeOctet limit r = .ok r.octet := by
  unfold takeOctet Reader.octet
  rcases Reader.octet_cases r with ⟨_, hnone⟩ | ⟨b, _, _, hsome, hlt⟩
  · rw [hnone]
    rfl
  · rw [hsome]
    have hadd : add limit r.position 1 = .ok (r.position + 1) := add_eq (by omega)
    simp only [hadd]
    rfl

/-- Reading octets does not abort, unless none are asked for past the end. -/
theorem takeExact_eq (hlimit : r.data.length ≤ limit) (h : r.data.length < r.position → count ≠ 0) :
    takeExact limit r count = .ok (r.exact count) := by
  rw [Reader.exact_eq h]
  unfold takeExact exact
  by_cases hshort : r.remaining < count
  · rw [if_pos hshort, if_pos hshort]
    rfl
  · have hroom : r.position + count ≤ r.data.length := by
      unfold Reader.remaining at hshort
      omega
    rw [if_neg hshort, if_neg hshort, add_eq (Nat.le_trans hroom hlimit), ok_bind,
      piece_eq (Nat.le_add_right _ _) hroom, Nat.add_sub_cancel_left]
    rfl

/-- Nor does reading a number. -/
theorem takeDecimal_eq (hlimit : r.data.length ≤ limit)
    (h : r.data.length < r.position → count ≠ 0) :
    takeDecimal limit r count = .ok (r.decimal count) := by
  unfold takeDecimal Reader.decimal
  rw [takeExact_eq hlimit h, ok_bind]
  rcases r.exact count with ⟨cause | octets, next⟩
  · rfl
  · simp only [field?_eq, ok_bind]
    cases Decimal.field? octets <;> rfl

/-- Reading the rest never aborts: it is empty past the end. -/
theorem takeRest_eq (r : Reader) : takeRest r = .ok r.rest := by
  have hdrop : r.data.drop (min r.position r.data.length) = r.data.drop r.position := by
    rw [List.drop_eq_drop_iff, Nat.min_assoc, Nat.min_self]
  unfold takeRest Reader.rest
  rw [behind_eq (Nat.min_le_right _ _), ok_bind, hdrop]
  rfl

/-- No check of a step fails that is not stuck. -/
theorem take_eq (hlimit : r.data.length ≤ limit) (h : ¬ step.Stuck r) :
    take limit r step = .ok (r.take step) := by
  have hasks := Step.asks_ne_zero h
  cases step with
  | octet => rw [take, takeOctet_eq hlimit]; rfl
  | exact count =>
    have hcount : r.data.length < r.position → count ≠ 0 := hasks (nomatch ·)
    rw [take, takeExact_eq hlimit hcount]
    rfl
  | decimal count =>
    have hcount : r.data.length < r.position → count ≠ 0 := hasks (nomatch ·)
    rw [take, takeDecimal_eq hlimit hcount]
    rfl
  | rest => rw [take, takeRest_eq]; rfl

/-- Past the end there is no piece, not even one of no octets. -/
theorem takeExact_past (hlimit : r.position ≤ limit) (hpast : r.data.length < r.position) :
    takeExact limit r 0 = .error .piece := by
  unfold takeExact exact
  have hpiece : piece r.data r.position r.position = .error .piece := by
    unfold piece
    rw [piece?_eq_none hpast]
  rw [if_neg (Nat.not_lt_zero _), add_eq hlimit, ok_bind, Nat.add_zero, hpiece]
  rfl

/-- A step that is stuck aborts the run. -/
theorem take_of_stuck (hlimit : r.position ≤ limit) (h : step.Stuck r) :
    take limit r step = .error .piece := by
  obtain ⟨hpast, hrest, hasks⟩ := h
  cases step with
  | octet => exact absurd hasks Nat.one_ne_zero
  | exact count =>
    rw [take, show count = 0 from hasks, takeExact_past hlimit hpast]
    rfl
  | decimal count =>
    rw [take, show count = 0 from hasks, takeDecimal, takeExact_past hlimit hpast]
    rfl
  | rest => exact absurd rfl hrest

/-! ## Which runs are aborted -/

/-- **A run that is not stuck does not abort**, and gives what it gives without the checks. -/
theorem run_eq (hlimit : r.data.length ≤ limit) (h : ¬ r.Stuck steps) :
    run limit r steps = .ok (r.run steps) := by
  induction steps generalizing r with
  | nil => rfl
  | cons step steps ih =>
    rw [Reader.stuck_cons, not_or] at h
    obtain ⟨passed, turn⟩ := Reader.turn_take h.1
    have hnext : ¬ (r.take step).2.Stuck steps := fun hstuck => h.2 ((Reader.stuck_take h.1).mp hstuck)
    rw [run, take_eq hlimit h.1, ok_bind, ih (by rwa [turn.data_eq]) hnext]
    rfl

/-- **A run that is stuck aborts** at the slice of the step that asks for nothing. -/
theorem run_of_stuck (hdata : r.data.length ≤ limit) (hlimit : r.position ≤ limit)
    (h : r.Stuck steps) : run limit r steps = .error .piece := by
  induction steps generalizing r with
  | nil => exact absurd h.2 (by simp)
  | cons step steps ih =>
    rw [run]
    by_cases hstep : step.Stuck r
    · rw [take_of_stuck hlimit hstep]
      rfl
    · obtain ⟨hrest, htail⟩ := (Reader.stuck_cons.mp h).resolve_left hstep
      rw [take_eq hdata hstep, ok_bind, Reader.take_past hstep hrest h.1, ih hdata hlimit htail]
      rfl

/-- **A run is aborted exactly if it gets stuck, and is a trace otherwise.** What the turns of the
trace pass over is the beginning of what was left, and that much less is left behind them. -/
theorem run_trace (data : Bytes) (start limit : Nat) (steps : List Step) (hdata : data.length ≤ limit)
    (hstart : start ≤ limit) :
    (Reader.Stuck ⟨data, start⟩ steps → run limit ⟨data, start⟩ steps = .error .piece) ∧
      (¬ Reader.Stuck ⟨data, start⟩ steps →
        ∃ outcomes pieces last, run limit ⟨data, start⟩ steps = .ok (outcomes, last) ∧
          Reader.run ⟨data, start⟩ steps = (outcomes, last) ∧
          Reader.Trace ⟨data, start⟩ steps outcomes pieces last ∧
          data.drop start = pieces.flatten ++ last.left ∧
          Reader.remaining ⟨data, start⟩ = pieces.flatten.length + last.remaining) := by
  refine ⟨run_of_stuck hdata hstart, fun h => ?_⟩
  obtain ⟨pieces, trace⟩ := Reader.trace_run h
  exact ⟨_, pieces, _, run_eq hdata h, rfl, trace, trace.left_eq, trace.remaining_eq⟩

/-- Two digits and an octet of four, and none past them. -/
theorem run_trace_digits :
    ∃ outcomes pieces last,
      run 0xFF ⟨[0x34, 0x39, 0x2E, 0x35], 1⟩ [.decimal 2, .octet, .octet] = .ok (outcomes, last) ∧
        Reader.run ⟨[0x34, 0x39, 0x2E, 0x35], 1⟩ [.decimal 2, .octet, .octet] = (outcomes, last) ∧
        Reader.Trace ⟨[0x34, 0x39, 0x2E, 0x35], 1⟩ [.decimal 2, .octet, .octet] outcomes pieces last ∧
        [0x39, 0x2E, 0x35] = pieces.flatten ++ last.left ∧
        Reader.remaining ⟨[0x34, 0x39, 0x2E, 0x35], 1⟩ = pieces.flatten.length + last.remaining :=
  (run_trace [0x34, 0x39, 0x2E, 0x35] 1 0xFF [.decimal 2, .octet, .octet] (by decide) (by decide)).2
    (Reader.not_stuck_of_le (by decide))

/-- A reader of one octet, which begins past its end, is asked for none: the run is aborted. Asked for
the rest before that, it gives none twice. -/
theorem run_past_end :
    run 0xFFFFFFFFFFFFFFFF ⟨[0x61], 2⟩ [.exact 0] = .error .piece ∧
      run 0xFFFFFFFFFFFFFFFF ⟨[0x61], 2⟩ [.rest, .exact 0] =
        .ok ([.ok (.octets []), .ok (.octets [])], ⟨[0x61], 1⟩) :=
  ⟨rfl, rfl⟩

end Aprs.Checked
