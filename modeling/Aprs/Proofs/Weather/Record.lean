import Aprs.Proofs.Weather.Report
import Aprs.Proofs.Weather.Words

/-!
# No conversion changes a reading

Three things set the readings of a record: a block, a row of tokens, and what is found behind these. Each of
them is a row of groups, a field with what is written for it, and setting one group is said once: the
integer that is written becomes a reading, in its unit, and the others stay (`Sets`). The groups are set one
after the other (`Run`), and the amounts of the readings keep within their bounds (`Run.inRange`).

> `decode_exact`: every record is what a run of the groups in its octets has set, its readings lie in their
> ranges, and it agrees with the report in integers that are not converted at all.

An integer is written with ASCII digits. Where digits of other scripts, dots or blanks stand for a field, its
reading is missing from then on.

Specification: 3 (Data Model) and 4.5 (Weather Decoder).
-/

namespace Aprs.Weather

open Decimal (Writes)
open Text (Digits)

variable {f : Field} {t : Text} {r : Reading}

/-! ## Groups -/

/-- A group gives a reading exactly the integer that is written for its field, in the unit of the reading,
and leaves the other readings. -/
structure Sets (f : Field) (t : Text) (r : Reading) (before after : Reading → Option Rat) : Prop where
  own : ∃ named speedHeld, f.target named speedHeld = r
  exact : ∀ x, after r = some x ↔ ∃ n, Writes t n ∧ x = r.inUnits (f.amount n)
  others : ∀ other, other ≠ r → after other = before other

/-- Groups give readings one after the other. -/
inductive Run : (Reading → Option Rat) → List (Field × Text) → (Reading → Option Rat) → Prop
  | done {before : Reading → Option Rat} : Run before [] before
  | next {f : Field} {t : Text} {r : Reading} {groups : List (Field × Text)}
      {before after last : Reading → Option Rat} (first : Sets f t r before after)
      (later : Run after groups last) : Run before ((f, t) :: groups) last

/-- What the tokens of a row write, field by field. -/
def Token.groups : Token → List (Field × Text)
  | .wind direction speed => [(.windDirection, direction), (.windSpeedOrSnowfall, speed)]
  | .field f value => [(f, value)]

theorem Run.append {groups more : List (Field × Text)} {before between after : Reading → Option Rat}
    (h : Run before groups between) (hmore : Run between more after) :
    Run before (groups ++ more) after := by
  induction h with
  | done => exact hmore
  | next first _ ih => exact .next first (ih hmore)

theorem Run.single {before after : Reading → Option Rat} (h : Sets f t r before after) :
    Run before [(f, t)] after :=
  .next h .done

/-! ## Ranges -/

/-- The least amount of a reading. -/
def Reading.least : Reading → Int
  | temperature => -99
  | humidity => 1
  | _ => 0

/-- The greatest amount of a reading. -/
def Reading.greatest : Reading → Int
  | humidity => 100
  | pressure => 99999
  | luminosity => 1999
  | _ => 999

/-- All readings that are held lie in their ranges. -/
def InRange (held : Reading → Option Rat) : Prop :=
  ∀ r x, held r = some x → ∃ n : Int, x = r.inUnits n ∧ r.least ≤ n ∧ n ≤ r.greatest

/-- What a field adds to an integer, or puts in the place of zero, keeps to the range of its reading. -/
theorem Field.Admits.amount_bounds {n : Int} (h : f.Admits t) (hn : Writes t n) (named speedHeld : Bool) :
    (f.target named speedHeld).least ≤ f.amount n ∧
      f.amount n ≤ (f.target named speedHeld).greatest := by
  have hlow (hf : f ≠ .temperature) : 0 ≤ n := h.nonneg hf hn
  have hhigh := Int.le_sub_one_of_lt (h.lt_pow hn)
  cases f with
  | temperature =>
    have hlow := h.neg_hundred_lt hn
    exact ⟨hlow, hhigh⟩
  | humidity =>
    have hhigh : n ≤ 99 := hhigh
    have hlow := hlow nofun
    show 1 ≤ (if n = 0 then 100 else n) ∧ (if n = 0 then 100 else n) ≤ 100
    split <;> omega
  | luminosityHigh =>
    have hhigh : n ≤ 999 := hhigh
    have hlow := hlow nofun
    show 0 ≤ n + 1000 ∧ n + 1000 ≤ 1999
    omega
  | luminosityLow =>
    have hhigh : n ≤ 999 := hhigh
    have hlow := hlow nofun
    show 0 ≤ n ∧ n ≤ 1999
    omega
  | windSpeedOrSnowfall =>
    show (if named && !speedHeld then Reading.windSpeed else .snowfall).least ≤ n ∧
      n ≤ (if named && !speedHeld then Reading.windSpeed else .snowfall).greatest
    split
    · exact ⟨hlow nofun, hhigh⟩
    · exact ⟨hlow nofun, hhigh⟩
  | _ => exact ⟨hlow nofun, hhigh⟩

/-- A group that is admitted leaves every reading within the range of its type. -/
theorem Sets.inRange {before after : Reading → Option Rat} (h : Sets f t r before after)
    (ht : f.Admits t) (hbefore : InRange before) : InRange after := by
  intro other x hx
  by_cases hother : other = r
  · subst hother
    obtain ⟨named, speedHeld, rfl⟩ := h.own
    obtain ⟨n, hn, rfl⟩ := (h.exact x).mp hx
    exact ⟨_, rfl, ht.amount_bounds hn named speedHeld⟩
  · rw [h.others other hother] at hx
    exact hbefore other x hx

/-- **A run keeps the readings in their ranges**, if what is written for its fields is admitted there. -/
theorem Run.inRange {groups : List (Field × Text)} {before after : Reading → Option Rat}
    (h : Run before groups after) (hgroups : ∀ group ∈ groups, group.1.Admits group.2)
    (hbefore : InRange before) : InRange after := by
  induction h with
  | done => exact hbefore
  | next first _ ih =>
    obtain ⟨hgroup, hlater⟩ := List.forall_mem_cons.mp hgroups
    exact ih hlater (first.inRange hgroup hbefore)

/-! ## What is admitted -/

theorem Field.admits_of_digits (h : Digits f.width t) : f.Admits t := Or.inl (Or.inl (Or.inl h))

theorem Field.admits_of_slot (hf : f ≠ .rainCounter) (h : Slot f.width t) : f.Admits t :=
  Or.inl (Or.inr ⟨hf, h⟩)

theorem Block.Valid.admits {b : Block} (h : b.Valid) : ∀ group ∈ b.fields, group.1.Admits group.2 := by
  simp only [Block.fields, List.forall_mem_cons]
  exact ⟨Field.admits_of_digits h.direction, Field.admits_of_digits h.speed,
    Field.admits_of_digits h.gust, Or.inr ⟨rfl, h.temperature⟩, Field.admits_of_digits h.lastHour,
    Field.admits_of_digits h.lastDay, Field.admits_of_digits h.sinceMidnight,
    Field.admits_of_digits h.humidity, Field.admits_of_digits h.pressure, List.forall_mem_nil _⟩

theorem Token.Valid.admits {token : Token} (h : token.Valid) :
    ∀ group ∈ token.groups, group.1.Admits group.2 := by
  cases token with
  | wind direction speed =>
    simp only [Token.groups, List.forall_mem_cons]
    exact ⟨Field.admits_of_slot nofun h.1, Field.admits_of_slot nofun h.2, List.forall_mem_nil _⟩
  | field f value =>
    simp only [Token.groups, List.forall_mem_cons]
    exact ⟨Or.inl h, List.forall_mem_nil _⟩

theorem Field.Leftmost.admits {bytes : Bytes} (h : f.Leftmost t bytes) : f.Admits t := by
  obtain ⟨offset, ⟨hnumber, -⟩, -⟩ := h
  exact Or.inl (Or.inl hnumber)

/-- Every group that is matched in a payload, in its pieces or behind them, is admitted. -/
theorem Pieces.admits {payload rest : Bytes} {begin cursor : Nat} {block : Option Block}
    {row : List Token} {found : List (Field × Text)} (h : Pieces payload begin cursor block row)
    (hfound : ∀ group ∈ found, group.1.Leftmost group.2 rest) :
    ∀ group ∈ block.elim [] Block.fields ++ row.flatMap Token.groups ++ found,
      group.1.Admits group.2 := by
  simp only [List.forall_mem_append, List.forall_mem_flatMap]
  refine ⟨⟨?_, fun token htoken => (h.row_valid token htoken).admits⟩,
    fun group hgroup => (hfound group hgroup).admits⟩
  cases block with
  | none => exact List.forall_mem_nil _
  | some b => exact (h.block_valid b rfl).admits

namespace Record

/-! ## The run -/

/-- **Setting a field of the record sets one reading**, to the integer that is written in the unit of the
field, although the record goes through words of eight, sixteen or thirty-two bits. -/
theorem sets_set (w : Record Exact) (named : Bool) (h : f.Admits t) :
    Sets f t (f.target named w.windSpeed.isSome) w.value (w.set named f t).value := by
  refine ⟨⟨named, _, rfl⟩, fun x => ?_, fun other hother => ?_⟩
  · rw [value_set_target w named h rfl, Option.map_eq_some_iff]
    simp only [Decimal.integer?_eq_some_iff, eq_comm (b := x)]
  · exact value_set_other w named f t (Ne.symm hother)

/-- The speed of a wind token is set as that of an `s` would be if no speed were held. -/
theorem sets_windSpeed (w : Record Exact) {speed : Text} (h : Slot 3 speed) :
    Sets .windSpeedOrSnowfall speed .windSpeed w.value
      { w with windSpeed := (number? speed).map word16 }.value := by
  have hadmits : Field.windSpeedOrSnowfall.Admits speed := Field.admits_of_slot nofun h
  have hsets := sets_set { w with windSpeed := none } true hadmits
  refine ⟨⟨true, false, rfl⟩, hsets.exact, fun other hother => (hsets.others other hother).trans ?_⟩
  cases other with
  | windSpeed => contradiction
  | _ => rfl

/-- A block sets its groups from left to right. -/
theorem run_applyBlock {fields : List (Field × Text)} (w : Record Exact)
    (h : ∀ group ∈ fields, group.1.Admits group.2) : Run w.value fields (w.applyBlock fields).value := by
  induction fields generalizing w with
  | nil => exact .done
  | cons group fields ih =>
    obtain ⟨hgroup, hlater⟩ := List.forall_mem_cons.mp h
    exact .next (sets_set w true hgroup) (ih _ hlater)

/-- So does a token. -/
theorem run_apply (p : Progress Exact) {token : Token} (h : token.Valid) :
    Run p.record.value token.groups (p.apply token).record.value := by
  cases token with
  | wind direction speed =>
    exact .next (sets_set p.record false (Field.admits_of_slot (f := .windDirection) nofun h.1))
      (.single (sets_windSpeed _ h.2))
  | field f value => exact .single (sets_set p.record _ (Or.inl h))

/-- And a row of tokens, by induction on the row. -/
theorem run_foldl {row : List Token} (p : Progress Exact) (h : ∀ token ∈ row, token.Valid) :
    Run p.record.value (row.flatMap Token.groups) (row.foldl Progress.apply p).record.value := by
  induction row generalizing p with
  | nil => exact .done
  | cons token row ih =>
    obtain ⟨htoken, hrow⟩ := List.forall_mem_cons.mp h
    exact (run_apply p htoken).append (ih (p.apply token) hrow)

/-- Seeking a field sets one group or none, the leftmost number of the field. -/
theorem run_seek (named : Bool) (rest : Bytes) (w : Record Exact) (f : Field) :
    ∃ found : List (Field × Text), (found.map Prod.fst).Sublist [f] ∧
      (∀ group ∈ found, group.1.Leftmost group.2 rest) ∧
      Run w.value found (seek named rest w f).1.value := by
  unfold seek
  split
  · exact ⟨[], List.nil_sublist _, List.forall_mem_nil _, .done⟩
  split
  · next t hfound =>
    have hfirst := find?_eq_some_iff.mp hfound
    exact ⟨[(f, t)], List.Sublist.refl _, List.forall_mem_singleton.mpr hfirst,
      .single (sets_set w named hfirst.admits)⟩
  · exact ⟨[], List.nil_sublist _, List.forall_mem_nil _, .done⟩

/-- The fields that are sought set what is leftmost for each of them, in the order in which they are sought.
-/
theorem run_seekFields (named : Bool) (rest : Bytes) (fields : List Field)
    (state : Record Exact × Bool) :
    ∃ found : List (Field × Text), (found.map Prod.fst).Sublist fields ∧
      (∀ group ∈ found, group.1.Leftmost group.2 rest) ∧
      Run state.1.value found (seekFields named rest fields state).1.value := by
  induction fields generalizing state with
  | nil => exact ⟨[], .slnil, List.forall_mem_nil _, .done⟩
  | cons f fields ih =>
    obtain ⟨first, hone, hfirst, hrun⟩ := run_seek named rest state.1 f
    obtain ⟨later, hsublist, hlater, hmore⟩ :=
      ih ((seek named rest state.1 f).1, state.2 || (seek named rest state.1 f).2)
    refine ⟨first ++ later, ?_, List.forall_mem_append.mpr ⟨hfirst, hlater⟩, hrun.append hmore⟩
    rw [List.map_append]
    exact hone.append hsublist

/-! ## Agreement with the report -/

/-- A record holds the readings of a report in their units, and has the same fault. -/
structure Agrees (w : Record Exact) (report : Weather) : Prop where
  readings : ∀ r, w.value r = (report.reading r).map fun n => r.inUnits n
  fault : w.fault = report.fault

variable {w : Record Exact} {report : Weather}

/-- Record and report hold the same readings. -/
theorem Agrees.held (h : Agrees w report) (r : Reading) :
    (w.value r).isSome = (report.reading r).isSome := by
  rw [h.readings, Option.isSome_map]

/-- They agree on whether the speed of the wind is held, on which the target of a field depends. -/
theorem Agrees.speedHeld (h : Agrees w report) : w.windSpeed.isSome = report.windSpeed.isSome :=
  (Option.isSome_map.symm.trans (h.held .windSpeed)).trans Option.isSome_map

/-- A field is held if the reading is that it would be set to. -/
theorem holds_eq (w : Record Exact) (named : Bool) (f : Field) :
    w.holds named f = (w.value (f.target named w.windSpeed.isSome)).isSome := by
  cases f with
  | windSpeedOrSnowfall =>
    show (!w.speedExpected named && w.snowfall.isSome) =
      (w.value (if named && !w.windSpeed.isSome then .windSpeed else .snowfall)).isSome
    rw [speedExpected_eq]
    split
    · next hspeed =>
      have hnone : w.windSpeed.isSome = false :=
        Bool.not_eq_true' _ |>.mp (Bool.and_eq_true_iff.mp hspeed).2
      rw [hspeed]
      exact (Option.isSome_map.trans hnone).symm
    · next hspeed =>
      rw [Bool.not_eq_true] at hspeed
      rw [hspeed]
      exact Option.isSome_map.symm
  | _ => exact Option.isSome_map.symm

theorem Agrees.holds (h : Agrees w report) (named : Bool) (f : Field) :
    w.holds named f = report.holds named f := by
  rw [holds_eq, Weather.holds_eq, h.held, h.speedHeld]

theorem fault_set (w : Record Exact) (named : Bool) (f : Field) (t : Text) :
    (w.set named f t).fault = w.fault := by
  cases f with
  | windSpeedOrSnowfall => unfold set; dsimp only; split <;> rfl
  | _ => rfl

/-- **Setting a group keeps the agreement**: what the report takes as it is written, the record converts
without a change. -/
theorem Agrees.set (h : Agrees w report) (named : Bool) (ht : f.Admits t) :
    Agrees (w.set named f t) (report.set named f t) := by
  refine ⟨fun r => ?_, ?_⟩
  · rw [reading_set, ← h.speedHeld]
    split
    · next hr =>
      rw [value_set_target w named ht hr, ht.quantity_eq, Option.map_map]
      rfl
    · next hr => rw [value_set_other w named f t hr, h.readings]
  · rw [fault_set, Weather.fault_set, h.fault]

/-- The speed behind a course is set by itself, and agrees too. -/
theorem Agrees.windSpeed (h : Agrees w report) {speed : Text} (hspeed : Slot 3 speed) :
    Agrees { w with windSpeed := (number? speed).map word16 }
      { report with windSpeed := (Decimal.integer? speed).map Int.toNat } := by
  have hnone : Agrees { w with windSpeed := none } { report with windSpeed := none } := by
    refine ⟨fun r => ?_, h.fault⟩
    have hreading := h.readings r
    cases r with
    | windSpeed => rfl
    | _ => exact hreading
  exact hnone.set true (Field.admits_of_slot (f := .windSpeedOrSnowfall) nofun hspeed)

theorem agrees_empty : Agrees empty Weather.empty := by
  refine ⟨fun r => ?_, rfl⟩
  cases r <;> rfl

/-- A block keeps record and report in agreement, by induction on its groups. -/
theorem Agrees.applyBlock {fields : List (Field × Text)} (h : Agrees w report)
    (hfields : ∀ group ∈ fields, group.1.Admits group.2) :
    Agrees (w.applyBlock fields) (report.applyBlock fields) := by
  induction fields generalizing w report with
  | nil => exact h
  | cons group fields ih =>
    obtain ⟨hgroup, hlater⟩ := List.forall_mem_cons.mp hfields
    exact ih (h.set true hgroup) hlater

/-- The record so far agrees with the report so far. -/
structure Progress.Agrees (p : Progress Exact) (q : Weather.Progress) : Prop where
  record : Record.Agrees p.record q.report
  named : p.directionAsField = q.directionAsField

theorem Progress.Agrees.apply {p : Progress Exact} {q : Weather.Progress} (h : p.Agrees q)
    {token : Token} (htoken : token.Valid) : (p.apply token).Agrees (q.apply token) := by
  cases token with
  | wind direction speed =>
    have hdirection : Field.windDirection.Admits direction := Field.admits_of_slot nofun htoken.1
    exact ⟨(h.record.set false hdirection).windSpeed htoken.2, h.named⟩
  | field f value =>
    have hnamed : (p.directionAsField || f == .windDirection) =
        (q.directionAsField || f == .windDirection) := by
      rw [h.named]
    refine ⟨?_, hnamed⟩
    show Record.Agrees (p.record.set (p.directionAsField || f == .windDirection) f value) _
    rw [hnamed]
    exact h.record.set _ (Or.inl htoken)

/-- A row of tokens keeps them in agreement. -/
theorem Progress.Agrees.foldl {row : List Token} {p : Progress Exact} {q : Weather.Progress}
    (h : p.Agrees q) (hrow : ∀ token ∈ row, token.Valid) :
    (row.foldl Progress.apply p).Agrees (row.foldl Weather.Progress.apply q) := by
  induction row generalizing p q with
  | nil => exact h
  | cons token row ih =>
    obtain ⟨htoken, hlater⟩ := List.forall_mem_cons.mp hrow
    exact ih (h.apply htoken) hlater

/-- Seeking a field keeps them in agreement, and finds it in both or in neither. -/
theorem Agrees.seek (h : Agrees w report) (named : Bool) (rest : Bytes) (f : Field) :
    Agrees (seek named rest w f).1 (Weather.seek named rest report f).1 ∧
      (seek named rest w f).2 = (Weather.seek named rest report f).2 := by
  unfold Record.seek Weather.seek
  rw [h.holds]
  split
  · exact ⟨h, rfl⟩
  cases hfound : find? f rest with
  | none => exact ⟨h, rfl⟩
  | some t => exact ⟨h.set named (find?_eq_some_iff.mp hfound).admits, rfl⟩

/-- So does seeking one field after the other. -/
theorem Agrees.seekFields (h : Agrees w report) (named : Bool) (rest : Bytes) (fields : List Field)
    (found : Bool) :
    Agrees (seekFields named rest fields (w, found)).1
        (Weather.seekFields named rest fields (report, found)).1 ∧
      (seekFields named rest fields (w, found)).2 =
        (Weather.seekFields named rest fields (report, found)).2 := by
  induction fields generalizing w report found with
  | nil => exact ⟨h, rfl⟩
  | cons f fields ih =>
    obtain ⟨hseek, hfound⟩ := h.seek named rest f
    have hstate : Weather.seekFields named rest (f :: fields) (report, found) =
        Weather.seekFields named rest fields
          ((Weather.seek named rest report f).1, found || (Record.seek named rest w f).2) := by
      rw [hfound]
      rfl
    rw [hstate]
    exact ih hseek _

/-! ## The whole record -/

theorem value_fault (w : Record Exact) (fault : Option Fault) : { w with fault }.value = w.value := by
  funext r
  cases r <;> rfl

/-- A fault can be put on both. -/
theorem Agrees.withFault (h : Agrees w report) (fault : Option Fault) :
    Agrees { w with fault } { report with fault } := by
  refine ⟨fun r => ?_, rfl⟩
  rw [value_fault, reading_fault]
  exact h.readings r

/-- What is read behind a block, or where there is none. -/
theorem readFrom_exact {rest behind : Bytes} {row : List Token} (h : Agrees w report) (bytes : Bytes)
    (htokens : tokens rest = (row, behind)) (hrow : ∀ token ∈ row, token.Valid) :
    (readFrom bytes w rest).2 = behind ∧
      Agrees (readFrom bytes w rest).1 (Weather.readFrom bytes report rest).1 ∧
      ∃ found : List (Field × Text), (found.map Prod.fst).Sublist sought ∧
        (∀ group ∈ found, group.1.Leftmost group.2 behind) ∧
        Run w.value (row.flatMap Token.groups ++ found) (readFrom bytes w rest).1.value := by
  have hprogress : (Progress.mk w false).Agrees ⟨report, false⟩ := ⟨h, rfl⟩
  have hafter := hprogress.foldl hrow
  have hrun := run_foldl ⟨w, false⟩ hrow
  unfold readFrom Weather.readFrom
  rw [htokens]
  dsimp only
  generalize row.foldl Progress.apply ⟨w, false⟩ = p at hafter hrun ⊢
  generalize row.foldl Weather.Progress.apply ⟨report, false⟩ = q at hafter ⊢
  obtain ⟨found, hsublist, hleftmost, hseek⟩ :=
    run_seekFields p.directionAsField behind sought (p.record, false)
  obtain ⟨hagrees, hfound⟩ := hafter.record.seekFields p.directionAsField behind sought false
  rw [seekAll_eq_seekFields, ← hafter.named]
  generalize seekFields p.directionAsField behind sought (p.record, false) = result
    at hseek hagrees hfound ⊢
  generalize Weather.seekFields p.directionAsField behind sought (q.report, false) = result'
    at hagrees hfound ⊢
  rw [← hfound]
  have hall := hrun.append hseek
  split
  · rw [value_fault]
    exact ⟨rfl, hagrees.withFault _, found, hsublist, hleftmost, hall⟩
  · exact ⟨rfl, hagrees, found, hsublist, hleftmost, hall⟩

theorem value_empty : (empty : Record Exact).value = fun _ => none := by
  funext r
  cases r <;> rfl

/-- What is read of octets that are a block, if one comes first, a row of tokens and a rest. -/
theorem read_exact {bytes rest behind : Bytes} {block : Option Block} {row : List Token}
    (hblock : block? bytes = block.map fun b => (b.fields, rest)) (hnone : block = none → rest = bytes)
    (htokens : tokens rest = (row, behind)) (hvalid : ∀ b ∈ block, b.Valid)
    (hrow : ∀ token ∈ row, token.Valid) :
    (read bytes : Record Exact × Bytes).2 = behind ∧
      Agrees (read bytes).1 (Weather.read bytes).1 ∧
      ∃ found : List (Field × Text), (found.map Prod.fst).Sublist sought ∧
        (∀ group ∈ found, group.1.Leftmost group.2 behind) ∧
        Run (fun _ => none) (block.elim [] Block.fields ++ row.flatMap Token.groups ++ found)
          (read bytes : Record Exact × Bytes).1.value := by
  unfold read Weather.read
  rw [hblock, ← value_empty]
  cases block with
  | none =>
    obtain rfl := hnone rfl
    exact readFrom_exact agrees_empty rest htokens hrow
  | some b =>
    have hfields := (hvalid b rfl).admits
    obtain ⟨hrest, hagrees, found, hsublist, hleftmost, hrun⟩ :=
      readFrom_exact (agrees_empty.applyBlock hfields) bytes htokens hrow
    have hall := (run_applyBlock empty hfields).append hrun
    rw [← List.append_assoc] at hall
    exact ⟨hrest, hagrees, found, hsublist, hleftmost, hall⟩

/-- The place behind a report is the one behind the pieces of its payload. -/
theorem exists_pieces (payload : Bytes) (start : Nat) :
    ∃ block row, Pieces payload (min start payload.length) (Weather.decode payload start).2 block row := by
  obtain ⟨block, row, -, hparts, -⟩ := read_spec (payload.drop (min start payload.length))
  have hcursor : (Weather.decode payload start).2 = payload.length -
      (Weather.read (payload.drop (min start payload.length))).2.length := by
    unfold Weather.decode
    rw [← List.drop_eq_drop_min]
  exact ⟨block, row, (hparts.pieces (Nat.min_le_right start payload.length) hcursor).2⟩

/-- **The conversions of a weather record change nothing.** For every payload and every place in it, the
record is set by a run of the groups that are matched: those of the block and of the tokens between the
beginning and the cursor, and the leftmost numbers behind these of fields that are sought. Each of them gives
its reading exactly the integer that is written, so all readings lie in their ranges, and the record agrees
with the report whose integers no word bounds. -/
theorem decode_exact (payload : Bytes) (start : Nat) :
    let begin := min start payload.length
    let record := (decode payload start : Record Exact × Nat).1
    let cursor := (decode payload start : Record Exact × Nat).2
    ∃ (block : Option Block) (row : List Token) (found : List (Field × Text)),
      Pieces payload begin cursor block row ∧
      (found.map Prod.fst).Sublist sought ∧
      (∀ group ∈ found, group.1.Leftmost group.2 (payload.drop cursor)) ∧
      Run (fun _ => none) (block.elim [] Block.fields ++ row.flatMap Token.groups ++ found)
        record.value ∧
      InRange record.value ∧
      Agrees record (Weather.decode payload start).1 ∧
      cursor = (Weather.decode payload start).2 := by
  intro begin record cursor
  obtain ⟨block, row, hpieces⟩ := exists_pieces payload start
  obtain ⟨more, hblock, hnone, htokens⟩ := hpieces.parsed
  obtain ⟨hrest, hagrees, found, hsublist, hleftmost, hrun⟩ :=
    read_exact hblock hnone htokens hpieces.block_valid hpieces.row_valid
  rw [← List.drop_eq_drop_min] at hrest hagrees hrun
  have hcursor : cursor = (Weather.decode payload start).2 := by
    show payload.length - (read (payload.drop start) : Record Exact × Bytes).2.length = _
    rw [hrest, List.length_drop]
    exact Nat.sub_sub_self hpieces.bounds.2
  rw [← hcursor] at hpieces hleftmost
  have hrange : InRange record.value := hrun.inRange (hpieces.admits hleftmost) fun _ _ => nofun
  exact ⟨block, row, found, hpieces, hsublist, hleftmost, hrun, hrange, hagrees, hcursor⟩

end Record

end Aprs.Weather
