import Aprs.Proofs.Weather.Pieces

/-!
# The readings of a weather report

A field does not always write the same reading: an `s` is the wind speed or the snowfall, as the state of
the report tells. And a reading has not always one field: both letters of the luminosity write the same.
Which reading a field writes is said once (`Field.target`), and setting it changes that one alone
(`reading_set`). From there the readings are followed through both passes:

> what a row of tokens tells is gathered from left to right (`gathers_foldl`), and seeking in the rest
> keeps what is held and gives the other readings what is found first (`reading_seekFields`).

Both are inductions on what is worked off, the tokens and the fields that are sought. What an `s` writes
is settled for the whole of the second pass, since no other field that is sought has to do with the wind
speed (`windSpeed_seek`).

Specification: 4.5 (Weather Decoder) and 12.5 (Weather).
-/

namespace Aprs.Weather

/-- The readings that a report may hold. -/
inductive Reading
  | windDirection
  | windSpeed
  | windGust
  | temperature
  | rainLastHour
  | rainLastDay
  | rainSinceMidnight
  | humidity
  | pressure
  | luminosity
  | snowfall
  | rainCounter
  deriving DecidableEq, Repr

/-- What a report holds of a reading. -/
def reading (w : Weather) : Reading → Option Int
  | .windDirection => w.windDirection.map Int.ofNat
  | .windSpeed => w.windSpeed.map Int.ofNat
  | .windGust => w.windGust.map Int.ofNat
  | .temperature => w.temperature
  | .rainLastHour => w.rainLastHour.map Int.ofNat
  | .rainLastDay => w.rainLastDay.map Int.ofNat
  | .rainSinceMidnight => w.rainSinceMidnight.map Int.ofNat
  | .humidity => w.humidity.map Int.ofNat
  | .pressure => w.pressure.map Int.ofNat
  | .luminosity => w.luminosity.map Int.ofNat
  | .snowfall => w.snowfall.map Int.ofNat
  | .rainCounter => w.rainCounter.map Int.ofNat

/-- The reading that a field gives. An `s` gives the wind speed if the direction was named by a letter and
no speed is held, and the snowfall otherwise. -/
def Field.target (named speedHeld : Bool) : Field → Reading
  | windDirection => .windDirection
  | windSpeedOrSnowfall => if named && !speedHeld then .windSpeed else .snowfall
  | windGust => .windGust
  | temperature => .temperature
  | rainLastHour => .rainLastHour
  | rainLastDay => .rainLastDay
  | rainSinceMidnight => .rainSinceMidnight
  | humidity => .humidity
  | pressure => .pressure
  | luminosityLow | luminosityHigh => .luminosity
  | rainCounter => .rainCounter

/-- The count that is written for a reading, if it is a number at all. -/
def count? (written : Text) : Option Int := (Decimal.integer? written).map fun n => (n.toNat : Int)

/-- The value of a reading from what is written for a field. No number stands for a missing reading, a
humidity of zero for a hundred. -/
def Field.quantity (written : Text) : Field → Option Int
  | temperature => Decimal.integer? written
  | humidity => (count? written).map fun n => if n = 0 then 100 else n
  | luminosityHigh => (count? written).map (· + 1000)
  | _ => count? written

/-- A speed is expected behind a direction that was named, unless it is held. -/
theorem speedExpected_eq (w : Weather) (named : Bool) :
    w.speedExpected named = (named && !w.windSpeed.isSome) := by
  unfold speedExpected
  rw [Option.not_isSome]

/-- Setting a field sets its reading, and no other. -/
theorem reading_set (w : Weather) (named : Bool) (f : Field) (written : Text) (r : Reading) :
    (w.set named f written).reading r =
      if f.target named w.windSpeed.isSome = r then f.quantity written else w.reading r := by
  have hcount (written : Text) :
      ((Decimal.integer? written).map Int.toNat).map Int.ofNat = count? written := Option.map_map ..
  cases f with
  | windSpeedOrSnowfall =>
    unfold set Field.target
    dsimp only
    rw [speedExpected_eq]
    split
    · cases r <;> first | rfl | exact hcount written
    · cases r <;> first | rfl | exact hcount written
  | humidity =>
    cases r
    case humidity =>
      unfold Field.quantity
      rw [← hcount]
      show ((((Decimal.integer? written).map Int.toNat).map fun n => if n = 0 then 100 else n).map
        Int.ofNat) = _
      cases (Decimal.integer? written).map Int.toNat with
      | none => rfl
      | some n => cases n <;> rfl
    all_goals rfl
  | luminosityHigh =>
    cases r
    case luminosity =>
      unfold Field.quantity
      rw [← hcount]
      show ((((Decimal.integer? written).map Int.toNat).map (· + 1000)).map Int.ofNat) = _
      cases (Decimal.integer? written).map Int.toNat <;> rfl
    all_goals rfl
  | temperature => cases r <;> rfl
  | _ => cases r <;> first | rfl | exact hcount written

/-- A field is held if its reading is. -/
theorem holds_eq (w : Weather) (named : Bool) (f : Field) :
    w.holds named f = (w.reading (f.target named w.windSpeed.isSome)).isSome := by
  cases f with
  | windSpeedOrSnowfall =>
    show (!w.speedExpected named && w.snowfall.isSome) =
      (w.reading (if named && !w.windSpeed.isSome then .windSpeed else .snowfall)).isSome
    rw [speedExpected_eq]
    split
    · next hspeed =>
      have hnone : w.windSpeed = none := by
        have hnot := (Bool.and_eq_true_iff.mp hspeed).2
        cases hw : w.windSpeed with
        | none => rfl
        | some n => rw [hw] at hnot; contradiction
      rw [hspeed]
      show false = (w.windSpeed.map Int.ofNat).isSome
      rw [hnone]
      rfl
    · next hspeed =>
      rw [Bool.not_eq_true] at hspeed
      rw [hspeed]
      exact Option.isSome_map.symm
  | temperature => rfl
  | _ => exact Option.isSome_map.symm

/-! ## What is gathered from left to right -/

/-- What a block tells of a reading. -/
def Block.told (b : Block) : Reading → Option Int
  | .windDirection => count? b.direction
  | .windSpeed => count? b.speed
  | .windGust => count? b.gust
  | .temperature => Decimal.integer? b.temperature
  | .rainLastHour => count? b.lastHour
  | .rainLastDay => count? b.lastDay
  | .rainSinceMidnight => count? b.sinceMidnight
  | .humidity => Field.humidity.quantity b.humidity
  | .pressure => count? b.pressure
  | .luminosity | .snowfall | .rainCounter => none

/-- What a token writes for a reading, if it writes for it at all: a value, or that there is none. -/
def Token.written? (named speedHeld : Bool) (r : Reading) : Token → Option (Option Int)
  | .wind direction speed =>
    if r = .windDirection then some (count? direction)
    else if r = .windSpeed then some (count? speed)
    else none
  | .field f value => if f.target named speedHeld = r then some (f.quantity value) else none

/-- Whether a token names the direction of the wind by its letter. -/
def Token.namesDirection : Token → Bool
  | .wind _ _ => false
  | .field f _ => f == .windDirection

/-- A report holds what a block and a row of tokens tell, taken from left to right. -/
inductive Gathers (block : Option Block) : List Token → Weather → Prop
  | start {held : Weather} (h : ∀ r, held.reading r = block.bind fun b => b.told r) :
    Gathers block [] held
  | next {row : List Token} {held : Weather} {token : Token} {held' : Weather}
    (before : Gathers block row held)
    (h : ∀ r, held'.reading r =
      (token.written? (row.any Token.namesDirection) held.windSpeed.isSome r).getD (held.reading r)) :
    Gathers block (row ++ [token]) held'

theorem reading_applyBlock (b : Block) (r : Reading) :
    (empty.applyBlock b.fields).reading r = b.told r := by
  simp only [applyBlock, Block.fields, List.foldl_cons, List.foldl_nil, reading_set]
  cases r <;> rfl

theorem target_named (f : Field) (named speedHeld : Bool) :
    f.target (named || f == .windDirection) speedHeld = f.target named speedHeld := by
  cases f with
  | windSpeedOrSnowfall =>
    have hother : (named || Field.windSpeedOrSnowfall == .windDirection) = named := Bool.or_false named
    rw [hother]
  | _ => rfl

/-- Whether a direction was named is remembered from token to token. -/
theorem directionAsField_apply (p : Progress) (token : Token) :
    (p.apply token).directionAsField = (p.directionAsField || token.namesDirection) := by
  cases token with
  | wind direction speed => exact (Bool.or_false _).symm
  | field f value => rfl

/-- A token leaves all readings but those that it writes for. -/
theorem reading_apply (p : Progress) (token : Token) (r : Reading) :
    (p.apply token).report.reading r =
      (token.written? p.directionAsField p.report.windSpeed.isSome r).getD (p.report.reading r) := by
  cases token with
  | wind direction speed =>
    have hspeed : ((Decimal.integer? speed).map Int.toNat).map Int.ofNat = count? speed :=
      Option.map_map ..
    have hdirection : ((Decimal.integer? direction).map Int.toNat).map Int.ofNat = count? direction :=
      Option.map_map ..
    cases r <;> first | rfl | exact hspeed | exact hdirection
  | field f value =>
    show (p.report.set (p.directionAsField || f == .windDirection) f value).reading r = _
    rw [reading_set, target_named]
    show _ = (if f.target p.directionAsField p.report.windSpeed.isSome = r then some (f.quantity value)
      else none).getD (p.report.reading r)
    split <;> rfl

/-- **A row gathers token by token**: behind each of them a reading is that of the last token that tells it.
-/
theorem gathers_foldl {block : Option Block} (row : List Token) :
    ∀ (earlier : List Token) (p : Progress), Gathers block earlier p.report →
      p.directionAsField = earlier.any Token.namesDirection →
      Gathers block (earlier ++ row) (row.foldl Progress.apply p).report ∧
        (row.foldl Progress.apply p).directionAsField = (earlier ++ row).any Token.namesDirection := by
  induction row with
  | nil =>
    intro earlier p hgathers hnamed
    rw [List.append_nil]
    exact ⟨hgathers, hnamed⟩
  | cons token row ih =>
    intro earlier p hgathers hnamed
    have hnext : Gathers block (earlier ++ [token]) (p.apply token).report :=
      hgathers.next fun r => hnamed ▸ reading_apply p token r
    have hnamed' : (p.apply token).directionAsField = (earlier ++ [token]).any Token.namesDirection := by
      rw [directionAsField_apply, hnamed, List.any_append, List.any_cons, List.any_nil, Bool.or_false]
    have hall := ih _ _ hnext hnamed'
    rw [List.append_assoc] at hall
    exact hall

/-! ## What is sought in the rest -/

/-- Seeking one field after the other. -/
def seekFields (named : Bool) (rest : Bytes) (fields : List Field) (state : Weather × Bool) :
    Weather × Bool :=
  fields.foldl (fun (w, found) f =>
    let (w, foundNow) := seek named rest w f
    (w, found || foundNow)) state

theorem seekAll_eq_seekFields (named : Bool) (rest : Bytes) (w : Weather) :
    seekAll named rest w = seekFields named rest sought (w, false) := rfl

/-- What is found for a reading in the rest. -/
def foundIn? (rest : Bytes) (named speedHeld : Bool) (r : Reading) (f : Field) : Option Int :=
  if f.target named speedHeld = r then (find? f rest).bind fun written => f.quantity written else none

/-- Seeking a field leaves a reading that is held, and gives what is found otherwise. -/
theorem reading_seek (named : Bool) (rest : Bytes) (w : Weather) (f : Field) (r : Reading) :
    (seek named rest w f).1.reading r =
      (w.reading r).or (foundIn? rest named w.windSpeed.isSome r f) := by
  have hholds := holds_eq w named f
  unfold seek foundIn?
  split
  · next hheld =>
    rw [hheld] at hholds
    split
    · next htarget =>
      rw [htarget] at hholds
      obtain ⟨n, hn⟩ := Option.isSome_iff_exists.mp hholds.symm
      rw [hn]
      rfl
    · exact (Option.or_none ..).symm
  next hheld =>
    rw [Bool.not_eq_true] at hheld
    rw [hheld] at hholds
    split
    · next written hfound =>
      rw [reading_set, hfound]
      split
      · next htarget =>
        rw [htarget] at hholds
        have hnone : w.reading r = none :=
          Option.isNone_iff_eq_none.mp (Option.isSome_eq_false_iff.mp hholds.symm)
        rw [hnone]
        rfl
      · exact (Option.or_none ..).symm
    · next hfound =>
      rw [hfound]
      split <;> exact (Option.or_none ..).symm

/-- Only the field of speed or snowfall depends on whether a speed is held. -/
theorem target_of_ne {f : Field} (h : f ≠ .windSpeedOrSnowfall) (named speedHeld speedHeld' : Bool) :
    f.target named speedHeld = f.target named speedHeld' := by
  cases f with
  | windSpeedOrSnowfall => contradiction
  | _ => rfl

/-- No field but an `s` has to do with the wind speed. -/
theorem windSpeed_seek {f : Field} (h : f ≠ .windSpeedOrSnowfall) (named : Bool) (rest : Bytes)
    (w : Weather) : (seek named rest w f).1.windSpeed = w.windSpeed := by
  unfold seek
  split
  · rfl
  split
  · cases f with
    | windSpeedOrSnowfall => contradiction
    | _ => rfl
  · rfl

/-- **Seeking leaves the readings that are held and gives the others what is found first.** Whether a wind
speed is held when an `s` is sought was settled before. -/
theorem reading_seekFields (named : Bool) (rest : Bytes) {speedHeld : Bool} (r : Reading) :
    ∀ {fields : List Field} (w : Weather) (found : Bool), fields.Nodup →
      (.windSpeedOrSnowfall ∈ fields → w.windSpeed.isSome = speedHeld) →
      (seekFields named rest fields (w, found)).1.reading r =
        (w.reading r).or (fields.findSome? (foundIn? rest named speedHeld r)) := by
  intro fields
  induction fields with
  | nil => intro w found _ _; exact (Option.or_none ..).symm
  | cons f fields ih =>
    intro w found hnodup hspeed
    obtain ⟨hnew, hnodup⟩ := List.nodup_cons.mp hnodup
    have hfound : foundIn? rest named w.windSpeed.isSome r f = foundIn? rest named speedHeld r f := by
      by_cases hf : f = .windSpeedOrSnowfall
      · rw [hspeed (hf ▸ List.mem_cons_self)]
      · unfold foundIn?
        rw [target_of_ne hf]
    have hkept : .windSpeedOrSnowfall ∈ fields →
        (seek named rest w f).1.windSpeed.isSome = speedHeld := by
      intro hmem
      have hf : f ≠ .windSpeedOrSnowfall := fun h => hnew (h ▸ hmem)
      rw [windSpeed_seek hf]
      exact hspeed (List.mem_cons_of_mem f hmem)
    have hrest : (seekFields named rest (f :: fields) (w, found)).1.reading r = _ :=
      ih (seek named rest w f).1 (found || (seek named rest w f).2) hnodup hkept
    rw [hrest, reading_seek, hfound, List.findSome?_cons, Option.or_assoc]
    cases foundIn? rest named speedHeld r f <;> rfl

/-- Seeking finds nothing exactly if nothing is found for any field that is not held. -/
theorem found_seekFields (named : Bool) (rest : Bytes) :
    ∀ (fields : List Field) (w : Weather), (seekFields named rest fields (w, false)).2 = false ↔
      ∀ f ∈ fields, w.holds named f = false → find? f rest = none := by
  have hstays (fields : List Field) : ∀ w, (seekFields named rest fields (w, true)).2 = true := by
    induction fields with
    | nil => intro w; rfl
    | cons f fields ih => intro w; exact ih _
  intro fields
  induction fields with
  | nil => intro w; exact iff_of_true rfl fun f hf => absurd hf List.not_mem_nil
  | cons f fields ih =>
    intro w
    rw [List.forall_mem_cons]
    show (seekFields named rest fields
      ((seek named rest w f).1, false || (seek named rest w f).2)).2 = false ↔ _
    rw [Bool.false_or]
    unfold seek
    split
    · next hheld =>
      rw [ih]
      exact ⟨fun h => ⟨fun hnot => absurd hheld (hnot ▸ Bool.false_ne_true), h⟩, fun h => h.2⟩
    next hheld =>
      split
      · next written hfound =>
        rw [hstays]
        refine iff_of_false (Ne.symm Bool.false_ne_true) fun h => ?_
        exact nomatch (h.1 (Bool.not_eq_true _ ▸ hheld)).symm.trans hfound
      · next hfound =>
        rw [ih]
        exact ⟨fun h => ⟨fun _ => hfound, h⟩, fun h => h.2⟩

/-! ## Faults -/

theorem fault_set (w : Weather) (named : Bool) (f : Field) (written : Text) :
    (w.set named f written).fault = w.fault := by
  cases f with
  | windSpeedOrSnowfall => unfold set; dsimp only; split <;> rfl
  | _ => rfl

theorem fault_applyBlock (w : Weather) (fields : List (Field × Text)) :
    (w.applyBlock fields).fault = w.fault := by
  induction fields generalizing w with
  | nil => rfl
  | cons entry fields ih => exact (ih _).trans (fault_set w true entry.1 entry.2)

theorem fault_foldl (row : List Token) (p : Progress) :
    (row.foldl Progress.apply p).report.fault = p.report.fault := by
  induction row generalizing p with
  | nil => rfl
  | cons token row ih =>
    refine (ih _).trans ?_
    cases token with
    | wind direction speed => rfl
    | field f value => exact fault_set p.report _ f value

theorem fault_seekFields (named : Bool) (rest : Bytes) (fields : List Field) (state : Weather × Bool) :
    (seekFields named rest fields state).1.fault = state.1.fault := by
  induction fields generalizing state with
  | nil => rfl
  | cons f fields ih =>
    refine (ih _).trans ?_
    show (seek named rest state.1 f).1.fault = state.1.fault
    unfold seek
    split
    · rfl
    split
    · exact fault_set state.1 named f _
    · rfl

end Aprs.Weather
