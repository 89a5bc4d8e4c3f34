import Aprs.Proofs.Position.Uncompressed
import Aprs.Proofs.Scalar

/-!
# The octets of an uncompressed position

An uncompressed position is nineteen octets of a fixed form (`Layout`), and a coordinate of it is digits of
degrees, digits of minutes with blanks in place of the last ones, and a letter (`Coordinate`). What is read
of a coordinate is what it writes, with zeros for the blanks (`angle_eq_ok_iff`), and the octets of a layout
tell all its parts (`Layout.octets_injective`).

The limits of the longitude are looked at after the digits have been disregarded that are blank in the
latitude. A longitude that is written beyond them can so be brought back, and what holds is

> `accepted_iff`: a position is read without a fault exactly if it has the form and is within the limits,
> except where digits are disregarded that would lead beyond them.

What was read is written again with the digits and blanks that it came with:

> `text_eq_rewritten`: the text of a position is the octets that it was read from, with letters in upper case
> and with the ambiguity of the latitude in the longitude too.

Specification: 4.3 (Position Decoder) and 14 (Resolved Ambiguities).
-/

namespace Aprs

/-- A letter stands for a hemisphere in either case, and no other does. -/
theorem Axis.negative?_eq_some_iff {axis : Axis} {b : UInt8} {negative : Bool} :
    axis.negative? b = some negative ↔ (charOfByte b).toUpper = axis.letter negative := by
  have hletters : axis.letter false ≠ axis.letter true := by cases axis <;> decide
  unfold negative?
  dsimp only
  split
  · next hfalse => cases negative <;> simp [hfalse, hletters]
  split
  · next hfalse htrue => cases negative <;> simp [htrue, hletters.symm]
  · next hfalse htrue => cases negative <;> simp [hfalse, htrue]

namespace Uncompressed

/-! ## Coordinates -/

/-- A coordinate as a station writes it. -/
structure Coordinate (axis : Axis) where
  /-- The digits of the degrees. -/
  degrees : Bytes
  /-- The digits of the minutes that are not blank. -/
  minutes : Bytes
  /-- How many digits of the minutes are blank. -/
  blanks : Nat
  letter : UInt8
  negative : Bool
  degrees_length : degrees.length = axis.degreeDigits
  degrees_digit : ∀ b ∈ degrees, 0x30 ≤ b.toNat ∧ b.toNat ≤ 0x39
  minutes_length : minutes.length + blanks = 4
  minutes_digit : ∀ b ∈ minutes, 0x30 ≤ b.toNat ∧ b.toNat ≤ 0x39
  letter_eq : (charOfByte letter).toUpper = axis.letter negative

namespace Coordinate

variable {axis : Axis} (w : Coordinate axis)

/-- The four octets of the minutes: digits followed by blanks. -/
def fourMinutes : Bytes := w.minutes ++ List.replicate w.blanks 0x20

/-- The octets of the coordinate, with a point between the whole minutes and their hundredths. -/
def octets : Bytes :=
  w.degrees ++ w.fourMinutes.take 2 ++ 0x2E :: w.fourMinutes.drop 2 ++ [w.letter]

/-- The hundredths of minutes that are written, blanks counting as zeros. -/
def hundredths : Nat := Decimal.value (w.minutes ++ List.replicate w.blanks 0x30)

/-- The angle that is written, but for digits of the minutes that are disregarded. -/
def told (disregarded : Nat) : Angle :=
  ⟨Decimal.value w.degrees, Angle.truncate disregarded w.hundredths, w.negative⟩

/-- The minutes are below sixty, and the angle does not lead beyond the end of its axis. -/
structure InRange (disregarded : Nat) : Prop where
  hundredths_lt : (w.told disregarded).hundredths < 6000
  within : (w.told disregarded).Within axis

theorem blanks_le : w.blanks ≤ 4 := by
  have := w.minutes_length
  omega

theorem length_fourMinutes : w.fourMinutes.length = 4 := by
  unfold fourMinutes
  rw [List.length_append, List.length_replicate, w.minutes_length]

theorem exists_fourMinutes : ∃ a b c d, w.fourMinutes = [a, b, c, d] := by
  match w.fourMinutes, w.length_fourMinutes with
  | [a, b, c, d], _ => exact ⟨a, b, c, d, rfl⟩

/-- The field of a coordinate, octet by octet. -/
theorem octets_four {a b c d : UInt8} (h : w.fourMinutes = [a, b, c, d]) :
    w.octets = w.degrees ++ [a, b, 0x2E, c, d, w.letter] := by
  unfold octets
  rw [h]
  simp only [List.append_assoc]
  rfl

theorem length_octets : w.octets.length = axis.degreeDigits + 6 := by
  obtain ⟨a, b, c, d, hfour⟩ := w.exists_fourMinutes
  rw [w.octets_four hfour, List.length_append, w.degrees_length]
  rfl

theorem ne_blank_of_mem_minutes : ∀ b ∈ w.minutes, b ≠ 0x20 := by
  rintro b hb rfl
  exact absurd (w.minutes_digit _ hb).1 (by decide)

/-- The minutes are read with zeros for their blanks. -/
theorem unblank_fourMinutes :
    unblank w.fourMinutes = .ok (w.minutes ++ List.replicate w.blanks 0x30, w.blanks) :=
  unblank_eq_ok_iff.mpr ⟨w.minutes, rfl, w.ne_blank_of_mem_minutes, rfl⟩

theorem digit_of_mem_unblanked :
    ∀ b ∈ w.minutes ++ List.replicate w.blanks 0x30, 0x30 ≤ b.toNat ∧ b.toNat ≤ 0x39 := by
  intro b hb
  rcases List.mem_append.mp hb with hdigit | hzero
  · exact w.minutes_digit b hdigit
  · rw [List.eq_of_mem_replicate hzero]
    decide

theorem length_unblanked : (w.minutes ++ List.replicate w.blanks 0x30).length = 4 := by
  rw [List.length_append, List.length_replicate, w.minutes_length]

instance (disregarded : Nat) : Decidable (w.InRange disregarded) :=
  decidable_of_iff
    ((w.told disregarded).hundredths < 6000 ∧
      (w.told disregarded).degrees * Angle.perDegree + (w.told disregarded).hundredths ≤
        axis.limit * Angle.perDegree)
    ⟨fun ⟨hlt, hwithin⟩ => ⟨hlt, hwithin⟩, fun ⟨hlt, hwithin⟩ => ⟨hlt, hwithin⟩⟩

/-- Digits that are disregarded make an angle no greater. -/
theorem InRange.disregard {w : Coordinate axis} (h : w.InRange 0) (disregarded : Nat) :
    w.InRange disregarded := by
  have hless : Angle.truncate disregarded w.hundredths ≤ Angle.truncate 0 w.hundredths := by
    rw [Angle.truncate_zero]
    exact Angle.truncate_le disregarded w.hundredths
  exact ⟨Nat.lt_of_le_of_lt hless h.hundredths_lt,
    Nat.le_trans (Nat.add_le_add_left hless _) h.within⟩

/-- The octets of a coordinate tell its parts. -/
theorem octets_injective {w w' : Coordinate axis} (h : w.octets = w'.octets) : w = w' := by
  obtain ⟨a, b, c, d, hfour⟩ := w.exists_fourMinutes
  obtain ⟨a', b', c', d', hfour'⟩ := w'.exists_fourMinutes
  rw [w.octets_four hfour, w'.octets_four hfour'] at h
  obtain ⟨hdegrees, hrest⟩ := List.append_inj h (w.degrees_length.trans w'.degrees_length.symm)
  simp only [List.cons.injEq, and_true, true_and] at hrest
  obtain ⟨rfl, rfl, rfl, rfl, hletter⟩ := hrest
  have hunblank := w.unblank_fourMinutes
  rw [hfour, ← hfour', w'.unblank_fourMinutes] at hunblank
  obtain ⟨hminutes, hblanks⟩ := Prod.mk.inj (Except.ok.inj hunblank)
  rw [hblanks] at hminutes
  have hsign := w.letter_eq
  rw [← Axis.negative?_eq_some_iff, hletter, Axis.negative?_eq_some_iff.mpr w'.letter_eq] at hsign
  obtain ⟨degrees, minutes, blanks, letter, negative, _, _, _, _, _⟩ := w
  obtain ⟨degrees', minutes', blanks', letter', negative', _, _, _, _, _⟩ := w'
  simp only at hdegrees hminutes hblanks hletter hsign
  obtain rfl := hdegrees
  obtain rfl := List.append_cancel_right hminutes
  obtain rfl := hblanks
  obtain rfl := hletter
  obtain rfl := Option.some.inj hsign
  rfl

end Coordinate

/-- A field is a number exactly if it is read as one. -/
theorem number_eq_ok_iff {field : Bytes} {n : Nat} :
    number field = .ok n ↔ Decimal.field? field = some n := by
  unfold number
  cases Decimal.field? field <;> simp

/-- What the limits leave of the degrees and the minutes: whole degrees beyond the end of the axis lead
beyond it with any minutes. -/
theorem limits_iff {axis : Axis} {degrees hundredths : Nat} :
    ¬(axis.limit < degrees ∨ Angle.perDegree ≤ hundredths ∨
        axis.limit * Angle.perDegree < degrees * Angle.perDegree + hundredths) ↔
      hundredths < 6000 ∧
        degrees * Angle.perDegree + hundredths ≤ axis.limit * Angle.perDegree := by
  have hunit : Angle.perDegree = 6000 := rfl
  rw [hunit]
  omega

/-- A field that is read as an angle is the octets of a coordinate in range. -/
theorem exists_coordinate {axis : Axis} {disregarded blanks : Nat} {field : Bytes} {a : Angle}
    (h : angle axis disregarded field = .ok (a, blanks)) :
    ∃ w : Coordinate axis, field = w.octets ∧ w.InRange disregarded ∧ a = w.told disregarded ∧
      blanks = w.blanks := by
  unfold angle at h
  dsimp only at h
  split at h
  case h_2 => contradiction
  next m₁ m₂ point m₃ m₄ letter hbehind =>
  split at h
  · contradiction
  next hpoint =>
  obtain ⟨⟨unblanked, trailing⟩, hunblank, h⟩ := bind_eq_ok_iff.mp h
  obtain ⟨degrees, hdegrees, h⟩ := bind_eq_ok_iff.mp h
  obtain ⟨hundredths, hminutes, h⟩ := bind_eq_ok_iff.mp h
  dsimp only at hminutes h
  split at h
  · contradiction
  next hrange =>
  split at h
  case h_2 => contradiction
  next negative hletter =>
  obtain ⟨hlt, hwithin⟩ := limits_iff.mp hrange
  obtain ⟨rfl, rfl⟩ := Prod.mk.inj (Except.ok.inj h)
  obtain ⟨minutes, hfour, -, rfl⟩ := unblank_eq_ok_iff.mp hunblank
  obtain ⟨-, -, hdegreeDigits, rfl⟩ :=
    Decimal.field?_eq_some_iff.mp (number_eq_ok_iff.mp hdegrees)
  obtain ⟨-, -, hminuteDigits, rfl⟩ :=
    Decimal.field?_eq_some_iff.mp (number_eq_ok_iff.mp hminutes)
  have hsix := congrArg List.length hbehind
  rw [List.length_drop] at hsix
  have hlength := congrArg List.length hfour
  rw [List.length_append, List.length_replicate] at hlength
  let w : Coordinate axis :=
    { degrees := field.take axis.degreeDigits
      minutes, blanks := trailing, letter, negative
      degrees_length := by
        rw [List.length_take]
        simp only [List.length_cons, List.length_nil] at hsix
        omega
      degrees_digit := hdegreeDigits
      minutes_length := hlength.symm
      minutes_digit := fun b hb => hminuteDigits b (List.mem_append_left _ hb)
      letter_eq := Axis.negative?_eq_some_iff.mp hletter }
  refine ⟨w, ?_, ⟨hlt, hwithin⟩, rfl, rfl⟩
  rw [w.octets_four hfour.symm, ← Decidable.not_not.mp hpoint, ← hbehind]
  exact (List.take_append_drop _ _).symm

/-- The octets of a coordinate in range are read as the angle that is told. -/
theorem angle_octets {axis : Axis} {disregarded : Nat} {w : Coordinate axis} (h : w.InRange disregarded) :
    angle axis disregarded w.octets = .ok (w.told disregarded, w.blanks) := by
  obtain ⟨m₁, m₂, m₃, m₄, hfour⟩ := w.exists_fourMinutes
  have hunblank := w.unblank_fourMinutes
  rw [hfour] at hunblank
  have hfew : 0 < axis.degreeDigits ∧ axis.degreeDigits ≤ 9 := by cases axis <;> decide
  have hdegrees : Decimal.field? w.degrees = some (Decimal.value w.degrees) :=
    Decimal.field?_eq_some_iff.mpr ⟨List.length_pos_iff.mp (w.degrees_length ▸ hfew.1),
      w.degrees_length ▸ hfew.2, w.degrees_digit, rfl⟩
  have hminutes : Decimal.field? (w.minutes ++ List.replicate w.blanks 0x30) = some w.hundredths :=
    Decimal.field?_eq_some_iff.mpr ⟨List.length_pos_iff.mp (w.length_unblanked ▸ (by decide)),
      w.length_unblanked ▸ (by decide), w.digit_of_mem_unblanked, rfl⟩
  rw [w.octets_four hfour]
  exact angle_eq_ok disregarded w.degrees_length hdegrees hunblank hminutes
    (limits_iff.mpr ⟨h.hundredths_lt, h.within⟩) (Axis.negative?_eq_some_iff.mpr w.letter_eq)

/-- **A field is read as an angle exactly if it is the octets of a coordinate in range**, and as the angle
that is told there. -/
theorem angle_eq_ok_iff {axis : Axis} {disregarded blanks : Nat} {field : Bytes} {a : Angle} :
    angle axis disregarded field = .ok (a, blanks) ↔
      ∃ w : Coordinate axis, field = w.octets ∧ w.InRange disregarded ∧ a = w.told disregarded ∧
        blanks = w.blanks := by
  refine ⟨exists_coordinate, ?_⟩
  rintro ⟨w, rfl, hrange, rfl, rfl⟩
  exact angle_octets hrange

/-! ## Positions -/

/-- The parts of a position: two coordinates and two octets for the symbol, of any kind. -/
structure Layout where
  latitude : Coordinate .latitude
  table : UInt8
  longitude : Coordinate .longitude
  code : UInt8

namespace Layout

variable (l : Layout)

/-- The nineteen octets of a position. -/
def octets : Bytes := l.latitude.octets ++ l.table :: l.longitude.octets ++ [l.code]

/-- The coordinates are in range, the longitude without the digits that are blank in the latitude. -/
structure InRange : Prop where
  latitude : l.latitude.InRange 0
  longitude : l.longitude.InRange l.latitude.blanks

/-- The position that is told. -/
def position {α : Type} [Scalar α] (instant : Instant) : Position α :=
  Position.make (l.latitude.told 0).value (l.longitude.told l.latitude.blanks).value l.latitude.blanks
    (charOfByte l.table) (charOfByte l.code) instant

/-- The longitude stands behind the latitude and the symbol table. -/
theorem take_drop_octets : (l.octets.drop 9).take 9 = l.longitude.octets := by
  have hlength : (l.latitude.octets ++ [l.table]).length = 9 := by
    rw [List.length_append, l.latitude.length_octets]
    rfl
  have hoctets : l.octets = (l.latitude.octets ++ [l.table]) ++ (l.longitude.octets ++ [l.code]) := by
    unfold octets
    simp only [List.append_assoc, List.cons_append, List.nil_append]
  rw [hoctets, List.drop_left' hlength]
  exact List.take_left' l.longitude.length_octets

/-- The octets of a position tell its parts. -/
theorem octets_injective {l l' : Layout} (h : l.octets = l'.octets) : l = l' := by
  unfold octets at h
  simp only [List.append_assoc, List.cons_append] at h
  obtain ⟨hlatitude, h⟩ :=
    List.append_inj h (l.latitude.length_octets.trans l'.latitude.length_octets.symm)
  obtain ⟨htable, h⟩ := List.cons.inj h
  obtain ⟨hlongitude, h⟩ :=
    List.append_inj h (l.longitude.length_octets.trans l'.longitude.length_octets.symm)
  obtain ⟨latitude, table, longitude, code⟩ := l
  obtain ⟨latitude', table', longitude', code'⟩ := l'
  obtain rfl := Coordinate.octets_injective hlatitude
  obtain rfl := htable
  obtain rfl := Coordinate.octets_injective hlongitude
  obtain rfl := (List.cons.inj h).1
  rfl

end Layout

variable {α : Type} [Scalar α] {payload : Bytes} {start : Nat} {instant : Instant}

theorem ok_of_fault?_eq_none {latitude longitude : Except Position.UncompressedFault (Angle × Nat)}
    (h : fault? latitude longitude = none) :
    (∃ a blanks, latitude = .ok (a, blanks)) ∧ ∃ a blanks, longitude = .ok (a, blanks) := by
  cases latitude with
  | error e => contradiction
  | ok first =>
    cases longitude with
    | error e => contradiction
    | ok second => exact ⟨⟨first.1, first.2, rfl⟩, second.1, second.2, rfl⟩

/-- Nineteen octets are eight for the latitude, one, nine for the longitude, and one. -/
theorem parts_of_length {field : Bytes} (h : field.length = width) :
    field = field.take 8 ++ field.getD 8 0 :: (field.drop 9).take 9 ++ [field.getD 18 0] := by
  have hnineteen : field.length = 19 := h
  have hget {i : Nat} (hi : i < 19) : field.drop i = field.getD i 0 :: field.drop (i + 1) := by
    rw [List.getD_eq_getElem?_getD, List.getElem?_eq_getElem (hnineteen ▸ hi)]
    exact List.drop_eq_getElem_cons (hnineteen ▸ hi)
  have hend : field.drop 19 = [] := List.drop_eq_nil_of_le (Nat.le_of_eq hnineteen)
  calc field
      = field.take 8 ++ field.drop 8 := (List.take_append_drop 8 field).symm
    _ = field.take 8 ++ field.getD 8 0 :: field.drop 9 := by
        rw [hget (show 8 < 19 by decide)]
    _ = field.take 8 ++ field.getD 8 0 :: ((field.drop 9).take 9 ++ field.drop 18) := by
        rw [← List.drop_drop (l := field) (i := 9) (j := 9), List.take_append_drop]
    _ = field.take 8 ++ field.getD 8 0 :: (field.drop 9).take 9 ++ [field.getD 18 0] := by
        rw [hget (show 18 < 19 by decide), hend, List.append_assoc, List.cons_append]

/-- What is read without a fault has a layout in range. -/
theorem exists_layout (h : (decode (α := α) payload start instant).1.fault = none) :
    ∃ l : Layout, (payload.drop start).take width = l.octets ∧ l.InRange := by
  unfold decode at h
  dsimp only at h
  split at h
  · contradiction
  next hroom =>
    split at h
    · contradiction
    next hread =>
      obtain ⟨⟨first, ambiguity, hlatitude⟩, second, blanks, hlongitude⟩ := ok_of_fault?_eq_none hread
      rw [hlatitude] at hlongitude
      obtain ⟨latitude, hfirst, hnorth, -, rfl⟩ := angle_eq_ok_iff.mp hlatitude
      obtain ⟨longitude, hsecond, heast, -, -⟩ := angle_eq_ok_iff.mp hlongitude
      have hlength : ((payload.drop start).take width).length = width :=
        Nat.le_antisymm (List.length_take_le _ _) (Nat.le_of_not_lt hroom)
      have hparts := parts_of_length hlength
      rw [hfirst, hsecond] at hparts
      exact ⟨⟨latitude, _, longitude, _⟩, hparts, hnorth, heast⟩

/-- **Octets of a layout in range are read as the position that is told.** -/
theorem decode_layout {l : Layout} (h : (payload.drop start).take width = l.octets)
    (hrange : l.InRange) (instant : Instant) :
    decode (α := α) payload start instant = readBehind payload start l.code (l.position instant) := by
  have hpayload : payload.drop start = l.latitude.octets ++ l.table :: l.longitude.octets ++
      l.code :: (payload.drop start).drop width := by
    have hsplit := List.take_append_drop width (payload.drop start)
    rw [h] at hsplit
    unfold Layout.octets at hsplit
    rw [List.append_assoc _ [l.code]] at hsplit
    exact hsplit.symm
  exact decode_eq_ok hpayload l.latitude.length_octets l.longitude.length_octets
    (angle_octets hrange.latitude) (angle_octets hrange.longitude) instant

/-- A position is read without a fault exactly if its octets have a layout in range. -/
theorem fault_eq_none_iff :
    (decode (α := α) payload start instant).1.fault = none ↔
      ∃ l : Layout, (payload.drop start).take width = l.octets ∧ l.InRange := by
  refine ⟨exists_layout, fun ⟨l, hoctets, hrange⟩ => ?_⟩
  rw [decode_layout hoctets hrange]
  rfl

/-- A position with a fault takes nothing. -/
theorem decode_snd_of_fault (h : (decode (α := α) payload start instant).1.fault ≠ none) :
    (decode (α := α) payload start instant).2 = start := by
  revert h
  unfold decode
  dsimp only
  split
  · exact fun _ => rfl
  split
  · exact fun _ => rfl
  · exact fun h => absurd rfl h

/-- The octets at a place have the form of a position, and both coordinates are written within their
limits. -/
def InForm (payload : Bytes) (start : Nat) : Prop :=
  ∃ l : Layout, (payload.drop start).take width = l.octets ∧ l.latitude.InRange 0 ∧ l.longitude.InRange 0

/-- The octets at a place have the form of a position whose longitude is written beyond its limits, but
only by digits that are blank in the latitude. -/
def OutOfForm (payload : Bytes) (start : Nat) : Prop :=
  ∃ l : Layout, (payload.drop start).take width = l.octets ∧ l.InRange ∧ ¬l.longitude.InRange 0

/-- **A position is read without a fault exactly if it has the form and is in range**, where digits of the
longitude do not count that are blank in the latitude; otherwise there is a fault, and nothing is taken. So
it is read exactly if both coordinates are written within their limits, unless the longitude is beyond its
own by digits that do not count, and exactly then. -/
theorem accepted_iff (payload : Bytes) (start : Nat) (instant : Instant) :
    let read : PositionReport α × Nat := decode payload start instant
    (read.1.fault = none ↔
        ∃ l : Layout, (payload.drop start).take width = l.octets ∧ l.InRange) ∧
      (read.1.fault ≠ none → read.2 = start) ∧
      ((read.1.fault = none ↔ InForm payload start) ↔ ¬OutOfForm payload start) := by
  intro read
  have hread : read.1.fault = none ↔ _ := fault_eq_none_iff
  refine ⟨hread, decode_snd_of_fault, ?_⟩
  have hform : InForm payload start → read.1.fault = none := fun ⟨l, hoctets, hlatitude, hlongitude⟩ =>
    hread.mpr ⟨l, hoctets, hlatitude, hlongitude.disregard _⟩
  constructor
  · rintro hiff ⟨l, hoctets, hrange, hbeyond⟩
    obtain ⟨l', hoctets', -, hlongitude⟩ := hiff.mp (hread.mpr ⟨l, hoctets, hrange⟩)
    obtain rfl := Layout.octets_injective (hoctets.symm.trans hoctets')
    exact hbeyond hlongitude
  · intro hnot
    refine ⟨fun hfault => ?_, hform⟩
    obtain ⟨l, hoctets, hrange⟩ := hread.mp hfault
    exact ⟨l, hoctets, hrange.latitude,
      Decidable.not_not.mp fun hbeyond => hnot ⟨l, hoctets, hrange, hbeyond⟩⟩

/-- A payload in the form has a longitude in its place. -/
theorem InForm.longitude (h : InForm payload start) :
    (angle .longitude 0 ((((payload.drop start).take width).drop 9).take 9)).isOk := by
  obtain ⟨l, hoctets, -, hlongitude⟩ := h
  rw [hoctets, l.take_drop_octets, angle_octets hlongitude]
  rfl

/-- Half a minute beyond the date line, and more than sixty minutes, are read without a fault if the digits
that lead there are blank in the latitude. -/
theorem accepted_beyond_limits :
    let beyond := Utf8.encode "!4903.  N/18000.50W-".toList
    let minutes := Utf8.encode "!49  .  N/07299.99W-".toList
    ((decode (α := Exact) beyond 1 .epoch).1.fault = none ∧ ¬InForm beyond 1) ∧
      (decode (α := Exact) minutes 1 .epoch).1.fault = none ∧ ¬InForm minutes 1 := by
  intro beyond minutes
  exact ⟨⟨by decide +kernel, fun hform => absurd hform.longitude (by decide +kernel)⟩,
    by decide +kernel, fun hform => absurd hform.longitude (by decide +kernel)⟩

/-! ## Positions that are written again -/

/-- In an accurate arithmetic an angle is found again in the degrees that it was turned into. -/
theorem hundredths_of_within [Scalar.Accurate α] {axis : Axis} {a : Angle} (h : a.Within axis) :
    Position.hundredths (Position.roundPlaces (a.value : α)) = a.degrees * 6000 + a.hundredths ∧
      Position.hundredths (Position.roundPlaces (a.value : α)) ≤ axis.limit * 6000 ∧
      Scalar.isNegative (Position.roundPlaces (a.value : α)) = a.negative := by
  have hwithin : a.degrees * 6000 + a.hundredths ≤ axis.limit * 6000 := h
  have hlimit : axis.limit ≤ 180 := by cases axis <;> decide
  obtain ⟨hhundredths, hsign⟩ := Position.hundredths_roundPlaces_value (α := α)
    (Nat.le_trans hwithin (Nat.mul_le_mul_right 6000 hlimit))
  exact ⟨hhundredths, hhundredths ▸ hwithin, hsign⟩

/-- The places of the digits of the minutes in the latitude. -/
def latitudeMinutes : List Nat := [2, 3, 5, 6]

/-- The places of the digits of the minutes in the longitude. -/
def longitudeMinutes : List Nat := [12, 13, 15, 16]

/-- How many digits of the minutes are blank in the latitude. -/
def blanksOfLatitude (octets : Bytes) : Nat :=
  (latitudeMinutes.map fun place => octets.getD place 0).count 0x20

/-- What is written for an octet that was read at a place. The letters of the hemispheres are in upper case,
and in the longitude the last digits of the minutes are blank and other blanks are zeros. -/
def rewrittenAt (ambiguity place : Nat) (b : UInt8) : Char :=
  if place = 7 ∨ place = 17 then (charOfByte b).toUpper
  else if place ∈ longitudeMinutes.drop (4 - ambiguity) then ' '
  else if 9 ≤ place ∧ place < 17 ∧ b = 0x20 then '0'
  else charOfByte b

/-- What is written for the octets of a position. -/
def rewritten (octets : Bytes) : Text := octets.mapIdx (rewrittenAt (blanksOfLatitude octets))

/-- A digit of the minutes, or a zero for a blank. -/
def zeroed (b : UInt8) : Char := if b = 0x20 then '0' else charOfByte b

namespace Coordinate

variable {axis : Axis} {w : Coordinate axis}

theorem map_zeroed_minutes (w : Coordinate axis) : w.minutes.map zeroed = w.minutes.map charOfByte :=
  List.map_congr_left fun b hb => if_neg (w.ne_blank_of_mem_minutes b hb)

/-- The digits of the minutes that are read. -/
theorem map_unblanked (w : Coordinate axis) :
    (w.minutes ++ List.replicate w.blanks 0x30).map charOfByte = w.fourMinutes.map zeroed := by
  unfold fourMinutes
  rw [List.map_append, List.map_append, w.map_zeroed_minutes, List.map_replicate, List.map_replicate]
  rfl

/-- **A coordinate that was read is written with its digits**, the last of its minutes blank. -/
theorem coordinateText_told [Scalar.Accurate α] {disregarded ambiguity : Nat} (h : w.InRange disregarded)
    (hdisregarded : disregarded ≤ ambiguity) (hambiguity : ambiguity ≤ 4) :
    Position.coordinateText axis ambiguity (Position.roundPlaces ((w.told disregarded).value : α)) =
      Position.coordinate (w.degrees.map charOfByte)
        ((w.fourMinutes.map zeroed).take (4 - ambiguity) ++ List.replicate ambiguity ' ')
        (charOfByte w.letter).toUpper := by
  have hlt := h.hundredths_lt
  obtain ⟨hhundredths, hlimit, hsign⟩ := hundredths_of_within (α := α) h.within
  have hdegrees : Decimal.lowDigits axis.degreeDigits (w.told disregarded).degrees =
      w.degrees.map charOfByte := by
    rw [← w.degrees_length]
    exact Decimal.lowDigits_value w.degrees_digit
  have hminutes : Position.blankedDigits ambiguity (w.told disregarded).hundredths =
      (w.fourMinutes.map zeroed).take (4 - ambiguity) ++ List.replicate ambiguity ' ' := by
    have hdigits := Decimal.lowDigits_value w.digit_of_mem_unblanked
    rw [w.length_unblanked, w.map_unblanked] at hdigits
    rw [← hdigits]
    exact Position.blankedDigits_truncate hdisregarded hambiguity _
  rw [Position.coordinateText_eq hambiguity hlimit, hhundredths, hsign, w.letter_eq,
    ← hdegrees, ← hminutes]
  congr 2 <;> omega

/-- A latitude is written with the blanks that it has. -/
theorem coordinateText_told_blanks [Scalar.Accurate α] (h : w.InRange 0) :
    Position.coordinateText axis w.blanks (Position.roundPlaces ((w.told 0).value : α)) =
      Position.coordinate (w.degrees.map charOfByte) (w.fourMinutes.map charOfByte)
        (charOfByte w.letter).toUpper := by
  have hminutes : (w.fourMinutes.map zeroed).take (4 - w.blanks) ++ List.replicate w.blanks ' ' =
      w.fourMinutes.map charOfByte := by
    have hlength : (w.minutes.map charOfByte).length = 4 - w.blanks := by
      rw [List.length_map, ← w.minutes_length, Nat.add_sub_cancel]
    unfold fourMinutes
    rw [List.map_append, List.map_append, w.map_zeroed_minutes, List.take_left' hlength,
      List.map_replicate]
    rfl
  rw [coordinateText_told h (Nat.zero_le _) w.blanks_le, hminutes]

theorem count_fourMinutes (w : Coordinate axis) : w.fourMinutes.count 0x20 = w.blanks := by
  unfold fourMinutes
  rw [List.count_append, List.count_replicate_self,
    List.count_eq_zero.mpr fun hmem => w.ne_blank_of_mem_minutes _ hmem rfl, Nat.zero_add]

end Coordinate

namespace Layout

variable (l : Layout)

/-- The ambiguity is the number of blanks in the latitude. -/
theorem blanksOfLatitude_octets : blanksOfLatitude l.octets = l.latitude.blanks := by
  obtain ⟨a, b, c, d, hfour⟩ := l.latitude.exists_fourMinutes
  have hcount := l.latitude.count_fourMinutes
  rw [hfour] at hcount
  rw [← hcount]
  unfold octets
  rw [l.latitude.octets_four hfour]
  match l.latitude.degrees, l.latitude.degrees_length with
  | [x, y], _ => rfl

/-- The octets of a position are written again with their digits, as far as the latitude has any. -/
theorem rewritten_octets :
    rewritten l.octets =
      Position.coordinate (l.latitude.degrees.map charOfByte) (l.latitude.fourMinutes.map charOfByte)
          (charOfByte l.latitude.letter).toUpper ++
        charOfByte l.table :: Position.coordinate (l.longitude.degrees.map charOfByte)
          ((l.longitude.fourMinutes.map zeroed).take (4 - l.latitude.blanks) ++
            List.replicate l.latitude.blanks ' ')
          (charOfByte l.longitude.letter).toUpper ++ [charOfByte l.code] := by
  obtain ⟨a, b, c, d, hfour⟩ := l.latitude.exists_fourMinutes
  obtain ⟨a', b', c', d', hfour'⟩ := l.longitude.exists_fourMinutes
  have hpoint : charOfByte 0x2E = '.' := rfl
  have hplain : ∀ b ∈ l.longitude.degrees, b ≠ 0x20 := by
    rintro b hb rfl
    exact absurd (l.longitude.degrees_digit _ hb).1 (by decide)
  have hblanks := l.latitude.blanks_le
  unfold rewritten
  rw [l.blanksOfLatitude_octets]
  unfold octets
  rw [l.latitude.octets_four hfour, l.longitude.octets_four hfour', hfour, hfour']
  -- nineteen places, of which the ambiguity says what is written at four
  generalize l.latitude.blanks = ambiguity at hblanks
  match l.latitude.degrees, l.latitude.degrees_length, l.longitude.degrees, l.longitude.degrees_length,
    hplain with
  | [x, y], _, [u, v, w], _, hplain =>
    simp only [List.forall_mem_cons] at hplain
    obtain ⟨hu, hv, hw, -⟩ := hplain
    match ambiguity, hblanks with
    | 0, _ | 1, _ | 2, _ | 3, _ | 4, _ =>
      simp [Position.coordinate_four, rewrittenAt, longitudeMinutes, zeroed, hu, hv, hw, hpoint]

/-- The text of a position that is told is that of its octets. -/
theorem text_position [Scalar.Accurate α] {l : Layout} (h : l.InRange) (instant : Instant) :
    (l.position instant : Position α).text = rewritten l.octets := by
  have hambiguity : (l.position instant : Position α).ambiguity = l.latitude.blanks :=
    Nat.min_eq_left l.latitude.blanks_le
  have hlatitude := Coordinate.coordinateText_told_blanks (α := α) h.latitude
  have hlongitude := Coordinate.coordinateText_told (α := α) h.longitude (Nat.le_refl _) l.latitude.blanks_le
  rw [l.rewritten_octets, ← hlatitude, ← hlongitude]
  unfold Position.text Position.latitudeText Position.longitudeText
  rw [hambiguity]
  rfl

end Layout

/-- **The text of a position that was read is the octets that it was read from**, with its letters in upper
case, the last digits of the minutes of the longitude blank, as many as those of the latitude are, and zeros
for other blanks of the longitude. -/
theorem text_eq_rewritten [Scalar.Accurate α]
    (h : (decode (α := α) payload start instant).1.fault = none) :
    (decode (α := α) payload start instant).1.position.text =
      rewritten ((payload.drop start).take width) := by
  obtain ⟨l, hoctets, hrange⟩ := exists_layout h
  rw [decode_layout hoctets hrange, hoctets]
  exact Layout.text_position hrange instant

/-- A latitude of zero in the south with one blank, and a longitude with two. -/
theorem text_eq_rewritten_blanks :
    let payload := Utf8.encode "=0000.0 s/07201.  w-".toList
    let read : PositionReport Exact := (decode payload 1 .epoch).1
    read.fault = none ∧ read.position.text = "0000.0 S/07201.0 W-".toList := by
  intro payload read
  have hfault : read.fault = none := by decide +kernel
  exact ⟨hfault, (text_eq_rewritten hfault).trans (by decide +kernel)⟩

end Uncompressed

end Aprs
