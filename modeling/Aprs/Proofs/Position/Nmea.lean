import Aprs.Position.Nmea
import Aprs.Proofs.Position.Limits
import Aprs.Proofs.Reader

/-!
# Coordinates in a sentence of a receiver

A receiver writes a coordinate as one number, in which a degree counts a hundred, and a letter. The degrees are
the whole part of its hundredth, and the minutes are what is left; they must be from zero to less than sixty,
and the degrees they make no more than the limit that the letter has (`coordinate_eq_ok`).

A number below zero has minutes that are not negative only if the hundreds are cut towards it. If it is not
below the limit then neither are its degrees (`spans_sizeOf`). If it is, then the hundreds are cut beyond the
limit, and this takes so many of the minutes that no rounding leads back (`sizeOf_le_beyond`). The bounds on the
way are computed from the limit of either axis, all in one place (`Computed`).

> `coordinate_spans_iff`: a coordinate with a letter of its axis lies on the axis unless its number is below
> the limit, and exactly then.

Specification: 12.2 (Position rendering and geometry).
-/

namespace Aprs.Nmea

variable {payload : Bytes}

/-- The fields of a sentence that tell a place. -/
structure PlaceFields where
  latitude : Text
  northSouth : Text
  longitude : Text
  eastWest : Text
  deriving DecidableEq

/-- The four fields from a place on. -/
def placeFieldsAt? (fields : List Text) (start : Nat) : Option PlaceFields := do
  return ⟨← fields[start]?, ← fields[start + 1]?, ← fields[start + 2]?, ← fields[start + 3]?⟩

/-- Where these fields begin in a kind of sentence. -/
def placeStart? (kind : Text) : Option Nat :=
  if kind = "RMC".toList then some 3
  else if kind = "GGA".toList then some 2
  else if kind = "GLL".toList then some 1
  else none

/-- The fields of a payload that tell a place. -/
def placeFields? (payload : Bytes) : Option PlaceFields := do
  let fields := fields (← Utf8.decode? payload)
  let (_, kind) ← Utf8.splitAt? 3 (fields.headD [])
  placeFieldsAt? fields (← placeStart? kind)

section

variable {α : Type} [Scalar α]

theorem field_eq_ok {fields : List Text} {place : Nat} {t : Text} (h : field fields place = .ok t) :
    fields[place]? = some t := by
  unfold field at h
  split at h
  · next hplace => rw [hplace, Except.ok.inj h]
  · contradiction

/-- A place is two coordinates, each with its letter. -/
theorem place_eq_ok {fields : List Text} {start : Nat} {latitude longitude : α}
    (h : place fields start = .ok (latitude, longitude)) :
    ∃ c : PlaceFields, placeFieldsAt? fields start = some c ∧
      coordinate c.latitude c.northSouth = .ok latitude ∧
      coordinate c.longitude c.eastWest = .ok longitude := by
  unfold place at h
  obtain ⟨⟨value, letter⟩, hfirst, h⟩ := bind_eq_ok_iff.mp h
  obtain ⟨lat, hlatitude, h⟩ := bind_eq_ok_iff.mp h
  obtain ⟨⟨value', letter'⟩, hsecond, h⟩ := bind_eq_ok_iff.mp h
  obtain ⟨lon, hlongitude, h⟩ := bind_eq_ok_iff.mp h
  obtain ⟨rfl, rfl⟩ := Prod.mk.inj (Except.ok.inj h)
  have hfields {start : Nat} {value letter : Text} (h : coordinateAt fields start = .ok (value, letter)) :
      fields[start]? = some value ∧ fields[start + 1]? = some letter := by
    unfold coordinateAt at h
    obtain ⟨v, hvalue, h⟩ := bind_eq_ok_iff.mp h
    obtain ⟨l, hletter, h⟩ := bind_eq_ok_iff.mp h
    obtain ⟨rfl, rfl⟩ := Prod.mk.inj (Except.ok.inj h)
    exact ⟨field_eq_ok hvalue, field_eq_ok hletter⟩
  obtain ⟨hvalue, hletter⟩ := hfields hfirst
  obtain ⟨hvalue', hletter'⟩ := hfields hsecond
  refine ⟨⟨value, letter, value', letter'⟩, ?_, hlatitude, hlongitude⟩
  unfold placeFieldsAt?
  rw [hvalue, hletter, hvalue', hletter']
  rfl

/-- Each of the three sentences has its place at a number of its own. -/
theorem recommendedMinimum_eq_ok {fields : List Text} {f : Fix α}
    (h : recommendedMinimum fields = .ok f) : place fields 3 = .ok (f.latitude, f.longitude) := by
  unfold recommendedMinimum at h
  obtain ⟨status, -, h⟩ := bind_eq_ok_iff.mp h
  split at h
  · contradiction
  · obtain ⟨⟨latitude, longitude⟩, hplace, h⟩ := bind_eq_ok_iff.mp h
    obtain rfl := Except.ok.inj h
    exact hplace

theorem fixData_eq_ok {fields : List Text} {f : Fix α} (h : fixData fields = .ok f) :
    place fields 2 = .ok (f.latitude, f.longitude) := by
  unfold fixData at h
  obtain ⟨quality, -, h⟩ := bind_eq_ok_iff.mp h
  split at h
  · contradiction
  · obtain ⟨⟨latitude, longitude⟩, hplace, h⟩ := bind_eq_ok_iff.mp h
    obtain rfl := Except.ok.inj h
    exact hplace

theorem geographicPosition_eq_ok {fields : List Text} {f : Fix α}
    (h : geographicPosition fields = .ok f) : place fields 1 = .ok (f.latitude, f.longitude) := by
  unfold geographicPosition at h
  split at h
  · contradiction
  · obtain ⟨⟨latitude, longitude⟩, hplace, h⟩ := bind_eq_ok_iff.mp h
    obtain rfl := Except.ok.inj h
    exact hplace

/-- A fix has the place that the fields of its sentence tell. -/
theorem fix_eq_ok {f : Fix α} (h : fix payload = .ok f) :
    ∃ c, placeFields? payload = some c ∧ coordinate c.latitude c.northSouth = .ok f.latitude ∧
      coordinate c.longitude c.eastWest = .ok f.longitude := by
  unfold fix at h
  split at h
  · contradiction
  next sentence htext =>
    dsimp only at h
    split at h
    · contradiction
    next kind hkind =>
      obtain ⟨start, hstart, hplace⟩ : ∃ start, placeStart? kind = some start ∧
          place (fields sentence) start = .ok (f.latitude, f.longitude) := by
        unfold placeStart?
        split at h
        · next hrmc => exact ⟨3, if_pos hrmc, recommendedMinimum_eq_ok h⟩
        next hrmc =>
          rw [if_neg hrmc]
          split at h
          · next hgga => exact ⟨2, if_pos hgga, fixData_eq_ok h⟩
          next hgga =>
            rw [if_neg hgga]
            split at h
            · next hgll => exact ⟨1, if_pos hgll, geographicPosition_eq_ok h⟩
            · contradiction
      obtain ⟨c, hfields, hlatitude, hlongitude⟩ := place_eq_ok hplace
      refine ⟨c, ?_, hlatitude, hlongitude⟩
      unfold placeFields?
      rw [htext]
      dsimp only [bind, Option.bind]
      rw [hkind]
      dsimp only
      rw [hstart]
      exact hfields

/-! ## Degrees and minutes in one number -/

/-- The whole degrees in a number that writes degrees and minutes. -/
def wholeDegrees (raw : α) : α := Scalar.truncate (raw / Scalar.ofNat 100)

/-- The minutes behind them. -/
def restMinutes (raw : α) : α := raw - wholeDegrees raw * Scalar.ofNat 100

/-- The degrees that a number writes. -/
def sizeOf (raw : α) : α := wholeDegrees raw + restMinutes raw / Scalar.ofNat 60

/-- What is read of a number and a letter lies within the limit that the letter has, on the side of great
numbers. -/
theorem coordinate_eq_ok {value letter : Text} {x : α} (h : coordinate value letter = .ok x) :
    ∃ numeral, Numeral.parse? value = some numeral ∧
      Scalar.le (Scalar.ofNat 0) (restMinutes (Scalar.ofNumeral numeral : α)) = true ∧
      Scalar.lt (restMinutes (Scalar.ofNumeral numeral : α)) (Scalar.ofNat 60) = true ∧
      ∃ (axis : Axis) (negative : Bool), letter = [axis.letter negative] ∧
        Scalar.le (sizeOf (Scalar.ofNumeral numeral : α)) (Scalar.ofNat axis.limit) = true ∧
        x = if negative then -sizeOf (Scalar.ofNumeral numeral : α) else sizeOf (Scalar.ofNumeral numeral) := by
  unfold coordinate at h
  split at h
  · contradiction
  next numeral hnumeral =>
    refine ⟨numeral, hnumeral, ?_⟩
    dsimp only at h
    split at h
    · next hminutes =>
      obtain ⟨hnonneg, hbelow⟩ := Bool.and_eq_true_iff.mp hminutes
      refine ⟨hnonneg, hbelow, ?_⟩
      split at h
      · next hletter => exact ⟨.latitude, false, hletter.1, hletter.2, (Except.ok.inj h).symm⟩
      split at h
      · next hletter => exact ⟨.latitude, true, hletter.1, hletter.2, (Except.ok.inj h).symm⟩
      split at h
      · next hletter => exact ⟨.longitude, false, hletter.1, hletter.2, (Except.ok.inj h).symm⟩
      split at h
      · next hletter => exact ⟨.longitude, true, hletter.1, hletter.2, (Except.ok.inj h).symm⟩
      · contradiction
    · contradiction

end

/-! ## On the axis or beyond it -/

section

variable {axis : Axis} {raw : Float}

/-- Half a degree beyond the limit on the negative side. -/
def beyond (axis : Axis) : Float := -(Float.ofNat axis.limit) - 0.5

/-- What is left for the minutes, as part of a degree, if the degrees are next to the limit and three quarters
of a degree are cut from the number. -/
def minutesNext (axis : Axis) : Float :=
  (-Float.ofNat (100 * axis.limit + 75) - -Float.ofNat (axis.limit + 1) * Float.ofNat 100) / Float.ofNat 60

/-- What floating point makes of the limit below zero and of the numbers next to it. -/
structure Computed (axis : Axis) : Prop where
  /-- The limit is read as whole degrees and no minutes. -/
  degrees : -Float.ofNat axis.limit ≤ Binary.truncate (-Float.ofNat (100 * axis.limit) / Float.ofNat 100)
  number : -Float.ofNat (100 * axis.limit) ≤ -Float.ofNat axis.limit * Float.ofNat 100
  sum : -Float.ofNat axis.limit ≤ -Float.ofNat axis.limit + 0.0
  /-- Three quarters of a degree are cut off. -/
  cut : -Float.ofNat axis.limit ≤ Binary.truncate (-Float.ofNat (100 * axis.limit + 75) / Float.ofNat 100)
  /-- Two degrees below the limit are beyond it with a whole degree of minutes, and one degree below with what is
  left for the minutes. -/
  far : -Float.ofNat (axis.limit + 2) + Float.ofNat 1 ≤ beyond axis
  near : -Float.ofNat (axis.limit + 1) + minutesNext axis ≤ beyond axis
  next_finite : (-Float.ofNat (axis.limit + 1) * Float.ofNat 100).isFinite = true
  minutes_finite : (minutesNext axis).isFinite = true
  /-- Half a degree is more than rounding to five places makes good. -/
  off : ¬-Float.ofNat axis.limit ≤ Position.roundPlaces (beyond axis)
  off_neg : ¬Position.roundPlaces (-beyond axis) ≤ Float.ofNat axis.limit

theorem computed (axis : Axis) : Computed axis := by
  cases axis <;> constructor <;> decide +kernel

/-- Degrees stand a hundred times their number in front of the minutes; that keeps their order. -/
theorem mul_hundred_le {x y : Float} (h : x ≤ y) : x * Float.ofNat 100 ≤ y * Float.ofNat 100 :=
  Binary.mul_ofNat_le (by decide) (by decide) h

theorem div_hundred_le {x y : Float} (h : x ≤ y) : x / Float.ofNat 100 ≤ y / Float.ofNat 100 :=
  Binary.div_ofNat_le (by decide) (by decide) h

/-- Minutes keep their order as parts of a degree. -/
theorem div_sixty_le {x y : Float} (h : x ≤ y) : x / Float.ofNat 60 ≤ y / Float.ofNat 60 :=
  Binary.div_ofNat_le (by decide) (by decide) h

/-- Minutes that are read are finite, and no more than a degree. -/
theorem exists_finite_minutes (hnonneg : 0.0 ≤ restMinutes raw) (hbelow : restMinutes raw < Float.ofNat 60) :
    0.0 ≤ restMinutes raw / Scalar.ofNat 60 ∧ restMinutes raw / Scalar.ofNat 60 ≤ Float.ofNat 1 ∧
      ∃ i, Binary.Finite (restMinutes raw / Scalar.ofNat 60) i := by
  have hlow : 0.0 ≤ restMinutes raw / Scalar.ofNat 60 := Binary.div_ofNat_nonneg (by decide) (by decide) hnonneg
  have hhigh : restMinutes raw / Scalar.ofNat 60 ≤ Float.ofNat 1 :=
    Binary.div_ofNat_le_one (by decide) (by decide) (Binary.le_of_lt hbelow)
  have hfinite := Binary.exists_finite_between ⟨_, Binary.finite_zero⟩ ⟨_, Binary.finite_ofNat (by decide)⟩ hlow hhigh
  exact ⟨hlow, hhigh, hfinite⟩

/-- A number that is not below the limit writes degrees that are not. -/
theorem spans_sizeOf (hnonneg : 0.0 ≤ restMinutes raw) (hbelow : restMinutes raw < Float.ofNat 60)
    (hlimit : sizeOf raw ≤ Float.ofNat axis.limit) (hraw : -Float.ofNat (100 * axis.limit) ≤ raw) :
    axis.Spans (sizeOf raw) := by
  obtain ⟨hlow, -, hfinite⟩ := exists_finite_minutes hnonneg hbelow
  have hdegrees : -Float.ofNat axis.limit ≤ wholeDegrees raw :=
    Binary.le_trans (computed axis).degrees (Binary.truncate_le_truncate (div_hundred_le hraw))
  have hsum := Binary.add_le_add hdegrees hlow ⟨_, Binary.finite_zero⟩ hfinite
  exact ⟨Binary.le_trans (computed axis).sum hsum, hlimit⟩

/-- The whole degrees of a number below the limit are beyond the limit, since its minutes would be negative
otherwise. -/
theorem not_le_wholeDegrees (hnonneg : 0.0 ≤ restMinutes raw) (hraw : ¬-Float.ofNat (100 * axis.limit) ≤ raw) :
    ¬-Float.ofNat axis.limit ≤ wholeDegrees raw := by
  intro hcontrary
  have hproduct : wholeDegrees raw * Float.ofNat 100 ≤ raw := Binary.le_of_sub_nonneg hnonneg
  exact hraw (Binary.le_trans (computed axis).number (Binary.le_trans (mul_hundred_le hcontrary) hproduct))

theorem exists_finite_quarters (axis : Axis) : ∃ i, Binary.Finite (-Float.ofNat (100 * axis.limit + 75)) i := by
  have hlimit := axis.limit_le
  have hword : 18075 < Binary.twoTo 53 := by decide
  exact ⟨_, (Binary.finite_ofNat (n := 100 * axis.limit + 75) (by omega)).neg⟩

/-- Three quarters of a degree are missing from the whole degrees of such a number, or its hundredth would not
be cut to them. -/
theorem le_quarters (hnonneg : 0.0 ≤ restMinutes raw) (hraw : ¬-Float.ofNat (100 * axis.limit) ≤ raw) :
    raw ≤ -Float.ofNat (100 * axis.limit + 75) := by
  have hproduct : wholeDegrees raw * Float.ofNat 100 ≤ raw := Binary.le_of_sub_nonneg hnonneg
  obtain ⟨i, hfinite⟩ := exists_finite_quarters axis
  have hdefined : -Float.ofNat (100 * axis.limit + 75) ≤ -Float.ofNat (100 * axis.limit + 75) :=
    Binary.le_of_units hfinite.units hfinite.units (Int.le_refl i)
  refine Binary.le_of_not_le hdefined (Binary.self_le_of_ge hproduct) fun hcontrary => ?_
  exact not_le_wholeDegrees hnonneg hraw
    (Binary.le_trans (computed axis).cut (Binary.truncate_le_truncate (div_hundred_le hcontrary)))

/-- A number below the limit writes degrees that are half a degree below it, or more. -/
theorem sizeOf_le_beyond (hnonneg : 0.0 ≤ restMinutes raw) (hbelow : restMinutes raw < Float.ofNat 60)
    (hraw : ¬-Float.ofNat (100 * axis.limit) ≤ raw) : sizeOf raw ≤ beyond axis := by
  obtain ⟨hlow, hhigh, hfinite⟩ := exists_finite_minutes hnonneg hbelow
  have hproduct : wholeDegrees raw * Float.ofNat 100 ≤ raw := Binary.le_of_sub_nonneg hnonneg
  have hquotient := div_hundred_le (Binary.self_le_of_ge hproduct)
  have hquarters := le_quarters hnonneg hraw
  have hlimit := axis.limit_le
  have hword : 181 < Binary.twoTo 52 := by decide
  have hnext : wholeDegrees raw ≤ -Float.ofNat (axis.limit + 1) :=
    (Binary.truncate_le_or_le hquotient (n := axis.limit) (by omega)).resolve_right
      (not_le_wholeDegrees hnonneg hraw)
  rcases Binary.truncate_le_or_le hquotient (n := axis.limit + 1) (by omega) with hfar | hnear
  · -- less than a degree is added to degrees that are two below the limit
    exact Binary.le_trans (Binary.add_le_add hfar hhigh hfinite ⟨_, Binary.finite_ofNat (by decide)⟩)
      (computed axis).far
  · -- with the degrees next to the limit, at most a quarter of the hundred is left for the minutes
    have hlower := mul_hundred_le hnear
    have hlowerFinite := Binary.exists_finite (computed axis).next_finite
    have hproductFinite := Binary.exists_finite_between hlowerFinite (exists_finite_quarters axis) hlower
      (Binary.le_trans hproduct hquarters)
    have hminutes : restMinutes raw / Scalar.ofNat 60 ≤ minutesNext axis :=
      div_sixty_le (Binary.sub_le_sub hquarters hlower hproductFinite hlowerFinite)
    have hminutesFinite := Binary.exists_finite (computed axis).minutes_finite
    exact Binary.le_trans (Binary.add_le_add hnext hminutes hfinite hminutesFinite) (computed axis).near

/-- **What is read of a number lies on its axis unless the number is below the limit, and exactly then**: the
limit has been compared with the size from above only. -/
theorem spans_roundPlaces_iff {x : Float} {negative : Bool} (hnonneg : 0.0 ≤ restMinutes raw)
    (hbelow : restMinutes raw < Float.ofNat 60) (hlimit : sizeOf raw ≤ Float.ofNat axis.limit)
    (hx : x = if negative then -sizeOf raw else sizeOf raw) :
    axis.Spans (Position.roundPlaces x) ↔ -Float.ofNat (100 * axis.limit) ≤ raw := by
  constructor
  · intro hspans
    refine Decidable.byContradiction fun hraw => ?_
    have hsize := sizeOf_le_beyond hnonneg hbelow hraw
    cases negative with
    | true =>
      rw [hx, if_pos rfl] at hspans
      exact (computed axis).off_neg
        (Binary.le_trans (Position.roundPlaces_le_roundPlaces (Binary.neg_le_neg hsize)) hspans.2)
    | false =>
      rw [hx, if_neg Bool.false_ne_true] at hspans
      exact (computed axis).off (Binary.le_trans hspans.1 (Position.roundPlaces_le_roundPlaces hsize))
  · intro hraw
    have hspans := spans_sizeOf hnonneg hbelow hlimit hraw
    rw [hx]
    cases negative with
    | true => exact hspans.neg.roundPlaces
    | false => exact hspans.roundPlaces

/-- The letters of the two axes are four different ones. -/
theorem letter_inj {axis axis' : Axis} {negative negative' : Bool}
    (h : axis.letter negative = axis'.letter negative') : axis = axis' := by
  cases axis <;> cases axis' <;> first | rfl | (cases negative <;> cases negative' <;> contradiction)

/-- A coordinate with a letter of its axis lies on the axis unless its number is below the limit. -/
theorem coordinate_spans_iff {negative : Bool} {value letter : Text} {x : Float}
    (h : coordinate value letter = .ok x) (hletter : letter = [axis.letter negative]) :
    axis.Spans (Position.roundPlaces x) ↔
      ∀ numeral ∈ Numeral.parse? value, -Float.ofNat (100 * axis.limit) ≤ Scalar.ofNumeral numeral := by
  obtain ⟨numeral, hnumeral, hnonneg, hbelow, axis', negative', hletter', hlimit, hx⟩ := coordinate_eq_ok h
  obtain rfl : axis = axis' := letter_inj (List.cons.inj (hletter.symm.trans hletter')).1
  have hminutes : (0.0 : Float) ≤ restMinutes (Scalar.ofNumeral numeral) :=
    Binary.le_trans (Binary.zero_le_ofNat (n := 0) (by decide)) (of_decide_eq_true hnonneg)
  rw [spans_roundPlaces_iff hminutes (of_decide_eq_true hbelow) (of_decide_eq_true hlimit) hx, hnumeral]
  exact ⟨fun hraw n hn => Option.some.inj hn ▸ hraw, fun hall => hall numeral rfl⟩

end

end Aprs.Nmea
