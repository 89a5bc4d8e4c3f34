import Aprs.Proofs.Decimal.Integer
import Aprs.Proofs.Weather.Readings
import Aprs.Scalar.Exact
import Aprs.Weather.Record

/-!
# Readings in words

A record converts what it reads to words that do not hold every integer. None of these conversions changes
what it converts, and the reason lies in the texts: what is written for a field has few characters, and only
a temperature may begin with a minus (`Field.Admits`). So the integers that are written for a field are
bounded before any of them is converted (`Field.Admits.lt_pow`, `Field.Admits.nonneg`).

> setting a field gives its reading exactly the integer that is written, in the unit of the reading
> (`value_set_target`), and leaves the others (`value_set_other`).

In a block any three characters stand for the temperature. Whatever they are, an integer among them lies
between −99 and 999.

Specification: 4.5 (Weather Decoder).
-/

namespace Aprs.Weather

open Decimal (Writes)
open Text (Digits InLine)

variable {f : Field} {t : Text} {n : Int}

/-! ## Integers that are written for a field -/

/-- What may be written for a field: a value of it, or in a block any characters for the temperature. -/
def Field.Admits (f : Field) (t : Text) : Prop := f.Value t ∨ f = .temperature ∧ InLine 3 t

theorem Field.Admits.length (h : f.Admits t) : t.length = f.width := by
  rcases h with h | ⟨rfl, h⟩
  · exact Field.Value.length h
  · exact h.length

theorem Slot.minus_notMem {width : Nat} (h : Slot width t) : '-' ∉ t := by
  intro hminus
  rcases h with h | rfl | rfl
  · exact absurd (h.digit _ hminus) (by decide)
  · exact absurd (List.eq_of_mem_replicate hminus) (by decide)
  · exact absurd (List.eq_of_mem_replicate hminus) (by decide)

/-- Only a temperature is written with a minus. -/
theorem Field.Admits.minus_notMem (h : f.Admits t) (hf : f ≠ .temperature) : '-' ∉ t := by
  rcases h with ((h | ⟨htemperature, -⟩) | ⟨-, h⟩) | ⟨htemperature, -⟩
  · exact Slot.minus_notMem (Or.inl h)
  · exact absurd htemperature hf
  · exact h.minus_notMem
  · exact absurd htemperature hf

/-- No integer that is written for a field has more digits than the field is wide. -/
theorem Field.Admits.lt_pow (h : f.Admits t) (hn : Writes t n) : n < Nat.pow 10 f.width := by
  rw [← h.length]
  exact hn.lt_pow

/-- Only a temperature is negative. -/
theorem Field.Admits.nonneg (h : f.Admits t) (hf : f ≠ .temperature) (hn : Writes t n) : 0 ≤ n :=
  hn.nonneg (h.minus_notMem hf)

/-- And it has two digits behind its minus. -/
theorem Field.Admits.neg_hundred_lt (h : f.Admits t) (hn : Writes t n) : -100 < n := by
  by_cases hf : f = .temperature
  · have hlow := hn.neg_pow_lt
    rw [h.length, hf] at hlow
    exact hlow
  · have hnonneg := h.nonneg hf hn
    omega

theorem Field.Admits.lt_thousand (h : f.Admits t) (hwidth : f.width = 3) (hn : Writes t n) :
    n < 1000 := by
  have hlt := h.lt_pow hn
  rw [hwidth] at hlt
  exact hlt

theorem Field.Admits.lt_hundred_thousand (h : f.Admits t) (hn : Writes t n) : n < 100000 := by
  have hwidth : f.width ≤ 5 := by cases f <;> decide
  have hpow : Nat.pow 10 f.width ≤ 100000 := Nat.pow_le_pow_right (by decide) hwidth
  have hlt := h.lt_pow hn
  omega

/-! ## Amounts and units -/

/-- The amount that an integer stands for when it is written for a field. A humidity of zero stands for a
hundred, and behind an `L` the luminosity goes on from a thousand. -/
def Field.amount (n : Int) : Field → Int
  | humidity => if n = 0 then 100 else n
  | luminosityHigh => n + 1000
  | _ => n

/-- An amount in the unit in which a reading is handed on. -/
def Reading.inUnits (n : Int) : Reading → Rat
  | rainLastHour | rainLastDay | rainSinceMidnight => n / 100
  | pressure => n / 10
  | _ => n

/-- The readings of a report are the amounts that are written for its fields. -/
theorem Field.Admits.quantity_eq (h : f.Admits t) :
    f.quantity t = (Decimal.integer? t).map fun n => f.amount n := by
  have hcount (hf : f ≠ .temperature) : count? t = Decimal.integer? t := by
    unfold count?
    cases hinteger : Decimal.integer? t with
    | none => rfl
    | some n =>
      exact congrArg some (Int.toNat_of_nonneg (h.nonneg hf (Decimal.integer?_eq_some_iff.mp hinteger)))
  cases f with
  | temperature => exact Option.map_id'.symm
  | humidity => exact congrArg (Option.map fun n => if n = 0 then 100 else n) (hcount nofun)
  | luminosityHigh => exact congrArg (Option.map (· + 1000)) (hcount nofun)
  | _ => exact (hcount nofun).trans Option.map_id'.symm

namespace Record

/-! ## Conversions that change nothing -/

variable {v : Int32}

theorem toNat_toUInt32 (h : 0 ≤ v.toInt) : (v.toUInt32.toNat : Int) = v.toInt := by
  have hnonneg : 0 ≤ v := Int32.le_iff_toInt_le.mpr h
  rw [Int32.toNat_toUInt32_of_le hnonneg, ← Int32.toNat_toInt]
  exact Int.toNat_of_nonneg h

theorem toNat_word8 (h : 0 ≤ v.toInt) (hlt : v.toInt < 0x100) : ((word8 v).toNat : Int) = v.toInt := by
  have hword := toNat_toUInt32 h
  rw [word8, UInt32.toNat_toUInt8, Nat.mod_eq_of_lt (by omega)]
  exact hword

theorem toNat_word16 (h : 0 ≤ v.toInt) (hlt : v.toInt < 0x10000) :
    ((word16 v).toNat : Int) = v.toInt := by
  have hword := toNat_toUInt32 h
  rw [word16, UInt32.toNat_toUInt16, Nat.mod_eq_of_lt (by omega)]
  exact hword

theorem toInt_toInt16 (hle : -0x8000 ≤ v.toInt) (hlt : v.toInt < 0x8000) :
    v.toInt16.toInt = v.toInt := by
  rw [Int32.toInt_toInt16]
  exact Int.bmod_eq_of_le hle hlt

theorem max_zero (h : 0 ≤ v.toInt) : max v 0 = v := by
  have hnonneg : 0 ≤ v := Int32.le_iff_toInt_le.mpr h
  by_cases hle : v ≤ 0
  · rw [Int32.le_antisymm hle hnonneg]
    rfl
  · exact if_neg hle

/-- Adding a thousand to a number of three digits does not wrap around. -/
theorem toInt_add_thousand (h : 0 ≤ v.toInt) (hlt : v.toInt < 1000) :
    (v + 1000).toInt = v.toInt + 1000 := by
  have hthousand : Int32.toInt 1000 = 1000 := rfl
  rw [Int32.toInt_add, hthousand]
  exact Int.bmod_eq_of_le (by omega) (by omega)

theorem value_scalar (v : Int32) : (scalar v : Exact).value = v.toInt := by
  unfold scalar
  dsimp only
  split
  · next hneg =>
    have hsize : v.toInt = -(v.toInt.natAbs : Int) := by
      have hlow : v.toInt < 0 := Int32.lt_iff_toInt_lt.mp hneg
      omega
    rw [Exact.value_neg, Exact.value_ofNat, ← Rat.intCast_natCast, ← Rat.intCast_neg, ← hsize]
  · next hnonneg =>
    have hsize : (v.toInt.natAbs : Int) = v.toInt := by
      have hlow : ¬v.toInt < 0 := fun h => hnonneg (Int32.lt_iff_toInt_lt.mpr h)
      omega
    rw [Exact.value_ofNat, ← Rat.intCast_natCast, hsize]

theorem value_hundredth (v : Int32) : (hundredth v : Exact).value = v.toInt / 100 := by
  rw [hundredth, Exact.value_div, value_scalar]
  rfl

theorem value_tenth (v : Int32) : (tenth v : Exact).value = v.toInt / 10 := by
  rw [tenth, Exact.value_div, value_scalar]
  rfl

/-- What is admitted for a field is read in 32 bits as it is in all integers. -/
theorem map_toInt_number? (h : f.Admits t) : (number? t).map Int32.toInt = Decimal.integer? t := by
  unfold number?
  cases hinteger : Decimal.integer? t with
  | none => rfl
  | some n =>
    have hn := Decimal.integer?_eq_some_iff.mp hinteger
    have hlow := h.neg_hundred_lt hn
    have hhigh := h.lt_hundred_thousand hn
    rw [Option.bind_some, if_pos ⟨by omega, by omega⟩]
    exact congrArg some (Int32.toInt_ofInt_of_le (by omega) (by omega))

/-- A conversion that changes no integer that is written gives what is written. -/
theorem map_number {α : Type} {convert : Int32 → α} {size : α → Rat} {amount : Int → Rat}
    (h : f.Admits t)
    (hconvert : ∀ v : Int32, Writes t v.toInt → size (convert v) = amount v.toInt) :
    ((number? t).map convert).map size = (Decimal.integer? t).map amount := by
  have hinteger := map_toInt_number? h
  rw [← hinteger]
  cases hnumber : number? t with
  | none => rfl
  | some v =>
    rw [hnumber] at hinteger
    exact congrArg some (hconvert v (Decimal.integer?_eq_some_iff.mp hinteger.symm))

/-! ## Setting a field -/

/-- What a record holds of a reading. -/
def value (w : Record Exact) : Reading → Option Rat
  | .windDirection => w.windDirection.map fun n => n.toNat
  | .windSpeed => w.windSpeed.map fun n => n.toNat
  | .windGust => w.windGust.map fun n => n.toNat
  | .temperature => w.temperature.map fun n => n.toInt
  | .rainLastHour => w.rainLastHour.map Exact.value
  | .rainLastDay => w.rainLastDay.map Exact.value
  | .rainSinceMidnight => w.rainSinceMidnight.map Exact.value
  | .humidity => w.humidity.map fun n => n.toNat
  | .pressure => w.pressure.map Exact.value
  | .luminosity => w.luminosity.map fun n => n.toNat
  | .snowfall => w.snowfall.map Exact.value
  | .rainCounter => w.rainCounter.map fun n => n.toNat

theorem speedExpected_eq (w : Record Exact) (named : Bool) :
    w.speedExpected named = (named && !w.windSpeed.isSome) := by
  unfold speedExpected
  rw [Option.not_isSome]

/-- A count of sixteen bits is the integer that is written for any field three digits wide. -/
theorem size_word16 (h : f.Admits t) (hf : f ≠ .temperature) (hwidth : f.width = 3)
    (hv : Writes t v.toInt) : ((word16 v).toNat : Rat) = v.toInt := by
  have hlt := h.lt_thousand hwidth hv
  rw [← Rat.intCast_natCast, toNat_word16 (h.nonneg hf hv) (by omega)]

/-- Setting a field gives its reading the integer that is written, in the unit of the reading. -/
theorem value_set_target (w : Record Exact) (named : Bool) (h : f.Admits t) {r : Reading}
    (hr : f.target named w.windSpeed.isSome = r) :
    (w.set named f t).value r = (Decimal.integer? t).map fun n => r.inUnits (f.amount n) := by
  subst hr
  -- each field has a conversion of its own, with room for as many digits as the field is wide
  cases f with
  | windDirection => exact map_number h fun v hv => size_word16 h nofun rfl hv
  | windSpeedOrSnowfall =>
    unfold set Field.target
    dsimp only
    rw [speedExpected_eq]
    split
    · exact map_number h fun v hv => size_word16 h nofun rfl hv
    · exact map_number h fun v _ => value_scalar v
  | windGust => exact map_number h fun v hv => size_word16 h nofun rfl hv
  | temperature =>
    refine map_number h fun v hv => congrArg Int.cast ?_
    have hlow := h.neg_hundred_lt hv
    have hhigh := h.lt_thousand rfl hv
    exact toInt_toInt16 (by omega) (by omega)
  | rainLastHour => exact map_number h fun v _ => value_hundredth v
  | rainLastDay => exact map_number h fun v _ => value_hundredth v
  | rainSinceMidnight => exact map_number h fun v _ => value_hundredth v
  | humidity =>
    refine map_number h fun v hv => ?_
    have hlt := h.lt_pow hv
    have hhundred : Nat.pow 10 (Field.width .humidity) = 100 := rfl
    show (((if v = 0 then 100 else word8 v : UInt8).toNat : Nat) : Rat) =
      ((if v.toInt = 0 then 100 else v.toInt : Int) : Rat)
    -- zero is told in the word as it is in the integer
    have hzero : v = 0 ↔ v.toInt = 0 := Int32.toInt_inj.symm
    rw [← Rat.intCast_natCast]
    split
    · next h0 =>
      rw [if_pos (hzero.mp h0)]
      rfl
    · next h0 =>
      rw [if_neg fun hc => h0 (hzero.mpr hc), toNat_word8 (h.nonneg nofun hv) (by omega)]
  | pressure => exact map_number h fun v _ => value_tenth v
  | luminosityLow =>
    refine map_number h fun v hv => ?_
    rw [max_zero (h.nonneg nofun hv)]
    exact size_word16 h nofun rfl hv
  | luminosityHigh =>
    refine map_number h fun v hv => ?_
    have hnonneg := h.nonneg nofun hv
    have hlt := h.lt_thousand rfl hv
    have hsum := toInt_add_thousand hnonneg (by omega)
    show (((word16 (max v 0 + 1000)).toNat : Nat) : Rat) = ((v.toInt + 1000 : Int) : Rat)
    rw [max_zero hnonneg, ← hsum, ← Rat.intCast_natCast, toNat_word16 (by omega) (by omega)]
  | rainCounter =>
    refine map_number h fun v hv => ?_
    rw [← Rat.intCast_natCast, toNat_toUInt32 (h.nonneg nofun hv)]
    rfl

/-- Setting a field leaves the readings that are not its own. -/
theorem value_set_other (w : Record Exact) (named : Bool) (f : Field) (t : Text) {r : Reading}
    (hr : f.target named w.windSpeed.isSome ≠ r) : (w.set named f t).value r = w.value r := by
  cases f with
  | windSpeedOrSnowfall =>
    unfold set
    unfold Field.target at hr
    dsimp only at hr ⊢
    rw [speedExpected_eq]
    split
    · next hspeed =>
      rw [if_pos hspeed] at hr
      cases r <;> first | rfl | exact absurd rfl hr
    · next hspeed =>
      rw [if_neg hspeed] at hr
      cases r <;> first | rfl | exact absurd rfl hr
  | _ => cases r <;> first | rfl | exact absurd rfl hr

end Record

end Aprs.Weather
