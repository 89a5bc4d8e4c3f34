import Aprs.Position.Basic
import Aprs.Proofs.Exact

/-!
# Arithmetic with rounding errors

An arithmetic may round the result of every operation. That of binary floating point is exact for whole
numbers within 32 bits, for signs and magnitudes and for rounding to whole numbers, and elsewhere errs by no
more than a small part of the result and a small amount besides (`Near`). These are the laws of an
`Accurate` arithmetic. Exact arithmetic obeys them too.

A coordinate that was written in degrees and hundredths of minutes is far coarser than the errors:

> `hundredths_roundPlaces_value`: an angle on the globe has the same hundredths and the same sign after it
> was computed in degrees and rounded to five places.
-/

namespace Aprs

namespace Scalar

/-- The part of a result by which an operation may miss it: the distance between floating-point numbers that
are next to each other just above one. -/
def roundoff : Rat := 1 / 4503599627370496

/-- A result that misses the exact one by no more than rounding may. -/
def Near (result exact : Rat) : Prop :=
  exact - (exact + 1) * roundoff ≤ result ∧ result ≤ exact + (exact + 1) * roundoff

theorem near_self {q : Rat} (h : 0 ≤ q) : Near q q := by
  unfold Near roundoff
  constructor <;> grind

/-- An arithmetic whose operations keep the sign of what they compute, and err no more than rounding may as
long as their results are within 32 bits. Numbers are told by their sign and their magnitude, so that there
are two zeros. -/
class Accurate (α : Type) [Scalar α] where
  /-- Whether a scalar is a number with the given sign and magnitude. -/
  Is : (x : α) → (negative : Bool) → (magnitude : Rat) → Prop
  nonneg {x : α} {negative : Bool} {q : Rat} : Is x negative q → 0 ≤ q
  isNegative_eq {x : α} {negative : Bool} {q : Rat} : Is x negative q → Scalar.isNegative x = negative
  ofNat {n : Nat} : n ≤ word32 → Is (Scalar.ofNat n) false n
  neg {x : α} {negative : Bool} {q : Rat} : Is x negative q → Is (-x) (!negative) q
  magnitude {x : α} {negative : Bool} {q : Rat} : Is x negative q → Is (Scalar.magnitude x) false q
  add {x y : α} {negative : Bool} {q q' : Rat} : Is x negative q → Is y negative q' →
    q + q' ≤ word32 → ∃ r, Is (x + y) negative r ∧ Near r (q + q')
  mul {x : α} {negative : Bool} {q : Rat} {n : Nat} : Is x negative q → 0 < n → n ≤ word32 →
    q * n ≤ word32 → ∃ r, Is (x * Scalar.ofNat n) negative r ∧ Near r (q * n)
  div {x : α} {negative : Bool} {q : Rat} {n : Nat} : Is x negative q → 0 < n → n ≤ word32 →
    q ≤ word32 → ∃ r, Is (x / Scalar.ofNat n) negative r ∧ Near r (q / n)
  round {x : α} {negative : Bool} {q : Rat} : Is x negative q → q ≤ word32 →
    Is (Scalar.round x) negative (Exact.nearest q)
  toNat {x : α} {q : Rat} (limit : Nat) : Is x false q → Scalar.toNat limit x = min limit q.floor.toNat

end Scalar

/-! ## Exact arithmetic -/

namespace Exact

instance : Scalar.Accurate Exact where
  Is x negative q := x.negative = negative ∧ abs x.value = q
  nonneg h := h.2 ▸ abs_nonneg _
  isNegative_eq h := h.1
  ofNat {n} _ := ⟨negative_ofNat n, abs_of_nonneg Rat.natCast_nonneg⟩
  neg {x negative q} h := ⟨by rw [negative_neg, h.1], by rw [value_neg, abs_neg, h.2]⟩
  magnitude {x negative q} h := ⟨negative_signed_of_nonneg (abs_nonneg _), by
    rw [← h.2]
    exact abs_of_nonneg (abs_nonneg _)⟩
  add {x y negative q q'} hx hy _ := by
    obtain ⟨hsign, hsum⟩ := add_same_sign hx.1 hy.1
    rw [hx.2, hy.2] at hsum
    exact ⟨q + q', ⟨hsign, hsum⟩, Scalar.near_self (hsum ▸ abs_nonneg _)⟩
  mul {x negative q n} h hn _ _ := by
    have hproduct : abs (x * Scalar.ofNat n).value = q * n := by
      rw [← h.2]
      exact abs_mul_of_pos (Rat.natCast_pos.mpr hn)
    exact ⟨q * n, ⟨(negative_mul_ofNat x hn).trans h.1, hproduct⟩,
      Scalar.near_self (hproduct ▸ abs_nonneg _)⟩
  div {x negative q n} h hn _ _ := by
    have hquotient : abs (x / Scalar.ofNat n).value = q / n := by
      rw [← h.2, value_div, value_ofNat, Rat.div_def, Rat.div_def]
      exact abs_mul_of_pos (Rat.inv_pos.mpr (Rat.natCast_pos.mpr hn))
    exact ⟨q / n, ⟨(negative_div_ofNat x hn).trans h.1, hquotient⟩,
      Scalar.near_self (hquotient ▸ abs_nonneg _)⟩
  round {x negative q} h _ := ⟨(negative_round x).trans h.1, by rw [abs_round, h.2]⟩
  toNat {x q} limit h := by
    have hvalue : x.value = q := by
      rw [← h.2]
      exact (abs_of_not_negative h.1).symm
    rw [← hvalue]
    rfl

end Exact

/-! ## Coordinates -/

namespace Position

open Scalar (Accurate)

variable {α : Type} [Scalar α] [Accurate α] {x : α} {negative : Bool} {q : Rat}

/-- An angle on the globe is computed in degrees to within a millionth. -/
theorem exists_is_value {a : Angle} (h : a.degrees * 6000 + a.hundredths ≤ 180 * 6000) :
    ∃ q, Accurate.Is (a.value : α) a.negative q ∧
      ((a.degrees * 6000 + a.hundredths : Nat) : Rat) / 6000 - 1 / 1000000 ≤ q ∧
      q ≤ ((a.degrees * 6000 + a.hundredths : Nat) : Rat) / 6000 + 1 / 1000000 := by
  have hword : ((Scalar.word32 : Nat) : Rat) = 4294967295 := rfl
  have hdegrees : a.degrees ≤ Scalar.word32 := Nat.le_trans (by omega) (show 180 ≤ Scalar.word32 by decide)
  have hhundredths : a.hundredths ≤ Scalar.word32 :=
    Nat.le_trans (by omega) (show 180 * 6000 ≤ Scalar.word32 by decide)
  have hnonneg : (0 : Rat) ≤ a.degrees ∧ (0 : Rat) ≤ a.hundredths :=
    ⟨Rat.natCast_nonneg, Rat.natCast_nonneg⟩
  have hcast : ((a.degrees * 6000 + a.hundredths : Nat) : Rat) ≤ (180 * 6000 : Nat) :=
    Rat.natCast_le_natCast.mpr h
  rw [Rat.natCast_add, Rat.natCast_mul] at hcast ⊢
  -- the quotient may be off by a third of a millionth, and the sum by as much again
  obtain ⟨part, hpart, hnear⟩ := Accurate.div (α := α) (n := 6000) (Accurate.ofNat hhundredths)
    (by decide) (by decide) (Rat.natCast_le_natCast.mpr hhundredths)
  obtain ⟨hbelow, habove⟩ : (a.hundredths : Rat) / 6000 - 1 / 3000000 ≤ part ∧
      part ≤ (a.hundredths : Rat) / 6000 + 1 / 3000000 := by
    unfold Scalar.Near Scalar.roundoff at hnear
    constructor <;> grind
  obtain ⟨size, hsize, hnear'⟩ := Accurate.add (Accurate.ofNat (α := α) hdegrees) hpart (by grind)
  refine ⟨size, ?_, ?_⟩
  · unfold Angle.value
    cases a.negative with
    | false => exact hsize
    | true => exact Accurate.neg hsize
  · unfold Scalar.Near Scalar.roundoff at hnear'
    constructor <;> grind

/-- Rounding to five places moves a coordinate little further than half of a unit of the last place. -/
theorem exists_is_roundPlaces (h : Accurate.Is x negative q) (hq : q ≤ 200) :
    ∃ r, Accurate.Is (roundPlaces x) negative r ∧ q - 1 / 150000 ≤ r ∧ r ≤ q + 1 / 150000 := by
  have hword : ((Scalar.word32 : Nat) : Rat) = 4294967295 := rfl
  have hnonneg := Accurate.nonneg h
  -- of the three steps only the rounding to a whole number moves the coordinate by much
  obtain ⟨scaled, hscaled, hnear⟩ := Accurate.mul (n := 100000) h (by decide) (by decide) (by grind)
  obtain ⟨hbelow, habove⟩ : q * 100000 - 1 / 1000000 ≤ scaled ∧ scaled ≤ q * 100000 + 1 / 1000000 := by
    unfold Scalar.Near Scalar.roundoff at hnear
    constructor <;> grind
  have hrounded := Accurate.round hscaled (by grind)
  obtain ⟨hlow, hhigh⟩ := Exact.nearest_bounds scaled
  generalize ((Exact.nearest scaled : Int) : Rat) = whole at hrounded hlow hhigh
  have hwhole := Accurate.nonneg hrounded
  obtain ⟨r, hr, hnear'⟩ := Accurate.div (n := 100000) hrounded (by decide) (by decide) (by grind)
  refine ⟨r, hr, ?_⟩
  unfold Scalar.Near Scalar.roundoff at hnear'
  constructor <;> grind

/-- A coordinate that is near a whole number of hundredths of minutes is written with that. -/
theorem hundredths_of_near (h : Accurate.Is x negative q) {n : Nat} (hn : n ≤ 180 * 6000)
    (hlow : (n : Rat) - 1 / 4 ≤ q * 6000) (hhigh : q * 6000 ≤ (n : Rat) + 1 / 4) : hundredths x = n := by
  have hword : ((Scalar.word32 : Nat) : Rat) = 4294967295 := rfl
  have hcast : (n : Rat) ≤ (180 * 6000 : Nat) := Rat.natCast_le_natCast.mpr hn
  have hnonneg := Accurate.nonneg h
  obtain ⟨minutes, hminutes, hnear⟩ := Accurate.mul (n := 6000) (Accurate.magnitude h)
    (by decide) (by decide) (by grind)
  obtain ⟨hbelow, habove⟩ : (n : Rat) - 1 / 3 ≤ minutes ∧ minutes ≤ (n : Rat) + 1 / 3 := by
    unfold Scalar.Near Scalar.roundoff at hnear
    constructor <;> grind
  -- the error of the product does not lead to another whole number
  have hnearest : Exact.nearest minutes = n := by
    rw [Exact.nearest_eq_iff, Rat.intCast_natCast]
    constructor <;> grind
  have hrounded := Accurate.round hminutes (by grind)
  calc hundredths x
    _ = min Scalar.word32 (Exact.nearest minutes : Rat).floor.toNat := Accurate.toNat Scalar.word32 hrounded
    _ = min Scalar.word32 n := by rw [hnearest, Rat.floor_intCast, Int.toNat_natCast]
    _ = n := Nat.min_eq_right (Nat.le_trans hn (by decide))

/-- **An angle on the globe keeps its hundredths and its sign** when it is computed in degrees and rounded. -/
theorem hundredths_roundPlaces_value {a : Angle} (h : a.degrees * 6000 + a.hundredths ≤ 180 * 6000) :
    hundredths (roundPlaces (a.value : α)) = a.degrees * 6000 + a.hundredths ∧
      Scalar.isNegative (roundPlaces (a.value : α)) = a.negative := by
  obtain ⟨q, hvalue, hlow, hhigh⟩ := exists_is_value (α := α) h
  have hcast : ((a.degrees * 6000 + a.hundredths : Nat) : Rat) ≤ (180 * 6000 : Nat) :=
    Rat.natCast_le_natCast.mpr h
  generalize a.degrees * 6000 + a.hundredths = n at *
  obtain ⟨r, hrounded, hlow', hhigh'⟩ := exists_is_roundPlaces hvalue (by grind)
  exact ⟨hundredths_of_near hrounded h (by grind) (by grind), Accurate.isNegative_eq hrounded⟩

end Position

end Aprs
