import Aprs.Position.Compressed
import Aprs.Proofs.Binary.Whole
import Aprs.Proofs.Position.Angle

/-!
# Coordinates within their limits

Latitudes end at the poles and longitudes at the date line. Bounds in whole degrees are numbers of floating
point, and so no operation that keeps the order leads across them: an angle within its axis is computed
within the limits (`Angle.Within.spans`), a compressed coordinate is compared with them as it is
(`Compressed.inRange_iff_spans`), and rounding to five places stays there:

> `Axis.Spans.roundPlaces`: what lies within the limits of an axis is rounded to within them.

Specification: 4.3 (Position Decoder).
-/

namespace Aprs

/-- A coordinate lies between the limit of its axis and the negative of that. -/
def Axis.Spans (axis : Axis) (x : Float) : Prop :=
  -Float.ofNat axis.limit ≤ x ∧ x ≤ Float.ofNat axis.limit

theorem Axis.limit_le (axis : Axis) : axis.limit ≤ 180 := by
  cases axis <;> decide

namespace Axis.Spans

variable {axis : Axis} {x : Float}

/-- The limits of an axis are the same on either side. -/
theorem neg (h : axis.Spans x) : axis.Spans (-x) := by
  have hword : 180 < Binary.twoTo 53 := by decide
  have hlimit := Binary.finite_ofNat (Nat.lt_of_le_of_lt axis.limit_le hword)
  have hdouble : - -Float.ofNat axis.limit ≤ Float.ofNat axis.limit :=
    Binary.le_of_units hlimit.neg.neg.units hlimit.units (Int.le_of_eq (Int.neg_neg _))
  exact ⟨Binary.neg_le_neg h.2, Binary.le_trans (Binary.neg_le_neg h.1) hdouble⟩

end Axis.Spans

namespace Position

/-- Rounding to five places keeps the order. -/
theorem roundPlaces_le_roundPlaces {x y : Float} (h : x ≤ y) : roundPlaces x ≤ roundPlaces y :=
  Binary.div_ofNat_le (by decide) (by decide)
    (Binary.round_le_round (Binary.mul_ofNat_le (by decide) (by decide) h))

end Position

/-- Rounding to five places does not lead beyond a limit. -/
theorem Axis.Spans.roundPlaces {axis : Axis} {x : Float} (h : axis.Spans x) :
    axis.Spans (Position.roundPlaces x) := by
  have hlow : -Float.ofNat axis.limit ≤ Position.roundPlaces (-Float.ofNat axis.limit) := by
    cases axis <;> decide +kernel
  have hhigh : Position.roundPlaces (Float.ofNat axis.limit) ≤ Float.ofNat axis.limit := by
    cases axis <;> decide +kernel
  exact ⟨Binary.le_trans hlow (Position.roundPlaces_le_roundPlaces h.1),
    Binary.le_trans (Position.roundPlaces_le_roundPlaces h.2) hhigh⟩

/-- The test of a compressed coordinate is the comparison with both limits. -/
theorem Compressed.inRange_iff_spans {axis : Axis} {x : Float} : inRange axis x = true ↔ axis.Spans x := by
  unfold inRange
  rw [Bool.and_eq_true_iff]
  exact and_congr decide_eq_true_iff decide_eq_true_iff

/-- **An angle within its axis is computed within the limits**, with every step of it rounded. -/
theorem Angle.Within.spans {axis : Axis} {a : Angle} (h : a.Within axis) : axis.Spans a.value := by
  have hunits : a.degrees * 6000 + a.hundredths ≤ axis.limit * 6000 := h
  have hlimit := axis.limit_le
  have hword : 1080000 < Binary.twoTo 53 := by decide
  obtain ⟨rest, hrest⟩ : ∃ rest, a.degrees + rest = axis.limit := ⟨_, Nat.add_sub_of_le (by omega)⟩
  have hrestWord : rest * 6000 < Binary.twoTo 53 := by omega
  have hdegrees : (0.0 : Float) ≤ Float.ofNat a.degrees := Binary.zero_le_ofNat (by omega)
  -- the minutes are at most the degrees that are left up to the limit
  have hwhole : Float.ofNat (rest * 6000) / Float.ofNat 6000 ≤ Float.ofNat rest :=
    Binary.le_of_units (Binary.units?_ofNat_mul_div (by decide) (by decide) hrestWord)
      (Binary.units?_ofNat (by omega)) (Int.le_refl _)
  have hminutes : Float.ofNat a.hundredths / Float.ofNat 6000 ≤ Float.ofNat rest :=
    Binary.le_trans (Binary.div_ofNat_le (by decide) (by decide) (Binary.ofNat_le_ofNat (by omega) hrestWord)) hwhole
  have hnonneg : (0.0 : Float) ≤ Float.ofNat a.hundredths / Float.ofNat 6000 :=
    Binary.div_ofNat_nonneg (by decide) (by decide) (Binary.zero_le_ofNat (by omega))
  have hfinite := Binary.exists_finite_between ⟨_, Binary.finite_zero⟩
    ⟨_, Binary.finite_ofNat (n := rest) (by omega)⟩ hnonneg hminutes
  have hsum : Float.ofNat a.degrees + Float.ofNat rest ≤ Float.ofNat axis.limit :=
    Binary.le_of_units (Binary.units?_ofNat_add (by omega)) (Binary.units?_ofNat (by omega)) (Int.le_of_eq (by rw [hrest]))
  have hbelow : -Float.ofNat axis.limit ≤ 0.0 + 0.0 := by
    cases axis <;> decide +kernel
  have hsize : axis.Spans (Float.ofNat a.degrees + Float.ofNat a.hundredths / Float.ofNat 6000) :=
    ⟨Binary.le_trans hbelow
        (Binary.add_le_add hdegrees hnonneg ⟨_, Binary.finite_zero⟩ hfinite),
      Binary.le_trans (Binary.add_le_add (Binary.self_le_of_ge hdegrees) hminutes hfinite
        ⟨_, Binary.finite_ofNat (n := rest) (by omega)⟩) hsum⟩
  unfold Angle.value
  cases a.negative with
  | false => exact hsize
  | true => exact hsize.neg

end Aprs
