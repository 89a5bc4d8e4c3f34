import Aprs.Scalar.Exact

/-!
# Rounding in exact arithmetic

What the operations of exact arithmetic do to the magnitude of a number and to its sign. Rounding moves
a number by at most a half (`nearest_eq_iff`), and neither rounding nor a positive factor changes a
sign, that of a zero included (`negative_round`, `negative_mul_ofNat`, `negative_div_ofNat`). Nor does the
addition of a number with the same sign (`add_same_sign`).
-/

namespace Aprs.Exact

/-! ## Rounding -/

/-- A number is rounded to the whole number that it is within a half of. -/
theorem nearest_eq_iff {q : Rat} {n : Int} :
    nearest q = n ↔ (n : Rat) - 1 / 2 ≤ q ∧ q < (n : Rat) + 1 / 2 := by
  unfold nearest
  constructor
  · rintro rfl
    have hlow := Rat.floor_le (q + 1 / 2)
    have hhigh := Rat.lt_floor (x := q + 1 / 2)
    constructor <;> grind
  · rintro ⟨hlow, hhigh⟩
    have hle : n ≤ (q + 1 / 2).floor := Rat.le_floor_iff.mpr (by grind)
    have hlt : (q + 1 / 2).floor < n + 1 := by
      rw [Rat.floor_lt_iff, Rat.intCast_add]
      grind
    omega

/-- A number is within a half of what it is rounded to. -/
theorem nearest_bounds (q : Rat) : (nearest q : Rat) - 1 / 2 ≤ q ∧ q < (nearest q : Rat) + 1 / 2 :=
  nearest_eq_iff.mp rfl

/-- Rounding does not go beyond a whole number. -/
theorem nearest_le {q : Rat} {n : Int} (h : q ≤ n) : nearest q ≤ n := by
  have hlt : nearest q < n + 1 := by
    unfold nearest
    rw [Rat.floor_lt_iff, Rat.intCast_add]
    grind
  omega

theorem nearest_nonneg {q : Rat} (h : 0 ≤ q) : 0 ≤ nearest q := by
  unfold nearest
  rw [Rat.le_floor_iff]
  grind

/-! ## Magnitudes -/

theorem abs_nonneg (q : Rat) : 0 ≤ abs q := by
  unfold abs
  split <;> grind

theorem abs_of_nonneg {q : Rat} (h : 0 ≤ q) : abs q = q := if_neg (Rat.not_lt.mpr h)

theorem abs_neg (q : Rat) : abs (-q) = abs q := by
  unfold abs
  split <;> split <;> grind

/-- A magnitude is within a bound if the number is between the bound and its negative. -/
theorem abs_le {q bound : Rat} (hlow : -bound ≤ q) (hhigh : q ≤ bound) : abs q ≤ bound := by
  unfold abs
  split <;> grind

theorem mul_neg_iff {q factor : Rat} (h : 0 < factor) : q * factor < 0 ↔ q < 0 := by
  constructor
  · intro hproduct
    refine Rat.not_le.mp fun hq => ?_
    exact Rat.not_le.mpr hproduct (Rat.mul_nonneg hq (Rat.le_of_lt h))
  · intro hq
    have hproduct := Rat.mul_lt_mul_of_pos_right hq h
    rw [Rat.zero_mul] at hproduct
    exact hproduct

theorem abs_mul_of_pos {q factor : Rat} (h : 0 < factor) : abs (q * factor) = abs q * factor := by
  unfold abs
  by_cases hq : q < 0
  · rw [if_pos hq, if_pos ((mul_neg_iff h).mpr hq), Rat.neg_mul]
  · rw [if_neg hq, if_neg (mt (mul_neg_iff h).mp hq)]

/-! ## Signs -/

theorem negative_signed_of_nonneg {q : Rat} (h : 0 ≤ q) : (signed false q).negative = false := by
  unfold signed
  dsimp only
  split
  · rfl
  · exact decide_eq_false (Rat.not_lt.mpr h)

theorem negative_signed_of_nonpos {q : Rat} (h : q ≤ 0) : (signed true q).negative = true := by
  unfold signed
  dsimp only
  split
  · rfl
  · next hne => exact decide_eq_true (by grind)

@[simp] theorem negative_ofNat (n : Nat) : (Scalar.ofNat n : Exact).negative = false :=
  negative_signed_of_nonneg Rat.natCast_nonneg

/-- A positive factor keeps the sign, that of a zero too. -/
theorem negative_signed_mul (x : Exact) {factor : Rat} (h : 0 < factor) :
    (signed x.negative (x.value * factor)).negative = x.negative := by
  show (if x.value * factor = 0 then x.negative else decide (x.value * factor < 0)) = x.negative
  by_cases hzero : x.value = 0
  · rw [hzero, Rat.zero_mul, if_pos rfl]
  · have hproduct : x.value * factor ≠ 0 := by
      rw [Ne, Rat.mul_eq_zero]
      rintro (hvalue | hfactor)
      · exact hzero hvalue
      · exact Rat.ne_of_gt h hfactor
    rw [if_neg hproduct, x.valid hzero]
    exact decide_eq_decide.mpr (mul_neg_iff h)

/-- Multiplying by a whole number keeps the sign, also that of zero. -/
theorem negative_mul_ofNat (x : Exact) {n : Nat} (h : 0 < n) :
    (x * Scalar.ofNat n).negative = x.negative := by
  show (signed (x.negative ^^ (Scalar.ofNat n : Exact).negative) (x.value * n)).negative = x.negative
  rw [negative_ofNat, Bool.xor_false]
  exact negative_signed_mul x (Rat.natCast_pos.mpr h)

theorem negative_div_ofNat (x : Exact) {n : Nat} (h : 0 < n) :
    (x / Scalar.ofNat n).negative = x.negative := by
  show (signed (x.negative ^^ (Scalar.ofNat n : Exact).negative) (x.value / n)).negative = x.negative
  rw [negative_ofNat, Bool.xor_false, Rat.div_def]
  exact negative_signed_mul x (Rat.inv_pos.mpr (Rat.natCast_pos.mpr h))

/-- A magnitude with the sign of a number has that sign, be it zero. -/
theorem negative_withSignOf (x : Exact) {magnitude : Rat} (h : 0 ≤ magnitude) :
    (x.withSignOf magnitude).negative = x.negative := by
  unfold withSignOf
  cases x.negative with
  | false => exact negative_signed_of_nonneg h
  | true =>
    refine negative_signed_of_nonpos ?_
    rw [if_pos rfl]
    grind

theorem abs_withSignOf (x : Exact) {magnitude : Rat} (h : 0 ≤ magnitude) :
    abs (x.withSignOf magnitude).value = magnitude := by
  unfold withSignOf
  rw [value_signed]
  cases x.negative with
  | false => exact abs_of_nonneg h
  | true => exact (abs_neg magnitude).trans (abs_of_nonneg h)

theorem round_magnitude_nonneg (q : Rat) : (0 : Rat) ≤ (nearest (abs q) : Rat) :=
  Rat.intCast_nonneg.mpr (nearest_nonneg (abs_nonneg q))

/-- **Rounding keeps the sign**, even if nothing is left of the magnitude. -/
theorem negative_round (x : Exact) : (Scalar.round x).negative = x.negative :=
  negative_withSignOf x (round_magnitude_nonneg x.value)

/-- Rounding acts on the magnitude. -/
theorem abs_round (x : Exact) : abs (Scalar.round x).value = nearest (abs x.value) :=
  abs_withSignOf x (round_magnitude_nonneg x.value)

/-- The magnitude is the number itself, or what is left of it when the sign is turned around. -/
theorem abs_of_negative {x : Exact} (h : x.negative = true) : abs x.value = -x.value := by
  unfold abs
  by_cases hzero : x.value = 0
  · rw [hzero]
    rfl
  · exact if_pos ((negative_eq_true_iff hzero).mp h)

theorem abs_of_not_negative {x : Exact} (h : x.negative = false) : abs x.value = x.value := by
  refine if_neg fun hneg => ?_
  have hsign := (negative_eq_true_iff (Rat.ne_of_lt hneg)).mpr hneg
  rw [h] at hsign
  exact Bool.false_ne_true hsign

/-- The sign of a number is turned around with it, that of a zero too. -/
theorem negative_neg (x : Exact) : (-x).negative = !x.negative := by
  have hsize := abs_nonneg x.value
  have hsign : (-x).negative = (signed (!x.negative) (-x.value)).negative := rfl
  rw [hsign]
  cases hx : x.negative with
  | false =>
    rw [abs_of_not_negative hx] at hsize
    exact negative_signed_of_nonpos (by grind)
  | true =>
    rw [abs_of_negative hx] at hsize
    exact negative_signed_of_nonneg hsize

/-- A sum of numbers with one sign has that sign, and their magnitudes are added. -/
theorem add_same_sign {x y : Exact} {negative : Bool} (hx : x.negative = negative)
    (hy : y.negative = negative) :
    (x + y).negative = negative ∧ abs (x + y).value = abs x.value + abs y.value := by
  have hnonneg : 0 ≤ abs x.value + abs y.value := Rat.add_nonneg (abs_nonneg _) (abs_nonneg _)
  have hsign : (x + y).negative = (signed negative (x + y).value).negative := by
    show (signed (x.negative && y.negative) _).negative = _
    rw [hx, hy, Bool.and_self]
    rfl
  rw [hsign]
  cases negative with
  | false =>
    have hsum : (x + y).value = abs x.value + abs y.value := by
      rw [abs_of_not_negative hx, abs_of_not_negative hy]
      rfl
    rw [hsum]
    exact ⟨negative_signed_of_nonneg hnonneg, abs_of_nonneg hnonneg⟩
  | true =>
    have hsum : (x + y).value = -(abs x.value + abs y.value) := by
      rw [abs_of_negative hx, abs_of_negative hy, value_add]
      grind
    rw [hsum, abs_neg]
    exact ⟨negative_signed_of_nonpos (by grind), abs_of_nonneg hnonneg⟩

/-- **A number within less than a half of a whole number is rounded to it**, on either side of zero. -/
theorem value_round_eq {x : Exact} {n : Int} (hlow : (n : Rat) - 1 / 2 < x.value)
    (hhigh : x.value < (n : Rat) + 1 / 2) : (Scalar.round x).value = n := by
  show (if x.negative then -(nearest (abs x.value) : Rat) else nearest (abs x.value)) = n
  cases hsign : x.negative with
  | false =>
    have hnearest : nearest x.value = n := nearest_eq_iff.mpr ⟨Rat.le_of_lt hlow, hhigh⟩
    rw [abs_of_not_negative hsign, hnearest]
    rfl
  | true =>
    have hnearest : nearest (-x.value) = -n := by
      rw [nearest_eq_iff, Rat.intCast_neg]
      constructor <;> grind
    rw [abs_of_negative hsign, hnearest, if_pos rfl, Rat.intCast_neg, Rat.neg_neg]

/-- A number that is not negative is rounded within 32 bits to the nearest whole number. -/
theorem rounded32_eq {x : Exact} (h : 0 ≤ x.value) :
    Scalar.rounded32 x = min Scalar.word32 (nearest x.value).toNat := by
  have hround : (Scalar.round x).value = nearest x.value := by
    show (if x.negative then -(nearest (abs x.value) : Rat) else nearest (abs x.value)) = _
    rw [abs_of_nonneg h]
    by_cases hzero : x.value = 0
    · have hnearest : nearest (0 : Rat) = 0 := nearest_eq_iff.mpr (by constructor <;> grind)
      rw [hzero, hnearest]
      split <;> rfl
    · rw [x.valid hzero, decide_eq_false (Rat.not_lt.mpr h)]
      rfl
  show min Scalar.word32 (Scalar.round x).value.floor.toNat = _
  rw [hround, Rat.floor_intCast]

/-- Within 32 bits, the whole number that a number is rounded to is within a half of it. -/
theorem rounded32_bounds {x : Exact} {limit : Nat} (h : 0 ≤ x.value) (hlimit : x.value ≤ limit)
    (hword : limit ≤ Scalar.word32) :
    Scalar.rounded32 x ≤ limit ∧ (Scalar.rounded32 x : Rat) - 1 / 2 ≤ x.value ∧
      x.value < (Scalar.rounded32 x : Rat) + 1 / 2 := by
  have hnonneg := nearest_nonneg h
  have hle : nearest x.value ≤ (limit : Int) := nearest_le (by rw [Rat.intCast_natCast]; exact hlimit)
  have hrounded : Scalar.rounded32 x = (nearest x.value).toNat := by
    rw [rounded32_eq h]
    omega
  have hcast : (Scalar.rounded32 x : Rat) = nearest x.value := by
    rw [hrounded, ← Rat.intCast_natCast, Int.toNat_of_nonneg hnonneg]
  rw [hcast]
  exact ⟨by omega, nearest_bounds x.value⟩

end Aprs.Exact
