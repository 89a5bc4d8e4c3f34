import Aprs.Proofs.Binary.Operations
import Aprs.Scalar

/-!
# Floating-point operations keep the order

Rounding keeps the order of fractions, and so an operation that rounds one keeps the order of its operands, the
infinite ones included (`Operation.le`). A sum, a difference, a product and a quotient are such operations as
long as the other operand is finite, and positive where it is a factor.

> `add_le_add`, `sub_le_sub`, `mul_le_mul_right`, `div_le_div_right`: the operations keep the order.

With them a bound goes through a computation step by step, each bound computed from the one before. The way
back is open at one place only: a difference is not negative if its terms are in order, since no difference of
two numbers is too small for a unit (`le_of_sub_nonneg`).
-/

namespace Aprs.Binary

open Float.Model (UnpackedFloat)
open Float.Model.UnpackedFloat (Sign)

variable {x x' y y' a b c : Float} {i j : Int}

/-! ## The order -/

/-- The order is that of the units. -/
theorem le_of_units (hx : units? x = some i) (hy : units? y = some j) (h : i ≤ j) : x ≤ y :=
  le_iff.mpr ⟨i, j, hx, hy, h⟩

/-- The order of values is the order of their units. -/
theorem le_units (h : x ≤ y) (hx : units? x = some i) (hy : units? y = some j) : i ≤ j := by
  obtain ⟨i', j', hi, hj, hle⟩ := le_iff.mp h
  obtain rfl := Option.some.inj (hx.symm.trans hi)
  obtain rfl := Option.some.inj (hy.symm.trans hj)
  exact hle

theorem units?_zero : units? 0.0 = some 0 := by
  decide +kernel

theorem finite_zero : Finite 0.0 0 := by
  have htop : 0 < top := twoTo_pos 2098
  exact ⟨units?_zero, by omega, by omega⟩

theorem Finite.neg (h : Finite x i) : Finite (-x) (-i) := by
  have hlow := h.low
  have hhigh := h.high
  exact ⟨by rw [units?_neg, h.units]; rfl, by omega, by omega⟩

theorem le_trans (h : x ≤ y) (h' : y ≤ y') : x ≤ y' := by
  obtain ⟨i, j, hx, hy, hle⟩ := le_iff.mp h
  obtain ⟨j', k, hy', hk, hle'⟩ := le_iff.mp h'
  obtain rfl := Option.some.inj (hy.symm.trans hy')
  exact le_of_units hx hk (Int.le_trans hle hle')

theorem le_of_lt (h : x < y) : x ≤ y := by
  obtain ⟨i, j, hx, hy, hlt⟩ := lt_iff.mp h
  exact le_of_units hx hy (Int.le_of_lt hlt)

theorem lt_of_le_of_lt (h : x ≤ y) (h' : y < y') : x < y' := by
  obtain ⟨i, j, hx, hy, hle⟩ := le_iff.mp h
  obtain ⟨j', k, hy', hk, hlt⟩ := lt_iff.mp h'
  obtain rfl := Option.some.inj (hy.symm.trans hy')
  exact lt_iff.mpr ⟨i, k, hx, hk, by omega⟩

/-- Only defined values are ordered, so each of them is at most itself. -/
theorem self_le_of_ge (h : x ≤ y) : y ≤ y := by
  obtain ⟨i, j, -, hy, -⟩ := le_iff.mp h
  exact le_of_units hy hy (Int.le_refl j)

/-- Of two defined values one is at most the other. -/
theorem le_of_not_le (hx : x ≤ x) (hy : y ≤ y) (h : ¬x ≤ y) : y ≤ x := by
  obtain ⟨i, -, hi, -, -⟩ := le_iff.mp hx
  obtain ⟨j, -, hj, -, -⟩ := le_iff.mp hy
  exact le_of_units hj hi (Int.le_of_lt (Int.not_le.mp fun hle => h (le_of_units hi hj hle)))

theorem neg_le_neg (h : x ≤ y) : -y ≤ -x := by
  obtain ⟨i, j, hx, hy, hle⟩ := le_iff.mp h
  exact le_of_units (by rw [units?_neg, hy]; rfl) (by rw [units?_neg, hx]; rfl) (Int.neg_le_neg hle)

/-! ## Operations on one operand -/

/-- An operation rounds a fraction, whose denominator is the same for every finite operand, and leaves the
infinite values infinite. -/
structure Operation (f : Float → Float) (numerator : Int → Int) (d : Nat) : Prop where
  finite {x : Float} {i : Int} : Finite x i → ∃ k, units? (f x) = some k ∧ RoundsTo (numerator i) d k
  infinite {x : Float} {s : Sign} : unpacked x = .infinity s → units? (f x) = some (s.apply top)

/-- **Operations keep the order** if their fractions do. -/
theorem Operation.le {f f' : Float → Float} {numerator numerator' : Int → Int} {d : Nat}
    (hf : Operation f numerator d) (hf' : Operation f' numerator' d) (hd : 0 < d)
    (hmono : ∀ i j, i ≤ j → numerator i ≤ numerator' j) (h : x ≤ y) : f x ≤ f' y := by
  obtain ⟨i, j, hi, hj, hle⟩ := le_iff.mp h
  rcases finite_or_infinite hi with hx | ⟨s, hx, rfl⟩
  · obtain ⟨k, hk, hrounds⟩ := hf.finite hx
    rcases finite_or_infinite hj with hy | ⟨s', hy, rfl⟩
    · obtain ⟨k', hk', hrounds'⟩ := hf'.finite hy
      exact le_of_units hk hk' (hrounds.mono hd hd hrounds'
        (Int.mul_le_mul_of_nonneg_right (hmono i j hle) (Int.natCast_nonneg d)))
    · have hlow := hx.low
      have hbound := (units?_bounds hk).2
      cases s' with
      | positive => exact le_of_units hk (hf'.infinite hy) hbound
      | negative =>
        simp only [Sign.apply] at hle
        omega
  · rcases finite_or_infinite hj with hy | ⟨s', hy, rfl⟩
    · obtain ⟨k', hk', hrounds'⟩ := hf'.finite hy
      have hhigh := hy.high
      have hbound := (units?_bounds hk').1
      cases s with
      | negative => exact le_of_units (hf.infinite hx) hk' hbound
      | positive =>
        simp only [Sign.apply] at hle
        omega
    · exact le_of_units (hf.infinite hx) (hf'.infinite hy) hle

/-- What is finite has units. -/
theorem exists_finite (h : a.isFinite = true) : ∃ i, Finite a i := by
  have hunpacked : (unpacked a).isFinite = true := h
  have hunits : ∃ i, units? a = some i := by
    unfold units?
    cases hx : unpacked a with
    | notANumber =>
      rw [hx] at hunpacked
      contradiction
    | infinity s | zero s | finite s m e hm => exact ⟨_, rfl⟩
  obtain ⟨i, hi⟩ := hunits
  rcases finite_or_infinite hi with hfinite | ⟨s, hinfinite, -⟩
  · exact ⟨i, hfinite⟩
  · rw [hinfinite] at hunpacked
    contradiction

/-- What lies between finite values is finite. -/
theorem exists_finite_between (ha : ∃ i, Finite a i) (hb : ∃ i, Finite b i) (hax : a ≤ x) (hxb : x ≤ b) :
    ∃ i, Finite x i := by
  obtain ⟨l, hl⟩ := ha
  obtain ⟨u, hu⟩ := hb
  obtain ⟨l', i, hl', hi, hlow⟩ := le_iff.mp hax
  obtain ⟨i', u', hi', hu', hhigh⟩ := le_iff.mp hxb
  obtain rfl := Option.some.inj (hl.units.symm.trans hl')
  obtain rfl := Option.some.inj (hu.units.symm.trans hu')
  obtain rfl := Option.some.inj (hi.symm.trans hi')
  exact ⟨i, hi, Int.lt_of_lt_of_le hl.low hlow, Int.lt_of_le_of_lt hhigh hu.high⟩

theorem operation_add {j : Int} (hy : Finite y j) : Operation (· + y) (· + j) 1 where
  finite hx := units?_add hx hy
  infinite hx := (units?_add_infinite hx hy).1

theorem operation_mul {j : Int} (hc : Finite c j) (hj : 0 < j) : Operation (· * c) (· * j) one where
  finite hx := units?_mul hx hc hj
  infinite hx := units?_mul_infinite hx hc hj

theorem operation_div {j : Nat} (hc : Finite c j) (hj : 0 < j) : Operation (· / c) (· * one) j where
  finite hx := units?_div hx hc hj
  infinite hx := units?_div_infinite hx hc (Int.natCast_pos.mpr hj)

/-- Sums keep the order if what is added is finite. -/
theorem add_le_add (hx : x ≤ x') (hy : y ≤ y') (hfinite : ∃ i, Finite y i) (hfinite' : ∃ i, Finite y' i) :
    x + y ≤ x' + y' := by
  obtain ⟨i, hi⟩ := hfinite
  obtain ⟨j, hj⟩ := hfinite'
  obtain ⟨i', j', hi', hj', hle⟩ := le_iff.mp hy
  obtain rfl := Option.some.inj (hi.units.symm.trans hi')
  obtain rfl := Option.some.inj (hj.units.symm.trans hj')
  have hsum := (operation_add hi).le (operation_add hj) Nat.one_pos (fun _ _ h => Int.add_le_add h hle) hx
  exact hsum

/-- Differences keep the order if what is taken away is finite. -/
theorem sub_le_sub (hx : x ≤ x') (hy : y' ≤ y) (hfinite : ∃ i, Finite y i) (hfinite' : ∃ i, Finite y' i) :
    x - y ≤ x' - y' := by
  obtain ⟨i, hi⟩ := hfinite
  obtain ⟨j, hj⟩ := hfinite'
  rw [sub_eq_add_neg, sub_eq_add_neg]
  exact add_le_add hx (neg_le_neg hy) ⟨_, hi.neg⟩ ⟨_, hj.neg⟩

/-- Products with a positive number keep the order. -/
theorem mul_le_mul_right (hc : Finite c j) (hj : 0 < j) (h : x ≤ y) : x * c ≤ y * c := by
  have hmul := operation_mul hc hj
  have hproduct := hmul.le hmul one_pos (fun _ _ hle => Int.mul_le_mul_of_nonneg_right hle (Int.le_of_lt hj)) h
  exact hproduct

/-- Quotients by a positive number keep the order. -/
theorem div_le_div_right {j : Nat} (hc : Finite c j) (hj : 0 < j) (h : x ≤ y) : x / c ≤ y / c := by
  have hdiv := operation_div hc hj
  have hquotient := hdiv.le hdiv hj
    (fun _ _ hle => Int.mul_le_mul_of_nonneg_right hle (Int.natCast_nonneg one)) h
  exact hquotient

theorem roundsTo_neg_one : RoundsTo (-1) 1 (-1) := by
  have hunit : Rounded 1 1 1 := rounded_self (m := 1) (t := 0) (by decide +kernel) (Or.inl rfl)
  have hrounds := roundsTo_apply .negative Nat.one_pos hunit
  have hmin : min 1 top = 1 := Nat.min_eq_left (twoTo_pos 2098)
  rwa [hmin] at hrounds

theorem apply_top_of_nonneg {s : Sign} (h : 0 ≤ s.apply (top : Int)) : s.apply (top : Int) = top := by
  have htop : (0 : Int) < top := Int.natCast_pos.mpr (twoTo_pos 2098)
  cases s with
  | positive => rfl
  | negative =>
    simp only [Sign.apply] at h
    omega

/-- A difference that is not negative has its terms in order. -/
theorem le_of_sub_nonneg (h : 0.0 ≤ x - y) : y ≤ x := by
  obtain ⟨zero, k, hzero, hk, hnonneg⟩ := le_iff.mp h
  obtain rfl := Option.some.inj (units?_zero.symm.trans hzero)
  rw [sub_eq_add_neg] at hk
  cases hx : units? x with
  | none =>
    rw [units?_add_none (Or.inl hx)] at hk
    contradiction
  | some i =>
    cases hy : units? y with
    | none =>
      rw [units?_add_none (Or.inr (by rw [units?_neg, hy]; rfl))] at hk
      contradiction
    | some j =>
      have hopposite : units? (-y) = some (-j) := by
        rw [units?_neg, hy]
        rfl
      refine le_of_units hy hx ?_
      rcases finite_or_infinite hx with hfinite | ⟨s, hinfinite, rfl⟩
      · rcases finite_or_infinite hopposite with hfinite' | ⟨s', hinfinite', hsign⟩
        · obtain ⟨k', hk', hrounds⟩ := units?_add hfinite hfinite'
          obtain rfl := Option.some.inj (hk.symm.trans hk')
          refine Int.not_lt.mp fun hless => ?_
          have hmono := hrounds.mono Nat.one_pos Nat.one_pos roundsTo_neg_one (by omega)
          omega
        · rw [(units?_add_infinite hinfinite' hfinite).2] at hk
          have hlow := hfinite.low
          have hsum := apply_top_of_nonneg (Option.some.inj hk ▸ hnonneg)
          omega
      · have hhigh := (units?_bounds hy).2
        have hpositive : s.apply (top : Int) = top := by
          rcases finite_or_infinite hopposite with hfinite' | ⟨s', hinfinite', -⟩
          · rw [(units?_add_infinite hinfinite hfinite').1] at hk
            exact apply_top_of_nonneg (Option.some.inj hk ▸ hnonneg)
          · rcases units?_add_infinities hinfinite hinfinite' with ⟨-, hsum⟩ | hsum
            · rw [hsum] at hk
              exact apply_top_of_nonneg (Option.some.inj hk ▸ hnonneg)
            · rw [hsum] at hk
              contradiction
        omega

end Aprs.Binary
