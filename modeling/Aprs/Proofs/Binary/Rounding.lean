/-!
# How binary floating point rounds

The result of an operation is a fraction of the unit, the least positive number 2⁻¹⁰⁷⁴. It is brought to
fifty-three binary digits, or to whole units if it is small: `Rounded` says so of a fraction and a number
without naming the exponent. A power of two that fits is unique up to the boundary between two of them, so
that rounding keeps the order (`Rounded.mono`), and it leaves alone what fits already (`rounded_self`).

The machine shifts a mantissa to the right and keeps a round bit and a sticky bit of what it drops. These
bits say where the fraction lies between two whole numbers (`Describes`), and every shift keeps that.

> `roundWithAccuracy_rounded`: the machine rounds as `Rounded` says.
-/

namespace Aprs.Binary

open Float.Model (UnpackedFloat Format totalExponent)
open Float.Model.UnpackedFloat (Accuracy ExtendedMantissa Sign accuracyOfFraction roundWithAccuracy
  shiftToTargetExponent)

/-! ## Powers of two -/

/-- A power of two. -/
def twoTo (k : Nat) : Nat := Nat.pow 2 k

theorem twoTo_pos (k : Nat) : 0 < twoTo k := Nat.pow_pos (by decide)

theorem twoTo_add (j k : Nat) : twoTo (j + k) = twoTo j * twoTo k := Nat.pow_add 2 j k

theorem twoTo_succ (k : Nat) : twoTo (k + 1) = 2 * twoTo k := by
  rw [twoTo_add, Nat.mul_comm]
  rfl

theorem twoTo_le_twoTo {j k : Nat} (h : j ≤ k) : twoTo j ≤ twoTo k := Nat.pow_le_pow_right (by decide) h

/-! ## The nearest whole number -/

/-- The whole number nearest to a fraction, the even one of two that are as near. -/
def nearestEven (n d : Nat) : Nat :=
  if 2 * (n % d) < d then n / d
  else if 2 * (n % d) = d then n / d + n / d % 2
  else n / d + 1

/-- Rounding does not go below the quotient. -/
theorem le_nearestEven (n d : Nat) : n / d ≤ nearestEven n d := by
  unfold nearestEven
  split
  · exact Nat.le_refl _
  split <;> omega

/-- It goes up by one at most. -/
theorem nearestEven_le (n d : Nat) : nearestEven n d ≤ n / d + 1 := by
  unfold nearestEven
  split
  · omega
  split <;> omega

/-- A greater fraction has no lesser nearest number. -/
theorem nearestEven_mono {n d n' d' : Nat} (hd : 0 < d) (hd' : 0 < d') (h : n * d' ≤ n' * d) :
    nearestEven n d ≤ nearestEven n' d' := by
  have hquotient : n / d ≤ n' / d' := by
    refine (Nat.le_div_iff_mul_le hd').mpr (Nat.le_of_mul_le_mul_right ?_ hd)
    calc n / d * d' * d
      _ = n / d * d * d' := Nat.mul_right_comm _ _ _
      _ ≤ n * d' := Nat.mul_le_mul_right _ (Nat.div_mul_le_self n d)
      _ ≤ n' * d := h
  rcases Nat.lt_or_eq_of_le hquotient with hless | hsame
  · exact Nat.le_trans (nearestEven_le n d) (Nat.le_trans hless (le_nearestEven n' d'))
  · -- with the same whole part it is for the rests to decide
    have hrest : n % d * d' ≤ n' % d' * d := by
      have hn := Nat.div_add_mod n d
      have hn' := Nat.div_add_mod n' d'
      rw [← hsame] at hn'
      rw [← hn, ← hn', Nat.add_mul, Nat.add_mul, Nat.mul_right_comm d, Nat.mul_right_comm d',
        Nat.mul_comm d' d] at h
      exact Nat.le_of_add_le_add_left h
    have hdouble : 2 * (n % d) * d' ≤ 2 * (n' % d') * d := by
      rw [Nat.mul_assoc, Nat.mul_assoc]
      exact Nat.mul_le_mul_left 2 hrest
    have hhalf : d ≤ 2 * (n % d) → d' ≤ 2 * (n' % d') := by
      intro hleast
      refine Nat.le_of_mul_le_mul_right (Nat.le_trans ?_ hdouble) hd
      rw [Nat.mul_comm]
      exact Nat.mul_le_mul_right _ hleast
    have hmore : d < 2 * (n % d) → d' < 2 * (n' % d') := by
      intro hgreater
      refine Nat.lt_of_mul_lt_mul_right (a := d) (Nat.lt_of_lt_of_le ?_ hdouble)
      rw [Nat.mul_comm]
      exact Nat.mul_lt_mul_of_pos_right hgreater hd'
    unfold nearestEven
    rw [hsame]
    by_cases hbelow : 2 * (n % d) < d
    · rw [if_pos hbelow]
      exact le_nearestEven n' d'
    by_cases hat : 2 * (n % d) = d
    · rw [if_neg hbelow, if_pos hat, if_neg (Nat.not_lt.mpr (hhalf (Nat.not_lt.mp hbelow)))]
      split <;> omega
    · have habove := hmore (by omega)
      refine Nat.le_of_eq ?_
      rw [if_neg hbelow, if_neg hat, if_neg (by omega), if_neg (by omega)]

/-- It depends on the fraction only, not on how the fraction is written. -/
theorem nearestEven_congr {n d n' d' : Nat} (hd : 0 < d) (hd' : 0 < d') (h : n * d' = n' * d) :
    nearestEven n d = nearestEven n' d' :=
  Nat.le_antisymm (nearestEven_mono hd hd' (Nat.le_of_eq h)) (nearestEven_mono hd' hd (Nat.le_of_eq h.symm))

theorem nearestEven_self (n : Nat) : nearestEven n 1 = n := by
  unfold nearestEven
  rw [Nat.mod_one, if_pos (by decide), Nat.div_one]

/-! ## Fifty-three binary digits -/

/-- A number is a fraction rounded to fifty-three binary digits. The last of them counts a power of two, which
the fraction fills unless it is one. -/
def Rounded (n d z : Nat) : Prop :=
  ∃ t, n < d * twoTo (53 + t) ∧ (t = 0 ∨ d * twoTo (52 + t) ≤ n) ∧
    z = nearestEven n (d * twoTo t) * twoTo t

/-- A fraction below fifty-three digits is rounded to fifty-three digits, or to the power of two behind
them. -/
theorem nearestEven_le_twoTo {n d t : Nat} (hd : 0 < d) (h : n < d * twoTo (53 + t)) :
    nearestEven n (d * twoTo t) ≤ twoTo 53 := by
  have hless : n / (d * twoTo t) < twoTo 53 := by
    refine (Nat.div_lt_iff_lt_mul (Nat.mul_pos hd (twoTo_pos t))).mpr ?_
    rwa [twoTo_add, Nat.mul_left_comm] at h
  exact Nat.le_trans (nearestEven_le _ _) hless

/-- A fraction that fills fifty-three digits still does so when it is rounded. -/
theorem twoTo_le_nearestEven {n d t : Nat} (hd : 0 < d) (h : d * twoTo (52 + t) ≤ n) :
    twoTo 52 ≤ nearestEven n (d * twoTo t) := by
  refine Nat.le_trans ((Nat.le_div_iff_mul_le (Nat.mul_pos hd (twoTo_pos t))).mpr ?_) (le_nearestEven _ _)
  rwa [twoTo_add, Nat.mul_left_comm] at h

/-- **Rounding keeps the order.** -/
theorem Rounded.mono {n d n' d' z z' : Nat} (hd : 0 < d) (hd' : 0 < d') (h : Rounded n d z)
    (h' : Rounded n' d' z') (hle : n * d' ≤ n' * d) : z ≤ z' := by
  obtain ⟨t, hless, hfill, rfl⟩ := h
  obtain ⟨t', hless', hfill', rfl⟩ := h'
  rcases Nat.lt_trichotomy t t' with hlt | rfl | hgt
  · -- a power of two lies between the two fractions
    have hfilled := hfill'.resolve_left (by omega)
    calc nearestEven n (d * twoTo t) * twoTo t
      _ ≤ twoTo 53 * twoTo t := Nat.mul_le_mul_right _ (nearestEven_le_twoTo hd hless)
      _ = twoTo (53 + t) := (twoTo_add 53 t).symm
      _ ≤ twoTo (52 + t') := twoTo_le_twoTo (by omega)
      _ = twoTo 52 * twoTo t' := twoTo_add 52 t'
      _ ≤ nearestEven n' (d' * twoTo t') * twoTo t' :=
        Nat.mul_le_mul_right _ (twoTo_le_nearestEven hd' hfilled)
  · refine Nat.mul_le_mul_right _ (nearestEven_mono (Nat.mul_pos hd (twoTo_pos t))
      (Nat.mul_pos hd' (twoTo_pos t)) ?_)
    rw [← Nat.mul_assoc, ← Nat.mul_assoc]
    exact Nat.mul_le_mul_right _ hle
  · -- the lesser fraction cannot have the greater power
    have hfilled := hfill.resolve_left (by omega)
    refine absurd hle (Nat.not_le.mpr ?_)
    calc n' * d
      _ < d' * twoTo (53 + t') * d := Nat.mul_lt_mul_of_pos_right hless' hd
      _ = d * twoTo (53 + t') * d' := by rw [Nat.mul_comm d', Nat.mul_right_comm, Nat.mul_comm d]
      _ ≤ d * twoTo (52 + t) * d' :=
        Nat.mul_le_mul_right _ (Nat.mul_le_mul_left _ (twoTo_le_twoTo (by omega)))
      _ ≤ n * d' := Nat.mul_le_mul_right _ hfilled

/-- The same fraction in other terms is rounded to the same number. -/
theorem Rounded.congr {n d n' d' z : Nat} (hd : 0 < d) (hd' : 0 < d') (h : Rounded n d z)
    (heq : n * d' = n' * d) : Rounded n' d' z := by
  obtain ⟨t, hless, hfill, rfl⟩ := h
  refine ⟨t, Nat.lt_of_mul_lt_mul_right (a := d) ?_, ?_, ?_⟩
  · calc n' * d
      _ = n * d' := heq.symm
      _ < d * twoTo (53 + t) * d' := Nat.mul_lt_mul_of_pos_right hless hd'
      _ = d' * twoTo (53 + t) * d := by rw [Nat.mul_comm d, Nat.mul_right_comm, Nat.mul_comm d']
  · rcases hfill with hzero | hfilled
    · exact Or.inl hzero
    · refine Or.inr (Nat.le_of_mul_le_mul_right ?_ hd)
      calc d' * twoTo (52 + t) * d
        _ = d * twoTo (52 + t) * d' := by rw [Nat.mul_comm d', Nat.mul_right_comm, Nat.mul_comm d]
        _ ≤ n * d' := Nat.mul_le_mul_right _ hfilled
        _ = n' * d := heq
  · rw [nearestEven_congr (Nat.mul_pos hd (twoTo_pos t)) (Nat.mul_pos hd' (twoTo_pos t))
      (show n * (d' * twoTo t) = n' * (d * twoTo t) by rw [← Nat.mul_assoc, ← Nat.mul_assoc, heq])]

/-- What has fifty-three digits is rounded to itself. -/
theorem rounded_self {m t : Nat} (hless : m < twoTo 53) (hfill : t = 0 ∨ twoTo 52 ≤ m) :
    Rounded (m * twoTo t) 1 (m * twoTo t) := by
  have hnearest : nearestEven (m * twoTo t) (1 * twoTo t) = m := by
    rw [@nearestEven_congr _ _ m 1 (Nat.mul_pos Nat.one_pos (twoTo_pos t)) Nat.one_pos (by
      rw [Nat.one_mul, Nat.mul_one]), nearestEven_self]
  refine ⟨t, ?_, ?_, by rw [hnearest]⟩
  · rw [twoTo_add, Nat.one_mul]
    exact Nat.mul_lt_mul_of_pos_right hless (twoTo_pos t)
  · rcases hfill with hzero | hfilled
    · exact Or.inl hzero
    · refine Or.inr ?_
      rw [twoTo_add, Nat.one_mul]
      exact Nat.mul_le_mul_right _ hfilled

theorem rounded_zero {d : Nat} (hd : 0 < d) : Rounded 0 d 0 :=
  Rounded.congr (n := 0) Nat.one_pos hd (rounded_self (t := 0) (twoTo_pos 53) (Or.inl rfl)) (by
    rw [Nat.zero_mul, Nat.zero_mul])

theorem Rounded.eq_zero {d z : Nat} (hd : 0 < d) (h : Rounded 0 d z) : z = 0 :=
  Nat.le_zero.mp (h.mono hd hd (rounded_zero hd) (Nat.le_refl _))

/-! ## Round and sticky bits -/

/-- The mantissa is the whole part of a fraction, the round bit is set if the rest is at least a half, and the
sticky bit if it is neither nothing nor a half. -/
structure Describes (em : ExtendedMantissa) (n d : Nat) : Prop where
  mantissa : em.mantissa = n / d
  roundBit : em.roundBit = decide (d ≤ 2 * (n % d))
  stickyBit : em.stickyBit = decide (2 * (n % d) ≠ 0 ∧ 2 * (n % d) ≠ d)

/-- A quotient and the accuracy of what is left describe the fraction. -/
theorem describes_ofMantissaAndAccuracy {n d : Nat} (hd : 0 < d) :
    Describes (ExtendedMantissa.ofMantissaAndAccuracy (n / d) (accuracyOfFraction (n % d) d)) n d := by
  unfold accuracyOfFraction
  split
  · next hwhole =>
    exact ⟨rfl, (decide_eq_false (by omega)).symm, (decide_eq_false (by omega)).symm⟩
  · next hrest =>
    cases hhalf : compare (2 * (n % d)) d with
    | lt =>
      have hless := Nat.compare_eq_lt.mp hhalf
      exact ⟨rfl, (decide_eq_false (by omega)).symm, (decide_eq_true (by omega)).symm⟩
    | eq =>
      have hsame := Nat.compare_eq_eq.mp hhalf
      exact ⟨rfl, (decide_eq_true (by omega)).symm, (decide_eq_false (by omega)).symm⟩
    | gt =>
      have hmore := Nat.compare_eq_gt.mp hhalf
      exact ⟨rfl, (decide_eq_true (by omega)).symm, (decide_eq_true (by omega)).symm⟩

/-- One shift halves the fraction. -/
theorem Describes.shiftRightOne {em : ExtendedMantissa} {n d : Nat} (hd : 0 < d) (h : Describes em n d) :
    Describes em.shiftRightOne n (d * 2) := by
  have hmod : n % (d * 2) = n % d + d * (n / d % 2) := Nat.mod_mul
  have hrest := Nat.mod_lt n hd
  have hparity : n / d % 2 = 0 ∨ n / d % 2 = 1 := by omega
  refine ⟨?_, ?_, ?_⟩
  · show em.mantissa / 2 = _
    rw [h.mantissa, Nat.div_div_eq_div_mul]
  · show (em.mantissa % 2 != 0) = _
    rw [h.mantissa, hmod]
    rcases hparity with heven | hodd
    · rw [heven, decide_eq_false (by omega)]
      rfl
    · rw [hodd, decide_eq_true (by omega)]
      rfl
  · show (em.roundBit || em.stickyBit) = _
    rw [h.roundBit, h.stickyBit, hmod, ← Bool.decide_or]
    refine decide_eq_decide.mpr ?_
    rcases hparity with heven | hodd
    · rw [heven]
      omega
    · rw [hodd]
      omega

/-- Shifting by more places divides by a greater power, one place at a time. -/
theorem Describes.shiftRight {em : ExtendedMantissa} {n d : Nat} (hd : 0 < d) (h : Describes em n d) (k : Nat) :
    Describes (em >>> k) n (d * twoTo k) := by
  induction k with
  | zero => rwa [show d * twoTo 0 = d from Nat.mul_one d]
  | succ k ih =>
    rw [twoTo_succ, Nat.mul_comm 2, ← Nat.mul_assoc]
    exact ih.shiftRightOne (Nat.mul_pos hd (twoTo_pos k))

/-- **What a mantissa with two bits rounds to is what its fraction rounds to**, ties to even. -/
theorem Describes.roundedMantissa {em : ExtendedMantissa} {n d : Nat} (h : Describes em n d) :
    em.roundedMantissa = nearestEven n d := by
  obtain ⟨m, round, sticky⟩ := em
  obtain ⟨rfl, rfl, rfl⟩ := h
  unfold nearestEven
  by_cases hhalf : d ≤ 2 * (n % d)
  · rw [if_neg (by omega), decide_eq_true hhalf]
    by_cases hexact : 2 * (n % d) = d
    · rw [if_pos hexact, decide_eq_false (by omega)]
      rfl
    · by_cases hnothing : 2 * (n % d) ≠ 0
      · rw [if_neg hexact, decide_eq_true ⟨hnothing, hexact⟩]
        rfl
      · -- only a fraction over nothing has no rest and a half at once
        omega
  · rw [if_pos (by omega), decide_eq_false hhalf]
    cases decide (2 * (n % d) ≠ 0 ∧ 2 * (n % d) ≠ d) <;> rfl

/-! ## Results -/

/-- A mantissa and an exponent that are as floating point has them: within fifty-three digits, and with all of
them in use unless the exponent is the least. -/
structure Fits (m : Nat) (e : Int) : Prop where
  digits : m < twoTo 53
  least : -1074 ≤ e
  full : twoTo 52 ≤ m ∨ e = -1074

/-- How many units a mantissa and an exponent make. -/
def unitsOf (m : Nat) (e : Int) : Nat := m * twoTo (e + 1074).toNat

/-- A result is finite, with a sign and a number of units. -/
def Gives (f : UnpackedFloat) (s : Sign) (z : Nat) : Prop :=
  f = .zero s ∧ z = 0 ∨ ∃ m e h, f = .finite s m e h ∧ Fits m e ∧ z = unitsOf m e

/-- The exponent that a mantissa is shifted to leaves it fifty-three digits, or is the least. -/
theorem targetExponent_eq (m : Nat) (e : Int) :
    Format.binary64.targetExponent (totalExponent m e) = max ((m.log2 : Int) + e - 52) (-1074) := by
  show max ((m.log2 : Int) + 1 + e - 53) (-1074) = _
  omega

/-- Fifty-three digits have an exponent of fifty-two at most. -/
theorem log2_le_of_lt_twoTo {m : Nat} (h : m < twoTo 53) : m.log2 ≤ 52 := by
  by_cases hzero : m = 0
  · rw [hzero]
    decide
  · exact Nat.le_of_lt_succ ((Nat.log2_lt hzero).mpr h)

/-- A mantissa within its digits is not shifted again. -/
theorem shiftToTargetExponent_fits {m : Nat} {e : Int} (hm : m < twoTo 53) (he : -1074 ≤ e) :
    shiftToTargetExponent .binary64 m e .exact = (⟨m, false, false⟩, e) := by
  have hlog := log2_le_of_lt_twoTo hm
  unfold shiftToTargetExponent Float.Model.UnpackedFloat.shiftToExponent
  dsimp only
  rw [targetExponent_eq, show (max ((m.log2 : Int) + e - 52) (-1074) - e).toNat = 0 by omega]
  exact Prod.ext rfl (Int.add_zero e)

/-- A mantissa that was rounded up beyond its digits is a power of two. -/
theorem shiftToTargetExponent_carry {e : Int} (he : -1074 ≤ e) :
    shiftToTargetExponent .binary64 (twoTo 53) e .exact = (⟨twoTo 52, false, false⟩, e + 1) := by
  have hlog : (twoTo 53).log2 = 53 := by decide +kernel
  unfold shiftToTargetExponent Float.Model.UnpackedFloat.shiftToExponent
  dsimp only
  rw [targetExponent_eq, hlog, show (max (((53 : Nat) : Int) + e - 52) (-1074) - e).toNat = 1 by omega]
  rfl

/-- The second shift of a rounding takes a carry back into the digits. -/
theorem gives_shiftToTargetExponent {m : Nat} {e : Int} (s : Sign) (hm : m ≤ twoTo 53) (he : -1074 ≤ e)
    (hfull : twoTo 52 ≤ m ∨ e = -1074) :
    let shifted := shiftToTargetExponent .binary64 m e .exact
    Gives (if h : shifted.1.mantissa = 0 then .zero s
      else .finite s shifted.1.mantissa shifted.2 (Nat.pos_of_ne_zero h)) s (unitsOf m e) := by
  intro shifted
  rcases Nat.lt_or_eq_of_le hm with hdigits | hcarry
  · have hkept : shifted = (⟨m, false, false⟩, e) := shiftToTargetExponent_fits hdigits he
    rw [hkept]
    by_cases hzero : m = 0
    · rw [dif_pos hzero]
      exact Or.inl ⟨rfl, by rw [unitsOf, hzero, Nat.zero_mul]⟩
    · rw [dif_neg hzero]
      exact Or.inr ⟨_, _, _, rfl, ⟨hdigits, he, hfull⟩, rfl⟩
  · have hnext : shifted = (⟨twoTo 52, false, false⟩, e + 1) := by
      show shiftToTargetExponent .binary64 m e .exact = _
      rw [hcarry, shiftToTargetExponent_carry he]
    rw [hnext, hcarry]
    dsimp only
    rw [dif_neg (Nat.ne_of_gt (twoTo_pos 52))]
    refine Or.inr ⟨_, _, _, rfl, ⟨by decide +kernel, by omega, Or.inl (Nat.le_refl _)⟩, ?_⟩
    rw [unitsOf, unitsOf, ← twoTo_add, ← twoTo_add,
      show 52 + (e + 1 + 1074).toNat = 53 + (e + 1074).toNat by omega]

/-- A quotient with few digits comes of a small fraction. -/
theorem lt_of_log2_le {n d k : Nat} (hd : 0 < d) (h : (n / d).log2 ≤ 52 + k) : n < d * twoTo (53 + k) := by
  have hquotient : n / d < twoTo ((n / d).log2 + 1) := Nat.lt_log2_self
  rw [Nat.mul_comm]
  exact (Nat.div_lt_iff_lt_mul hd).mp (Nat.lt_of_lt_of_le hquotient (twoTo_le_twoTo (by omega)))

theorem le_of_log2_eq {n d k : Nat} (hd : 0 < d) (h : (n / d).log2 = 52 + k) : d * twoTo (52 + k) ≤ n := by
  have hpositive : n / d ≠ 0 := by
    intro hzero
    rw [hzero, Nat.log2_zero] at h
    omega
  have hquotient : twoTo (n / d).log2 ≤ n / d := Nat.log2_self_le hpositive
  rw [h] at hquotient
  rw [Nat.mul_comm]
  exact (Nat.le_div_iff_mul_le hd).mp hquotient

/-- A fraction is rounded alike however its power of two is put to its two terms. -/
theorem rounded_of_scaled {n d a b k t : Nat} (hd : 0 < d) (hexponents : k + a = b + t)
    (hless : n < d * twoTo (53 + k)) (hfill : t = 0 ∨ d * twoTo (52 + k) ≤ n) :
    Rounded (n * twoTo a) (d * twoTo b) (nearestEven n (d * twoTo k) * twoTo t) := by
  have hscale (j : Nat) : d * twoTo b * twoTo (j + t) = d * twoTo (j + k) * twoTo a := by
    rw [Nat.mul_assoc, Nat.mul_assoc, ← twoTo_add, ← twoTo_add, show b + (j + t) = j + k + a by omega]
  refine ⟨t, ?_, ?_, ?_⟩
  · rw [hscale]
    exact Nat.mul_lt_mul_of_pos_right hless (twoTo_pos a)
  · rcases hfill with hzero | hfilled
    · exact Or.inl hzero
    · rw [hscale]
      exact Or.inr (Nat.mul_le_mul_right _ hfilled)
  · have hscaled := hscale 0
    rw [Nat.zero_add, Nat.zero_add] at hscaled
    rw [@nearestEven_congr _ _ (n * twoTo a) (d * twoTo b * twoTo t) (Nat.mul_pos hd (twoTo_pos k))
      (Nat.mul_pos (Nat.mul_pos hd (twoTo_pos b)) (twoTo_pos t)) (by
        rw [hscaled, Nat.mul_assoc n, Nat.mul_comm (twoTo a)])]

/-- **The machine rounds a fraction of units to fifty-three digits.** The whole part of the fraction is the
mantissa that it is given, and what is left of it the accuracy; the exponent may not be beyond the one that
the mantissa is to be shifted to. -/
theorem roundWithAccuracy_rounded {n d : Nat} {e : Int} (s : Sign) (hd : 0 < d)
    (he : e ≤ Format.binary64.targetExponent (totalExponent (n / d) e)) :
    ∃ z, Rounded (n * twoTo (e + 1074).toNat) (d * twoTo (-1074 - e).toNat) z ∧
      Gives (roundWithAccuracy .binary64 s (n / d) e (accuracyOfFraction (n % d) d)) s z := by
  have htarget := targetExponent_eq (n / d) e
  unfold roundWithAccuracy
  rw [shiftToTargetExponent, Float.Model.UnpackedFloat.shiftToExponent]
  dsimp only
  generalize Format.binary64.targetExponent (totalExponent (n / d) e) = target at he htarget ⊢
  obtain ⟨k, hk⟩ : ∃ k : Nat, (target - e).toNat = k := ⟨_, rfl⟩
  obtain ⟨t, ht⟩ : ∃ t : Nat, (target + 1074).toNat = t := ⟨_, rfl⟩
  have hrounded := ((describes_ofMantissaAndAccuracy (n := n) hd).shiftRight hd k).roundedMantissa
  rw [hk, hrounded, show e + (k : Int) = target by omega]
  -- the fraction lies within the digits, and fills them unless the exponent is the least
  have hless : n < d * twoTo (53 + k) := lt_of_log2_le hd (by omega)
  have hfill : target = -1074 ∨ d * twoTo (52 + k) ≤ n := by
    by_cases hleast : target = -1074
    · exact Or.inl hleast
    · exact Or.inr (le_of_log2_eq hd (by omega))
  refine ⟨unitsOf (nearestEven n (d * twoTo k)) target, ?_, ?_⟩
  · rw [unitsOf, ht]
    exact rounded_of_scaled hd (by omega) hless (hfill.imp_left (by omega))
  · refine gives_shiftToTargetExponent s (nearestEven_le_twoTo hd hless) (by omega) ?_
    rcases hfill with hleast | hfilled
    · exact Or.inr hleast
    · exact Or.inl (twoTo_le_nearestEven hd hfilled)

end Aprs.Binary
