import Aprs.Proofs.Binary.Order

/-!
# Whole numbers in floating point

Whole numbers of no more than fifty-three digits are what they are, and their sums and quotients without a rest
are not rounded (`units?_ofNat_add`, `units?_ofNat_mul_div`). Products and quotients with a positive one keep the
order (`mul_ofNat_le`, `div_ofNat_le`).

Dropping a fraction and rounding to the nearest whole number both work on the magnitude and keep the sign, and
both leave alone what has no fraction (`onMagnitude`). It is enough that magnitudes become whole numbers in
their order (`Wholes`):

> `truncate_le_truncate`, `round_le_round`: both keep the order of all values.
-/

namespace Aprs.Binary

open Float.Model (UnpackedFloat)
open Float.Model.UnpackedFloat (Sign)

variable {x y : Float} {i j : Int}

/-! ## Whole numbers -/

/-- A whole number of no more than 53 digits has so many ones. -/
theorem rounded_whole {n : Nat} (h : n < twoTo 53) : Rounded (n * one) 1 (n * one) := by
  by_cases hzero : n = 0
  · subst hzero
    rw [Nat.zero_mul]
    exact rounded_zero Nat.one_pos
  · have hlog := log2_le_of_lt_twoTo h
    obtain ⟨k, hk⟩ : ∃ k : Nat, 52 - n.log2 = k := ⟨_, rfl⟩
    have hscaled : n * one = n * twoTo k * twoTo (1074 - k) := by
      rw [Nat.mul_assoc, ← twoTo_add, show k + (1074 - k) = 1074 by omega]
      rfl
    rw [hscaled]
    refine rounded_self ?_ (Or.inr ?_)
    · calc n * twoTo k
        _ < twoTo (n.log2 + 1) * twoTo k := Nat.mul_lt_mul_of_pos_right Nat.lt_log2_self (twoTo_pos k)
        _ = twoTo 53 := by rw [← twoTo_add, show n.log2 + 1 + k = 53 by omega]
    · calc twoTo 52
        _ = twoTo n.log2 * twoTo k := by rw [← twoTo_add, show n.log2 + k = 52 by omega]
        _ ≤ n * twoTo k := Nat.mul_le_mul_right _ (Nat.log2_self_le hzero)

theorem whole_lt_top {n : Nat} (h : n < twoTo 53) : n * one < top := by
  calc n * one
    _ < twoTo 53 * one := Nat.mul_lt_mul_of_pos_right h one_pos
    _ = twoTo (53 + 1074) := by rw [one, twoTo_add]
    _ ≤ twoTo 2098 := twoTo_le_twoTo (by decide)

theorem roundsTo_whole {n : Nat} (h : n < twoTo 53) :
    RoundsTo ((n * one : Nat) : Int) 1 ((n * one : Nat) : Int) := by
  have hself := roundsTo_apply .positive Nat.one_pos (rounded_whole h)
  rw [Nat.min_eq_left (Nat.le_of_lt (whole_lt_top h))] at hself
  simpa only [Sign.apply] using hself

theorem finite_whole {n : Nat} (h : n < twoTo 53) (hx : units? x = some ((n * one : Nat) : Int)) :
    Finite x ((n * one : Nat) : Int) := by
  have hless := whole_lt_top h
  exact ⟨hx, by omega, by omega⟩

/-- A word with fifty-three digits is converted exactly. -/
theorem units?_toFloat_of_lt {n : UInt64} (h : n.toNat < twoTo 53) :
    units? n.toFloat = some ((n.toNat * one : Nat) : Int) := by
  obtain ⟨k, hk, hrounds⟩ := units?_toFloat n
  rw [hk, hrounds.unique Nat.one_pos Nat.one_pos (roundsTo_whole h) rfl]

/-- A whole number is converted to itself. -/
theorem units?_ofNat {n : Nat} (h : n < twoTo 53) : units? (Float.ofNat n) = some ((n * one : Nat) : Int) := by
  have hless : n < 9007199254740992 ∧ 0 ≤ 22 := ⟨h, by decide⟩
  have hnumber : Float.ofNat n = n.toUInt64.toFloat * Float.ofBits 0x3FF0000000000000 := dif_pos hless
  have hword : n.toUInt64.toNat = n := Nat.mod_eq_of_lt (by omega)
  have hwhole := units?_toFloat_of_lt (n := n.toUInt64) (by rwa [hword])
  rw [hword] at hwhole
  have hunit : units? (Float.ofBits 0x3FF0000000000000) = some ((1 * one : Nat) : Int) := by decide +kernel
  have hone : Finite (Float.ofBits 0x3FF0000000000000) ((1 * one : Nat) : Int) := finite_whole (by decide) hunit
  rw [Nat.one_mul] at hone
  obtain ⟨k, hk, hrounds⟩ := units?_mul (finite_whole h hwhole) hone (Int.natCast_pos.mpr one_pos)
  rw [hnumber, hk, hrounds.unique one_pos Nat.one_pos (roundsTo_whole h) (Int.mul_one _)]

theorem finite_ofNat {n : Nat} (h : n < twoTo 53) : Finite (Float.ofNat n) ((n * one : Nat) : Int) :=
  finite_whole h (units?_ofNat h)

/-- The sum of whole numbers is not rounded. -/
theorem units?_ofNat_add {m n : Nat} (h : m + n < twoTo 53) :
    units? (Float.ofNat m + Float.ofNat n) = some (((m + n) * one : Nat) : Int) := by
  obtain ⟨k, hk, hrounds⟩ := units?_add (finite_ofNat (n := m) (by omega)) (finite_ofNat (n := n) (by omega))
  rw [← Int.natCast_add, ← Nat.add_mul] at hrounds
  rw [hk, hrounds.unique Nat.one_pos Nat.one_pos (roundsTo_whole h) rfl]

/-- A quotient of whole numbers that leaves nothing is not rounded. -/
theorem units?_ofNat_mul_div {n d : Nat} (hd : 0 < d) (hdivisor : d < twoTo 53) (h : n * d < twoTo 53) :
    units? (Float.ofNat (n * d) / Float.ofNat d) = some ((n * one : Nat) : Int) := by
  have hquotient : n ≤ n * d := Nat.le_mul_of_pos_right n hd
  have hterms : n * d * one * one = n * one * (d * one) := by
    rw [Nat.mul_assoc n, Nat.mul_assoc n, Nat.mul_assoc n, Nat.mul_comm (d * one)]
  obtain ⟨k, hk, hrounds⟩ := units?_div (finite_ofNat h) (finite_ofNat hdivisor) (Nat.mul_pos hd one_pos)
  rw [← Int.natCast_mul, hterms] at hrounds
  rw [hk, hrounds.unique (Nat.mul_pos hd one_pos) Nat.one_pos (roundsTo_whole (n := n) (by omega)) (by
    rw [Int.natCast_one, Int.mul_one, ← Int.natCast_mul])]

/-- Whole numbers are not negative. -/
theorem zero_le_ofNat {n : Nat} (h : n < twoTo 53) : 0.0 ≤ Float.ofNat n :=
  le_of_units units?_zero (units?_ofNat h) (Int.natCast_nonneg _)

/-- Products with a positive whole number keep the order. -/
theorem mul_ofNat_le {n : Nat} (hpos : 0 < n) (hn : n < twoTo 53) (h : x ≤ y) :
    x * Float.ofNat n ≤ y * Float.ofNat n :=
  mul_le_mul_right (finite_ofNat hn) (Int.natCast_pos.mpr (Nat.mul_pos hpos one_pos)) h

/-- Quotients by a positive whole number keep the order. -/
theorem div_ofNat_le {n : Nat} (hpos : 0 < n) (hn : n < twoTo 53) (h : x ≤ y) :
    x / Float.ofNat n ≤ y / Float.ofNat n :=
  div_le_div_right (finite_ofNat hn) (Nat.mul_pos hpos one_pos) h

/-- Quotients by a positive whole number are not negative if what is divided is not. -/
theorem div_ofNat_nonneg {n : Nat} (hpos : 0 < n) (hn : n < twoTo 53) (h : 0.0 ≤ x) : 0.0 ≤ x / Float.ofNat n := by
  have hunits : units? (0.0 / Float.ofNat n) = some ((0 * one : Nat) : Int) := by
    obtain ⟨k, hk, hrounds⟩ := units?_div finite_zero (finite_ofNat hn) (Nat.mul_pos hpos one_pos)
    rw [hk, hrounds.unique (Nat.mul_pos hpos one_pos) Nat.one_pos (roundsTo_whole (n := 0) (twoTo_pos 53)) (by
      rw [Nat.zero_mul, Int.zero_mul, Int.zero_mul, Int.natCast_zero, Int.zero_mul])]
  exact le_trans (le_of_units units?_zero hunits (Int.natCast_nonneg _)) (div_ofNat_le hpos hn h)

/-- A quotient is at most one if what is divided is at most the whole number it is divided by. -/
theorem div_ofNat_le_one {n : Nat} (hpos : 0 < n) (hn : n < twoTo 53) (h : x ≤ Float.ofNat n) :
    x / Float.ofNat n ≤ Float.ofNat 1 := by
  have hunits := units?_ofNat_mul_div (n := 1) hpos hn (by rwa [Nat.one_mul])
  rw [Nat.one_mul n] at hunits
  exact le_trans (div_ofNat_le hpos hn h) (le_of_units hunits (units?_ofNat (by decide)) (Int.le_refl _))

/-- Where a number has no fraction. -/
theorem units?_wholeBound : units? wholeBound = some ((twoTo 52 * one : Nat) : Int) := by
  decide +kernel

/-- The whole number in a value that is not negative and has a fraction. -/
theorem units?_whole {x : Float} {i : Int} (hx : units? x = some i) (hnonneg : 0 ≤ i)
    (hless : i < ((twoTo 52 * one : Nat) : Int)) :
    x.toUInt64.toNat = (i / one).toNat ∧ (i / one).toNat < twoTo 52 ∧
      units? x.toUInt64.toFloat = some (((i / one).toNat * one : Nat) : Int) := by
  have hquotient : i / one < (twoTo 52 : Nat) := by
    refine Int.ediv_lt_of_lt_mul (Int.natCast_pos.mpr one_pos) ?_
    rwa [← Int.natCast_mul]
  have hbelow : (i / one).toNat < twoTo 52 := by
    have hlow : 0 ≤ i / one := Int.ediv_nonneg hnonneg (Int.natCast_nonneg one)
    omega
  have hword : x.toUInt64.toNat = (i / one).toNat := by
    have hbound : twoTo 52 ≤ 18446744073709551615 := by decide
    rw [toNat_toUInt64 hx, Nat.min_eq_left (by omega)]
  refine ⟨hword, hbelow, ?_⟩
  rw [← hword]
  refine units?_toFloat_of_lt ?_
  have hdouble : twoTo 53 = 2 * twoTo 52 := twoTo_succ 52
  omega

/-! ## Values with the sign of another -/

/-- The first bit of all. -/
def signBit (x : Float) : BitVec 1 :=
  @UnpackedFloat.unpackSign .binary64 x.toModel.toBits.toBitVec

/-- The units are a magnitude with the sign that the sign bit gives it. -/
theorem exists_units_apply {x : Float} {i : Int} (h : units? x = some i) :
    ∃ n : Nat, i = (Sign.ofBitVec (signBit x)).apply n := by
  rcases unpack_cases x.toModel.toBits.toBitVec with hread | hread | hread | ⟨m, e, hm, hread, -⟩ <;>
    unfold units? unpacked Float.Model.unpack at h <;> rw [hread] at h
  · exact ⟨top, (Option.some.inj h).symm⟩
  · contradiction
  · refine ⟨0, (Option.some.inj h).symm.trans ?_⟩
    show 0 = (Sign.ofBitVec (signBit x)).apply 0
    cases Sign.ofBitVec (signBit x) <;> rfl
  · exact ⟨_, (Option.some.inj h).symm⟩

/-- The command's test of the sign is one of the sign bit. -/
theorem isNegative_eq (x : Float) :
    isNegative x = decide (signBit x = 1#1) := by
  have hbits := x.toModel.toBits.toNat_lt
  rw [Bool.eq_iff_iff, decide_eq_true_iff, ← BitVec.toNat_inj]
  unfold isNegative
  rw [beq_iff_eq, ← UInt64.toNat_inj]
  show x.toModel.toBits.toNat >>> 63 = 1 ↔ x.toModel.toBits.toNat >>> 63 % 2 = 1
  rw [Nat.shiftRight_eq_div_pow]
  omega

/-- The sign bit tells the sign of the units. -/
theorem units?_sign {x : Float} {i : Int} (h : units? x = some i) :
    if isNegative x then i ≤ 0 else 0 ≤ i := by
  obtain ⟨n, rfl⟩ := exists_units_apply h
  rw [isNegative_eq]
  by_cases hsign : signBit x = 1#1
  · rw [hsign, if_pos (decide_eq_true rfl)]
    show -(n : Int) ≤ 0
    omega
  · have hzero : signBit x = 0#1 := by
      revert hsign
      generalize signBit x = b
      revert b
      decide
    rw [hzero, if_neg (by decide)]
    exact Int.natCast_nonneg n

/-! ## Rounding to whole numbers -/

/-- A magnitude is changed where a number has a fraction, and the sign kept. -/
def onMagnitude (g : Float → Float) (x : Float) : Float :=
  if x.abs < wholeBound then withSignOf x (g x.abs) else x

/-- Magnitudes are rounded to whole numbers, and in their order. -/
structure Wholes (g : Float → Float) : Prop where
  whole {u : Float} {i : Int} : units? u = some i → 0 ≤ i → i < ((twoTo 52 * one : Nat) : Int) →
    ∃ n, n ≤ twoTo 52 ∧ units? (g u) = some ((n * one : Nat) : Int)
  mono {u v : Float} : 0.0 ≤ u → u ≤ v → v < wholeBound → g u ≤ g v
  zero : g 0.0 ≤ 0.0

/-- The test for a fraction is one of the units. -/
theorem abs_lt_wholeBound_iff (h : units? x = some i) :
    x.abs < wholeBound ↔ (i.natAbs : Int) < ((twoTo 52 * one : Nat) : Int) := by
  have habs := units?_abs h
  constructor
  · intro hless
    obtain ⟨k, l, hk, hl, hlt⟩ := lt_iff.mp hless
    obtain rfl := Option.some.inj (habs.symm.trans hk)
    obtain rfl := Option.some.inj (units?_wholeBound.symm.trans hl)
    exact hlt
  · intro hlt
    exact lt_iff.mpr ⟨_, _, habs, units?_wholeBound, hlt⟩

/-- A number is left as it is, or its magnitude becomes a whole number. -/
theorem Wholes.cases {g : Float → Float} (hg : Wholes g) (h : units? x = some i) :
    ¬x.abs < wholeBound ∧ units? (onMagnitude g x) = some i ∨
      x.abs < wholeBound ∧ ∃ n, n ≤ twoTo 52 ∧ units? (g x.abs) = some ((n * one : Nat) : Int) ∧
        units? (onMagnitude g x) =
          some (if isNegative x then -((n * one : Nat) : Int) else ((n * one : Nat) : Int)) := by
  unfold onMagnitude
  by_cases hbelow : x.abs < wholeBound
  · obtain ⟨n, hn, hunits⟩ := hg.whole (units?_abs h) (Int.natCast_nonneg _) ((abs_lt_wholeBound_iff h).mp hbelow)
    rw [if_pos hbelow]
    refine Or.inr ⟨hbelow, n, hn, hunits, ?_⟩
    unfold withSignOf
    cases isNegative x with
    | true =>
      rw [if_pos rfl, if_pos rfl, units?_neg, hunits]
      rfl
    | false => exact hunits
  · rw [if_neg hbelow]
    exact Or.inl ⟨hbelow, h⟩

/-- A greater magnitude has no fewer units when it is rounded. -/
theorem Wholes.units_mono {g : Float → Float} {k l : Int} (hg : Wholes g) (hx : units? x = some i)
    (hy : units? y = some j) (hnonneg : 0 ≤ i) (hle : i ≤ j) (hbelow : y < wholeBound)
    (hk : units? (g x) = some k) (hl : units? (g y) = some l) : k ≤ l :=
  le_units (hg.mono (le_of_units units?_zero hx hnonneg) (le_of_units hx hy hle) hbelow) hk hl

/-- Neither zero is rounded to more than zero. -/
theorem Wholes.units_nonpos {g : Float → Float} {k : Int} (hg : Wholes g) (hx : units? x = some i)
    (hzero : i = 0) (hk : units? (g x) = some k) : k ≤ 0 := by
  subst hzero
  have hbelow : 0.0 < wholeBound :=
    lt_iff.mpr ⟨_, _, units?_zero, units?_wholeBound, Int.natCast_pos.mpr (Nat.mul_pos (twoTo_pos 52) one_pos)⟩
  have hmono : g x ≤ g 0.0 := hg.mono (le_of_units units?_zero hx (Int.le_refl 0))
    (le_of_units hx units?_zero (Int.le_refl 0)) hbelow
  exact le_units (le_trans hmono hg.zero) hk units?_zero

/-- **Rounding to whole numbers keeps the order.** -/
theorem Wholes.le {g : Float → Float} (hg : Wholes g) (h : x ≤ y) : onMagnitude g x ≤ onMagnitude g y := by
  obtain ⟨i, j, hx, hy, hle⟩ := le_iff.mp h
  have habs := units?_abs hx
  have habs' := units?_abs hy
  have hsign := units?_sign hx
  have hsign' := units?_sign hy
  rcases hg.cases hx with ⟨hlarge, hunits⟩ | ⟨hsmall, n, hn, hwhole, hunits⟩
  · rw [abs_lt_wholeBound_iff hx] at hlarge
    rcases hg.cases hy with ⟨hlarge', hunits'⟩ | ⟨hsmall', n', hn', hwhole', hunits'⟩
    · exact le_of_units hunits hunits' hle
    · have hbound : n' * one ≤ twoTo 52 * one := Nat.mul_le_mul_right _ hn'
      rw [abs_lt_wholeBound_iff hy] at hsmall'
      refine le_of_units hunits hunits' ?_
      split <;> omega
  · have hbound : n * one ≤ twoTo 52 * one := Nat.mul_le_mul_right _ hn
    rcases hg.cases hy with ⟨hlarge', hunits'⟩ | ⟨hsmall', n', hn', hwhole', hunits'⟩
    · rw [abs_lt_wholeBound_iff hy] at hlarge'
      rw [abs_lt_wholeBound_iff hx] at hsmall
      refine le_of_units hunits hunits' ?_
      split <;> omega
    · refine le_of_units hunits hunits' ?_
      cases hnegative : isNegative x with
      | true =>
        rw [hnegative, if_pos rfl] at hsign
        rw [if_pos rfl]
        cases hnegative' : isNegative y with
        | true =>
          rw [hnegative', if_pos rfl] at hsign'
          rw [if_pos rfl]
          exact Int.neg_le_neg (hg.units_mono habs' habs (Int.natCast_nonneg _) (by omega) hsmall hwhole' hwhole)
        | false =>
          rw [if_neg Bool.false_ne_true]
          omega
      | false =>
        rw [hnegative, if_neg Bool.false_ne_true] at hsign
        rw [if_neg Bool.false_ne_true]
        cases hnegative' : isNegative y with
        | true =>
          -- both are zero, one with either sign
          rw [hnegative', if_pos rfl] at hsign'
          rw [if_pos rfl]
          have hnone := hg.units_nonpos habs (by omega) hwhole
          have hnone' := hg.units_nonpos habs' (by omega) hwhole'
          omega
        | false =>
          rw [hnegative', if_neg Bool.false_ne_true] at hsign'
          rw [if_neg Bool.false_ne_true]
          exact hg.units_mono habs habs' (Int.natCast_nonneg _) (by omega) hsmall' hwhole hwhole'

/-- **Dropping the fraction keeps the order.** A greater value has no smaller whole number. -/
theorem wholes_truncate : Wholes fun u => u.toUInt64.toFloat where
  whole hu hnonneg hless := by
    obtain ⟨-, hbelow, hunits⟩ := units?_whole hu hnonneg hless
    exact ⟨_, Nat.le_of_lt hbelow, hunits⟩
  mono {u v} hnonneg hle hbelow := by
    obtain ⟨i, j, hu, hv, hunits⟩ := le_iff.mp hle
    obtain ⟨k, l, hk, hl, hlt⟩ := lt_iff.mp hbelow
    have hlow := le_units hnonneg units?_zero hu
    obtain rfl := Option.some.inj (hv.symm.trans hk)
    obtain rfl := Option.some.inj (units?_wholeBound.symm.trans hl)
    obtain ⟨-, -, hwhole⟩ := units?_whole hu hlow (Int.lt_of_le_of_lt hunits hlt)
    obtain ⟨-, -, hwhole'⟩ := units?_whole hv (Int.le_trans hlow hunits) hlt
    refine le_of_units hwhole hwhole' (Int.ofNat_le.mpr (Nat.mul_le_mul_right _ ?_))
    have hquotient := Int.ediv_le_ediv (Int.natCast_pos.mpr one_pos) hunits
    omega
  zero := by decide +kernel

/-- The whole number nearest to a magnitude, a half going up. -/
def nearestMagnitude (u : Float) : Float :=
  let whole := u.toUInt64.toFloat
  if u - whole < 0.5 then whole else whole + 1.0

theorem truncate_eq (x : Float) : truncate x = onMagnitude (fun u => u.toUInt64.toFloat) x := rfl

/-- Below the bound the next whole number is exact. -/
theorem units?_add_one {n : Nat} (h : n < twoTo 52) (hx : units? x = some ((n * one : Nat) : Int)) :
    units? (x + 1.0) = some (((n + 1) * one : Nat) : Int) := by
  have hdouble : twoTo 53 = 2 * twoTo 52 := twoTo_succ 52
  have hunit : units? 1.0 = some ((1 * one : Nat) : Int) := by decide +kernel
  obtain ⟨k, hk, hrounds⟩ := units?_add (finite_whole (by omega) hx) (finite_whole (by decide) hunit)
  rw [← Int.natCast_add, ← Nat.add_mul] at hrounds
  rw [hk, hrounds.unique Nat.one_pos Nat.one_pos (roundsTo_whole (by omega)) rfl]

/-- The whole number next to a magnitude on the side of zero, or the one behind it. -/
theorem units?_nearestMagnitude {u : Float} (hu : units? u = some i) (hnonneg : 0 ≤ i)
    (hless : i < ((twoTo 52 * one : Nat) : Int)) :
    (i / one).toNat < twoTo 52 ∧ units? (nearestMagnitude u) =
      some ((((i / one).toNat + if u - u.toUInt64.toFloat < 0.5 then 0 else 1) * one : Nat) : Int) := by
  obtain ⟨-, hbelow, hunits⟩ := units?_whole hu hnonneg hless
  refine ⟨hbelow, ?_⟩
  unfold nearestMagnitude
  dsimp only
  split
  · exact hunits
  · exact units?_add_one hbelow hunits

/-- **Rounding to the nearest keeps the order.** Where two values have one whole number, the greater has no
smaller fraction, and where they have not, the next whole number of the smaller one is at most that of the
greater. -/
theorem wholes_round : Wholes nearestMagnitude where
  whole hu hnonneg hless := by
    obtain ⟨hbelow, hunits⟩ := units?_nearestMagnitude hu hnonneg hless
    refine ⟨_, ?_, hunits⟩
    split <;> omega
  mono {u v} hnonneg hle hbelow := by
    obtain ⟨i, j, hu, hv, hunits⟩ := le_iff.mp hle
    obtain ⟨k, l, hk, hl, hlt⟩ := lt_iff.mp hbelow
    have hlow := le_units hnonneg units?_zero hu
    obtain rfl := Option.some.inj (hv.symm.trans hk)
    obtain rfl := Option.some.inj (units?_wholeBound.symm.trans hl)
    obtain ⟨-, hnearest⟩ := units?_nearestMagnitude hu hlow (Int.lt_of_le_of_lt hunits hlt)
    obtain ⟨-, hnearest'⟩ := units?_nearestMagnitude hv (Int.le_trans hlow hunits) hlt
    refine le_of_units hnearest hnearest' (Int.ofNat_le.mpr (Nat.mul_le_mul_right _ ?_))
    have hquotient := Int.ediv_le_ediv (Int.natCast_pos.mpr one_pos) hunits
    rcases Nat.lt_or_eq_of_le (show (i / one).toNat ≤ (j / one).toNat by omega) with hless | hsame
    · split <;> split <;> omega
    · -- with the same whole number it is for the fractions to decide
      obtain ⟨hword, hsmall, hwhole⟩ := units?_whole hu hlow (Int.lt_of_le_of_lt hunits hlt)
      obtain ⟨hword', -, -⟩ := units?_whole hv (Int.le_trans hlow hunits) hlt
      have hwords : v.toUInt64 = u.toUInt64 := UInt64.toNat_inj.mp (by omega)
      have hfinite := finite_whole (Nat.lt_of_lt_of_le hsmall (twoTo_le_twoTo (by decide))) hwhole
      have hrest : u - u.toUInt64.toFloat ≤ v - u.toUInt64.toFloat :=
        sub_le_sub hle (le_of_units hwhole hwhole (Int.le_refl _)) ⟨_, hfinite⟩ ⟨_, hfinite⟩
      rw [hsame, hwords]
      by_cases hhalf : v - u.toUInt64.toFloat < 0.5
      · refine Nat.le_of_eq ?_
        rw [if_pos hhalf, if_pos (lt_of_le_of_lt hrest hhalf)]
      · rw [if_neg hhalf]
        split <;> omega
  zero := by decide +kernel

/-! ## The order is kept -/

/-- Dropping the fraction keeps the order. -/
theorem truncate_le_truncate (h : x ≤ y) : truncate x ≤ truncate y := wholes_truncate.le h

/-- Rounding to the nearest whole number keeps the order. -/
theorem round_le_round (h : x ≤ y) : round x ≤ round y := wholes_round.le h

/-- Whole numbers are converted in their order. -/
theorem ofNat_le_ofNat {m n : Nat} (h : m ≤ n) (hn : n < twoTo 53) : Float.ofNat m ≤ Float.ofNat n :=
  le_of_units (units?_ofNat (Nat.lt_of_le_of_lt h hn)) (units?_ofNat hn)
    (Int.ofNat_le.mpr (Nat.mul_le_mul_right _ h))

/-- Nothing without a fraction lies between two whole numbers that follow each other. -/
theorem truncate_le_or_le (hx : x ≤ x) {n : Nat} (hn : n < twoTo 52) :
    truncate x ≤ -Float.ofNat (n + 1) ∨ -Float.ofNat n ≤ truncate x := by
  obtain ⟨i, -, hi, -, -⟩ := le_iff.mp hx
  have hdouble : twoTo 53 = 2 * twoTo 52 := twoTo_succ 52
  have hlow : units? (-Float.ofNat n) = some (-((n * one : Nat) : Int)) := by
    rw [units?_neg, units?_ofNat (by omega)]
    rfl
  have hnext : units? (-Float.ofNat (n + 1)) = some (-(((n + 1) * one : Nat) : Int)) := by
    rw [units?_neg, units?_ofNat (by omega)]
    rfl
  have hbound : (n + 1) * one ≤ twoTo 52 * one := Nat.mul_le_mul_right _ hn
  have hstep : n * one ≤ (n + 1) * one := Nat.mul_le_mul_right _ (Nat.le_succ n)
  rw [truncate_eq]
  rcases wholes_truncate.cases hi with ⟨hlarge, hunits⟩ | ⟨-, m, -, -, hunits⟩
  · rw [abs_lt_wholeBound_iff hi] at hlarge
    rcases Int.lt_or_le i 0 with hnegative | hnonneg
    · exact Or.inl (le_of_units hunits hnext (by omega))
    · exact Or.inr (le_of_units hlow hunits (by omega))
  · cases hsign : isNegative x with
    | false =>
      rw [hsign, if_neg Bool.false_ne_true] at hunits
      exact Or.inr (le_of_units hlow hunits (by omega))
    | true =>
      rw [hsign, if_pos rfl] at hunits
      rcases Nat.lt_or_ge n m with hless | hge
      · have hm : (n + 1) * one ≤ m * one := Nat.mul_le_mul_right _ hless
        exact Or.inl (le_of_units hunits hnext (by omega))
      · have hm : m * one ≤ n * one := Nat.mul_le_mul_right _ hge
        exact Or.inr (le_of_units hlow hunits (by omega))

end Aprs.Binary
