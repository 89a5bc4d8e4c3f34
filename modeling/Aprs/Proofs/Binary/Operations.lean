import Aprs.Proofs.Binary.Packing

/-!
# What floating-point operations compute

Sums, products and quotients of finite numbers are the fractions of units that they would be in exact
arithmetic, rounded once (`units?_add`, `units?_mul`, `units?_div`). A sum brings its terms to the lesser
exponent, a product needs no more digits than it has, and a quotient is lengthened until it has all of them:
in each case the mantissa reaches the digits that it is to be cut to, so that the machine rounds it as
`Rounded` says. Signs are kept (`RoundsTo`), and infinite operands make infinite results, or undefined ones.

Whole numbers come in by rounding as well (`units?_toFloat`), and the whole part of a value goes out without
it:

> `toNat_toUInt64`: the whole number in a value, brought within 64 bits.
-/

namespace Aprs.Binary

open Float.Model (UnpackedFloat Format totalExponent)
open Float.Model.UnpackedFloat (Sign Accuracy accuracyOfFraction roundWithAccuracy decreaseExponent)

/-! ## Signed fractions -/

/-- A number of units is a fraction with a sign, rounded, and not beyond the infinite values. -/
def RoundsTo (n : Int) (d : Nat) (k : Int) : Prop :=
  ∃ z, Rounded n.natAbs d z ∧ k = if n < 0 then -((min z top : Nat) : Int) else ((min z top : Nat) : Int)

/-- **Rounding keeps the order** of signed fractions. -/
theorem RoundsTo.mono {n n' : Int} {d d' : Nat} {k k' : Int} (hd : 0 < d) (hd' : 0 < d')
    (h : RoundsTo n d k) (h' : RoundsTo n' d' k') (hle : n * d' ≤ n' * d) : k ≤ k' := by
  obtain ⟨z, hz, rfl⟩ := h
  obtain ⟨z', hz', rfl⟩ := h'
  by_cases hn : n < 0
  · rw [if_pos hn]
    by_cases hn' : n' < 0
    · rw [if_pos hn']
      have hmagnitude : n'.natAbs * d ≤ n.natAbs * d' := by
        refine Int.ofNat_le.mp ?_
        rw [Int.natCast_mul, Int.natCast_mul, Int.ofNat_natAbs_of_nonpos (Int.le_of_lt hn),
          Int.ofNat_natAbs_of_nonpos (Int.le_of_lt hn'), Int.neg_mul, Int.neg_mul]
        exact Int.neg_le_neg hle
      have hmono := hz'.mono hd' hd hz hmagnitude
      omega
    · rw [if_neg hn']
      omega
  · have hn' : ¬n' < 0 := by
      intro hnegative
      have hleft : 0 ≤ n * d' := Int.mul_nonneg (Int.not_lt.mp hn) (Int.natCast_nonneg d')
      have hright : n' * d < 0 := Int.mul_neg_of_neg_of_pos hnegative (Int.natCast_pos.mpr hd)
      omega
    rw [if_neg hn, if_neg hn']
    have hmagnitude : n.natAbs * d' ≤ n'.natAbs * d := by
      refine Int.ofNat_le.mp ?_
      rw [Int.natCast_mul, Int.natCast_mul, Int.natAbs_of_nonneg (Int.not_lt.mp hn),
        Int.natAbs_of_nonneg (Int.not_lt.mp hn')]
      exact hle
    have hmono := hz.mono hd hd' hz' hmagnitude
    omega

/-- One fraction is rounded to one number. -/
theorem RoundsTo.unique {n n' : Int} {d d' : Nat} {k k' : Int} (hd : 0 < d) (hd' : 0 < d')
    (h : RoundsTo n d k) (h' : RoundsTo n' d' k') (heq : n * d' = n' * d) : k = k' :=
  Int.le_antisymm (h.mono hd hd' h' (Int.le_of_eq heq)) (h'.mono hd' hd h (Int.le_of_eq heq.symm))

theorem roundsTo_apply {n d z : Nat} (s : Sign) (hd : 0 < d) (h : Rounded n d z) :
    RoundsTo (s.apply n) d (s.apply (min z top : Nat)) := by
  cases s with
  | positive => exact ⟨z, h, (if_neg (by simp only [Sign.apply]; omega)).symm⟩
  | negative =>
    refine ⟨z, by rwa [Sign.apply, Int.natAbs_neg], ?_⟩
    by_cases hzero : n = 0
    · subst hzero
      rw [h.eq_zero hd, Nat.zero_min]
      rfl
    · exact (if_pos (by simp only [Sign.apply]; omega)).symm

theorem apply_mul (s : Sign) (a b : Int) : s.apply (a * b) = s.apply a * b := by
  cases s with
  | positive => rfl
  | negative => exact (Int.neg_mul a b).symm

theorem Fits.rounded {m : Nat} {e : Int} (h : Fits m e) : Rounded (unitsOf m e) 1 (unitsOf m e) :=
  rounded_self h.digits (h.full.symm.imp_left (by omega))

/-- What a number holds already is rounded to itself. -/
theorem roundsTo_self {x : Float} {i : Int} (h : units? x = some i) : RoundsTo i 1 i := by
  have hcanonical := canonical_unpacked x
  unfold units? at h
  cases hx : unpacked x with
  | notANumber =>
    rw [hx] at h
    contradiction
  | infinity s =>
    rw [hx] at h
    have htop : Rounded top 1 top := by
      show Rounded (twoTo (52 + 2046)) 1 (twoTo (52 + 2046))
      rw [twoTo_add]
      exact rounded_self (by decide +kernel) (Or.inr (Nat.le_refl _))
    have hrounds := roundsTo_apply s Nat.one_pos htop
    rw [Nat.min_self] at hrounds
    exact Option.some.inj h ▸ hrounds
  | zero s =>
    rw [hx] at h
    exact Option.some.inj h ▸ ⟨0, rounded_zero Nat.one_pos, by rw [Nat.zero_min]; rfl⟩
  | finite s m e hm =>
    rw [hx] at h hcanonical
    have hrounds := roundsTo_apply s Nat.one_pos hcanonical.1.rounded
    rw [Nat.min_eq_left (Nat.le_of_lt (unitsOf_lt_top hcanonical.1 hcanonical.2))] at hrounds
    exact Option.some.inj h ▸ hrounds

/-! ## Results that are rounded -/

theorem log2_mul_twoTo {m : Nat} (hm : m ≠ 0) (k : Nat) : (m * twoTo k).log2 = m.log2 + k := by
  refine (Nat.log2_eq_iff (Nat.ne_of_gt (Nat.mul_pos (Nat.pos_of_ne_zero hm) (twoTo_pos k)))).mpr ⟨?_, ?_⟩
  · show twoTo (m.log2 + k) ≤ _
    rw [twoTo_add]
    exact Nat.mul_le_mul_right _ (Nat.log2_self_le hm)
  · show _ < twoTo (m.log2 + k + 1)
    rw [Nat.add_right_comm, twoTo_add]
    exact Nat.mul_lt_mul_of_pos_right Nat.lt_log2_self (twoTo_pos k)

theorem shiftLeft_eq (m k : Nat) : m <<< k = m * twoTo k := Nat.shiftLeft_eq m k

/-- A whole number of some power of two is rounded. -/
theorem round_rounded (s : Sign) {m : Nat} (e : Int) (hm : m ≠ 0) :
    ∃ z, Rounded (m * twoTo (e + 1074).toNat) (twoTo (-1074 - e).toNat) z ∧
      Gives (UnpackedFloat.round .binary64 s m e) s z := by
  have htarget := targetExponent_eq m e
  unfold UnpackedFloat.round decreaseExponent
  dsimp only
  generalize Format.binary64.targetExponent (totalExponent m e) = target at htarget ⊢
  obtain ⟨k, hk⟩ : ∃ k : Nat, (e - target).toNat = k := ⟨_, rfl⟩
  rw [hk, shiftLeft_eq]
  have hlow : e - (k : Int) ≤ Format.binary64.targetExponent (totalExponent (m * twoTo k / 1) (e - k)) := by
    rw [targetExponent_eq, Nat.div_one, log2_mul_twoTo hm]
    omega
  obtain ⟨z, hz, hgives⟩ := roundWithAccuracy_rounded s Nat.one_pos hlow
  rw [Nat.div_one, Nat.mod_one] at hgives
  refine ⟨z, hz.congr (Nat.mul_pos Nat.one_pos (twoTo_pos _)) (twoTo_pos _) ?_, hgives⟩
  rw [Nat.one_mul, Nat.mul_assoc, Nat.mul_assoc, Nat.mul_assoc, ← twoTo_add, ← twoTo_add, ← twoTo_add,
    show k + ((e - k + 1074).toNat + (-1074 - e).toNat) = (e + 1074).toNat + (-1074 - (e - k)).toNat by omega]

/-- **A number with an exponent is packed as it is rounded**, a negative one by its magnitude. -/
theorem units?_packed_normalize (m e : Int) (s : Sign) :
    ∃ k, units? (packed (UnpackedFloat.normalize .binary64 m e s)) = some k ∧
      RoundsTo (m * twoTo (e + 1074).toNat) (twoTo (-1074 - e).toNat) k := by
  have hgives (s : Sign) {n : Nat} (hn : n ≠ 0) :
      ∃ k, units? (packed (UnpackedFloat.round .binary64 s n e)) = some k ∧
        RoundsTo (s.apply n * twoTo (e + 1074).toNat) (twoTo (-1074 - e).toNat) k := by
    obtain ⟨z, hz, hround⟩ := round_rounded s e hn
    refine ⟨_, units?_packed_of_gives hround, ?_⟩
    rw [← apply_mul, ← Int.natCast_mul]
    exact roundsTo_apply s (twoTo_pos _) hz
  unfold UnpackedFloat.normalize
  cases hsign : compare m 0 with
  | lt =>
    have hnegative := Int.compare_eq_lt.mp hsign
    obtain ⟨k, hk, hrounds⟩ := hgives .negative (n := (-m).toNat) (by omega)
    rw [show Sign.negative.apply ((-m).toNat : Int) = m by simp only [Sign.apply]; omega] at hrounds
    exact ⟨k, hk, hrounds⟩
  | eq =>
    obtain rfl := Int.compare_eq_eq.mp hsign
    refine ⟨0, ?_, 0, ?_, ?_⟩
    · exact units?_packed (f := .zero s) trivial
    · rw [Int.zero_mul]
      exact rounded_zero (twoTo_pos _)
    · rw [Int.zero_mul, Nat.zero_min]
      rfl
  | gt =>
    have hpositive := Int.compare_eq_gt.mp hsign
    obtain ⟨k, hk, hrounds⟩ := hgives .positive (n := m.toNat) (by omega)
    rw [show Sign.positive.apply (m.toNat : Int) = m by simp only [Sign.apply]; omega] at hrounds
    exact ⟨k, hk, hrounds⟩

/-! ## Finite and infinite operands -/

/-- A number has so many units, and is not infinite. -/
structure Finite (x : Float) (i : Int) : Prop where
  units : units? x = some i
  low : -(top : Int) < i
  high : i < top

/-- A finite number is zero or unpacks to digits. -/
theorem Finite.cases {x : Float} {i : Int} (h : Finite x i) :
    (∃ s, unpacked x = .zero s ∧ i = 0) ∨
      ∃ s m e hm, unpacked x = .finite s m e hm ∧ Fits m e ∧ i = s.apply (unitsOf m e) := by
  have hcanonical := canonical_unpacked x
  have hunits := h.units
  have hlow := h.low
  have hhigh := h.high
  unfold units? at hunits
  cases hx : unpacked x with
  | notANumber =>
    rw [hx] at hunits
    contradiction
  | infinity s =>
    rw [hx] at hunits
    have htop : s.apply (top : Int) = i := Option.some.inj hunits
    cases s <;> simp only [Sign.apply] at htop <;> omega
  | zero s =>
    rw [hx] at hunits
    exact Or.inl ⟨s, rfl, (Option.some.inj hunits).symm⟩
  | finite s m e hm =>
    rw [hx] at hunits hcanonical
    exact Or.inr ⟨s, m, e, hm, rfl, hcanonical.1, (Option.some.inj hunits).symm⟩

/-- A defined number is finite or one of the two infinite ones. -/
theorem finite_or_infinite {x : Float} {i : Int} (h : units? x = some i) :
    Finite x i ∨ ∃ s, unpacked x = .infinity s ∧ i = s.apply top := by
  have hcanonical := canonical_unpacked x
  have hunits := h
  have htop : (0 : Int) < top := Int.natCast_pos.mpr (twoTo_pos 2098)
  unfold units? at hunits
  cases hx : unpacked x with
  | notANumber =>
    rw [hx] at hunits
    contradiction
  | infinity s =>
    rw [hx] at hunits
    exact Or.inr ⟨s, rfl, (Option.some.inj hunits).symm⟩
  | zero s =>
    rw [hx] at hunits
    have hi : 0 = i := Option.some.inj hunits
    exact Or.inl ⟨h, by omega, by omega⟩
  | finite s m e hm =>
    rw [hx] at hunits hcanonical
    have hi : s.apply (unitsOf m e) = i := Option.some.inj hunits
    have hless := unitsOf_lt_top hcanonical.1 hcanonical.2
    refine Or.inl ⟨h, ?_, ?_⟩ <;> cases s <;> simp only [Sign.apply] at hi <;> omega

/-! ## Signs -/

/-- Negation flips the sign of a defined value and leaves the undefined one. -/
theorem unpacked_neg (x : Float) : unpacked (-x) = (unpacked x).neg := by
  have hcanonical := canonical_unpacked x
  refine unpacked_packed ?_
  show Canonical (unpacked x).neg
  cases hx : unpacked x with
  | notANumber => trivial
  | infinity s => trivial
  | zero s => trivial
  | finite s m e hm =>
    rw [hx] at hcanonical
    exact hcanonical

theorem apply_neg (s : Sign) (n : Int) : (-s).apply n = -s.apply n := by
  cases s with
  | positive => rfl
  | negative => exact (Int.neg_neg n).symm

/-- The negative of a number has as many units with the other sign. -/
theorem units?_neg (x : Float) : units? (-x) = (units? x).map (-·) := by
  unfold units?
  rw [unpacked_neg]
  cases unpacked x with
  | notANumber => rfl
  | infinity s => exact congrArg some (apply_neg s top)
  | zero s => rfl
  | finite s m e hm => exact congrArg some (apply_neg s (unitsOf m e))

/-- The magnitude drops the sign of a defined value and leaves the undefined one. -/
theorem unpacked_abs (x : Float) : unpacked x.abs = (unpacked x).abs := by
  have hcanonical := canonical_unpacked x
  refine unpacked_packed ?_
  show Canonical (unpacked x).abs
  cases hx : unpacked x with
  | notANumber => trivial
  | infinity s => trivial
  | zero s => trivial
  | finite s m e hm =>
    rw [hx] at hcanonical
    exact hcanonical

theorem natAbs_apply (s : Sign) (n : Nat) : ((s.apply (n : Int)).natAbs : Int) = n := by
  cases s <;> simp only [Sign.apply] <;> omega

/-- A number without its sign has as many units. -/
theorem units?_abs {x : Float} {i : Int} (h : units? x = some i) : units? x.abs = some (i.natAbs : Int) := by
  unfold units? at h ⊢
  rw [unpacked_abs]
  cases hx : unpacked x with
  | notANumber =>
    rw [hx] at h
    contradiction
  | infinity s =>
    rw [hx] at h
    exact Option.some.inj h ▸ congrArg some (natAbs_apply s top).symm
  | zero s =>
    rw [hx] at h
    exact Option.some.inj h ▸ rfl
  | finite s m e hm =>
    rw [hx] at h
    exact Option.some.inj h ▸ congrArg some (natAbs_apply s (unitsOf m e)).symm

/-! ## Sums and differences -/

/-- A lower exponent with a greater mantissa tells the same number of units. -/
theorem apply_decreaseExponent (s : Sign) (m : Nat) {e target : Int} (hleast : -1074 ≤ target) (h : target ≤ e) :
    s.apply ((decreaseExponent m e target).1 : Int) * twoTo (target + 1074).toNat = s.apply (unitsOf m e) := by
  show s.apply ((m <<< (e - target).toNat : Nat) : Int) * twoTo (target + 1074).toNat = _
  rw [← apply_mul, ← Int.natCast_mul, shiftLeft_eq, Nat.mul_assoc, ← twoTo_add,
    show (e - target).toNat + (target + 1074).toNat = (e + 1074).toNat by omega]
  rfl

/-- The sum of two finite numbers is rounded. -/
theorem units?_add {x y : Float} {i j : Int} (hx : Finite x i) (hy : Finite y j) :
    ∃ k, units? (x + y) = some k ∧ RoundsTo (i + j) 1 k := by
  have hsum : x + y = packed (UnpackedFloat.add .binary64 (unpacked x) (unpacked y)) := rfl
  have hunits : units? (packed (unpacked x)) = some i := (units?_packed (canonical_unpacked x)).trans hx.units
  have hunits' : units? (packed (unpacked y)) = some j := (units?_packed (canonical_unpacked y)).trans hy.units
  rw [hsum]
  rcases hx.cases with ⟨s, hzero, rfl⟩ | ⟨s, m, e, hm, hdigits, hfits, rfl⟩
  · rcases hy.cases with ⟨s', hzero', rfl⟩ | ⟨s', m', e', hm', hdigits', hfits', rfl⟩
    · rw [hzero, hzero']
      refine ⟨0, ?_, roundsTo_self hx.units⟩
      cases s <;> cases s' <;> exact units?_packed (f := .zero _) trivial
    · rw [hzero, hdigits'] at *
      rw [Int.zero_add]
      exact ⟨_, hunits', roundsTo_self hy.units⟩
  · rcases hy.cases with ⟨s', hzero', rfl⟩ | ⟨s', m', e', hm', hdigits', hfits', rfl⟩
    · rw [hdigits, hzero'] at *
      rw [Int.add_zero]
      exact ⟨_, hunits, roundsTo_self hx.units⟩
    · rw [hdigits, hdigits']
      have hleast := hfits.least
      have hleast' := hfits'.least
      obtain ⟨k, hk, hrounds⟩ := units?_packed_normalize
        (s.apply ((decreaseExponent m e (min e e')).1 : Int) +
          s'.apply ((decreaseExponent m' e' (min e e')).1 : Int)) (min e e') .positive
      rw [Int.add_mul, apply_decreaseExponent s m (by omega) (by omega),
        apply_decreaseExponent s' m' (by omega) (by omega), show (-1074 - min e e').toNat = 0 by omega] at hrounds
      exact ⟨k, hk, hrounds⟩

/-- A sum with one infinite term is that term. -/
theorem units?_add_infinite {x y : Float} {s : Sign} {j : Int} (hx : unpacked x = .infinity s) (hy : Finite y j) :
    units? (x + y) = some (s.apply top) ∧ units? (y + x) = some (s.apply top) := by
  have hsum : x + y = packed (UnpackedFloat.add .binary64 (unpacked x) (unpacked y)) := rfl
  have hsum' : y + x = packed (UnpackedFloat.add .binary64 (unpacked y) (unpacked x)) := rfl
  rw [hsum, hsum', hx]
  rcases hy.cases with ⟨s', hzero, -⟩ | ⟨s', m, e, hm, hdigits, -, -⟩
  · rw [hzero]
    exact ⟨units?_packed (f := .infinity s) trivial, units?_packed (f := .infinity s) trivial⟩
  · rw [hdigits]
    exact ⟨units?_packed (f := .infinity s) trivial, units?_packed (f := .infinity s) trivial⟩

/-- A sum of infinite terms is one of them, or it is undefined. -/
theorem units?_add_infinities {x y : Float} {s s' : Sign} (hx : unpacked x = .infinity s)
    (hy : unpacked y = .infinity s') :
    s = s' ∧ units? (x + y) = some (s.apply top) ∨ units? (x + y) = none := by
  have hsum : x + y = packed (UnpackedFloat.add .binary64 (unpacked x) (unpacked y)) := rfl
  rw [hsum, hx, hy]
  cases s <;> cases s'
  · exact Or.inl ⟨rfl, units?_packed (f := .infinity _) trivial⟩
  · exact Or.inr (units?_packed (f := .notANumber) trivial)
  · exact Or.inr (units?_packed (f := .notANumber) trivial)
  · exact Or.inl ⟨rfl, units?_packed (f := .infinity _) trivial⟩

/-- A sum is defined only if both terms are. -/
theorem units?_add_none {x y : Float} (h : units? x = none ∨ units? y = none) : units? (x + y) = none := by
  have hsum : x + y = packed (UnpackedFloat.add .binary64 (unpacked x) (unpacked y)) := rfl
  have hundefined {x : Float} (h : units? x = none) : unpacked x = .notANumber := by
    unfold units? at h
    cases hx : unpacked x with
    | notANumber => rfl
    | infinity s | zero s | finite s m e hm =>
      rw [hx] at h
      contradiction
  rw [hsum]
  rcases h with h | h
  · rw [hundefined h]
    exact units?_packed (f := .notANumber) trivial
  · rw [hundefined h]
    cases unpacked x <;> exact units?_packed (f := .notANumber) trivial

/-- A difference is the sum with the negative. -/
theorem sub_eq_add_neg (x y : Float) : x - y = x + -y := by
  have hsub : x - y = packed (UnpackedFloat.sub .binary64 (unpacked x) (unpacked y)) := rfl
  have hadd : x + -y = packed (UnpackedFloat.add .binary64 (unpacked x) (unpacked (-y))) := rfl
  rw [hsub, hadd, unpacked_neg]
  refine congrArg packed ?_
  cases unpacked x with
  | notANumber => rfl
  | infinity s => cases unpacked y <;> rfl
  | zero s => cases unpacked y <;> rfl
  | finite s m e hm =>
    cases unpacked y with
    | notANumber | infinity s' | zero s' => rfl
    | finite s' m' e' hm' =>
      unfold UnpackedFloat.sub UnpackedFloat.add UnpackedFloat.neg
      dsimp only
      rw [apply_neg, Int.sub_eq_add_neg]

/-! ## Products and quotients -/

/-- A positive finite number unpacks to digits without a sign. -/
theorem Finite.positive_cases {x : Float} {i : Int} (h : Finite x i) (hi : 0 < i) :
    ∃ m e hm, unpacked x = .finite .positive m e hm ∧ Fits m e ∧ i = unitsOf m e := by
  rcases h.cases with ⟨s, -, rfl⟩ | ⟨s, m, e, hm, hdigits, hfits, rfl⟩
  · omega
  · cases s with
    | positive => exact ⟨m, e, hm, hdigits, hfits, rfl⟩
    | negative =>
      simp only [Sign.apply] at hi
      omega

/-- How many units make one. -/
def one : Nat := twoTo 1074

/-- The product of two mantissas has the digits of one of them at least, so that its exponent is not beyond
the one it is shifted to. -/
theorem mul_exponent_le {m m' : Nat} {e e' : Int} (h : Fits m e) (h' : Fits m' e') (hm : 0 < m) (hm' : 0 < m') :
    e + e' ≤ Format.binary64.targetExponent (totalExponent (m * m') (e + e')) := by
  have hleast := h.least
  have hleast' := h'.least
  rw [targetExponent_eq]
  have hlog {n : Nat} (hn : twoTo 52 ≤ n) (hle : n ≤ m * m') : 52 ≤ (m * m').log2 :=
    (Nat.le_log2 (Nat.ne_of_gt (Nat.mul_pos hm hm'))).mpr (Nat.le_trans hn hle)
  rcases h.full with hfull | rfl
  · have hlong := hlog hfull (Nat.le_mul_of_pos_right m hm')
    omega
  · rcases h'.full with hfull' | rfl
    · have hlong := hlog hfull' (Nat.le_mul_of_pos_left m' hm)
      omega
    · omega

theorem unitsOf_mul_unitsOf {m m' : Nat} {e e' : Int} (hleast : -1074 ≤ e) (hleast' : -1074 ≤ e') :
    m * m' * twoTo (e + e' + 1074).toNat * one = unitsOf m e * unitsOf m' e' * twoTo (-1074 - (e + e')).toNat := by
  rw [one, unitsOf, unitsOf, Nat.mul_mul_mul_comm m, Nat.mul_assoc (m * m'), Nat.mul_assoc (m * m'), ← twoTo_add,
    ← twoTo_add, ← twoTo_add,
    show (e + e' + 1074).toNat + 1074 = (e + 1074).toNat + (e' + 1074).toNat + (-1074 - (e + e')).toNat by omega]

theorem mul_positive (s : Sign) : s * .positive = s := by
  cases s <;> rfl

/-- The product of a finite number with a positive one is rounded. -/
theorem units?_mul {x c : Float} {i j : Int} (hx : Finite x i) (hc : Finite c j) (hj : 0 < j) :
    ∃ k, units? (x * c) = some k ∧ RoundsTo (i * j) one k := by
  have hproduct : x * c = packed (UnpackedFloat.mul .binary64 (unpacked x) (unpacked c)) := rfl
  obtain ⟨m', e', hm', hdigits', hfits', rfl⟩ := hc.positive_cases hj
  rw [hproduct, hdigits']
  rcases hx.cases with ⟨s, hzero, rfl⟩ | ⟨s, m, e, hm, hdigits, hfits, rfl⟩
  · rw [hzero, Int.zero_mul]
    exact ⟨0, units?_packed (f := .zero _) trivial, 0, rounded_zero (twoTo_pos _), by rw [Nat.zero_min]; rfl⟩
  · rw [hdigits]
    have hexponent := mul_exponent_le hfits hfits' hm hm'
    rw [← Nat.div_one (m * m')] at hexponent
    obtain ⟨z, hz, hgives⟩ := roundWithAccuracy_rounded (s * .positive) Nat.one_pos hexponent
    rw [Nat.div_one, Nat.mod_one] at hgives
    refine ⟨_, units?_packed_of_gives hgives, ?_⟩
    rw [mul_positive, ← apply_mul, ← Int.natCast_mul]
    refine roundsTo_apply s (twoTo_pos _) (hz.congr (Nat.mul_pos Nat.one_pos (twoTo_pos _)) (twoTo_pos _) ?_)
    rw [Nat.one_mul]
    exact unitsOf_mul_unitsOf hfits.least hfits'.least

/-- The product of an infinite number with a positive one is infinite. -/
theorem units?_mul_infinite {x c : Float} {s : Sign} {j : Int} (hx : unpacked x = .infinity s) (hc : Finite c j)
    (hj : 0 < j) : units? (x * c) = some (s.apply top) := by
  have hproduct : x * c = packed (UnpackedFloat.mul .binary64 (unpacked x) (unpacked c)) := rfl
  obtain ⟨m, e, hm, hdigits, -, -⟩ := hc.positive_cases hj
  rw [hproduct, hx, hdigits]
  show units? (packed (.infinity (s * .positive))) = _
  rw [mul_positive]
  exact units?_packed (f := .infinity s) trivial

theorem div_positive (s : Sign) : s / .positive = s := by
  cases s <;> rfl

/-- A quotient has at least as many digits as the difference of its terms, but one. -/
theorem log2_le_log2_div {n d : Nat} (hn : n ≠ 0) (hd : 0 < d) : n.log2 ≤ (n / d).log2 + d.log2 + 1 := by
  refine Nat.le_of_lt_succ ((Nat.log2_lt hn).mpr ?_)
  show n < twoTo ((n / d).log2 + d.log2 + 1 + 1)
  have hquotient : n / d + 1 ≤ twoTo ((n / d).log2 + 1) := Nat.lt_log2_self
  have hdivisor : d ≤ twoTo (d.log2 + 1) := Nat.le_of_lt Nat.lt_log2_self
  calc n
    _ < (n / d + 1) * d := Nat.lt_mul_of_div_lt (Nat.lt_succ_self _) hd
    _ ≤ twoTo ((n / d).log2 + 1) * twoTo (d.log2 + 1) := Nat.mul_le_mul hquotient hdivisor
    _ = twoTo ((n / d).log2 + d.log2 + 1 + 1) := by
      rw [← twoTo_add, show (n / d).log2 + 1 + (d.log2 + 1) = (n / d).log2 + d.log2 + 1 + 1 by omega]

/-- A dividend is lengthened until the quotient has all its digits. -/
theorem div_exponent_le {m m' : Nat} (e e' : Int) (hm : 0 < m) (hm' : 0 < m') :
    let target := min (e - e') (Format.binary64.targetExponent (totalExponent m e - totalExponent m' e'))
    target ≤ Format.binary64.targetExponent
      (totalExponent ((m <<< (e - e' - target).toNat) / m') target) := by
  intro target
  have hwanted : Format.binary64.targetExponent (totalExponent m e - totalExponent m' e') =
      max ((m.log2 : Int) + e - (m'.log2 + e') - 53) (-1074) := by
    show max ((m.log2 : Int) + 1 + e - ((m'.log2 : Int) + 1 + e') - 53) (-1074) = _
    omega
  have htarget : target = min (e - e') (max ((m.log2 : Int) + e - (m'.log2 + e') - 53) (-1074)) :=
    congrArg (min (e - e')) hwanted
  have hlog := log2_le_log2_div (n := m * twoTo (e - e' - target).toNat) (d := m')
    (Nat.ne_of_gt (Nat.mul_pos hm (twoTo_pos _))) hm'
  rw [log2_mul_twoTo (Nat.ne_of_gt hm)] at hlog
  rw [targetExponent_eq, shiftLeft_eq]
  omega

theorem unitsOf_div_unitsOf {m m' : Nat} {e e' target : Int} (hleast : -1074 ≤ e) (hleast' : -1074 ≤ e')
    (htarget : target ≤ e - e') :
    (m <<< (e - e' - target).toNat) * twoTo (target + 1074).toNat * unitsOf m' e' =
      unitsOf m e * one * (m' * twoTo (-1074 - target).toNat) := by
  rw [shiftLeft_eq, one, unitsOf, unitsOf, Nat.mul_assoc m, ← twoTo_add, Nat.mul_mul_mul_comm, ← twoTo_add,
    Nat.mul_assoc m (twoTo (e + 1074).toNat), ← twoTo_add, Nat.mul_mul_mul_comm m (twoTo _), ← twoTo_add,
    show (e - e' - target).toNat + (target + 1074).toNat + (e' + 1074).toNat =
      (e + 1074).toNat + 1074 + (-1074 - target).toNat by omega]

/-- The quotient of a finite number by a positive one is rounded. -/
theorem units?_div {x c : Float} {i : Int} {j : Nat} (hx : Finite x i) (hc : Finite c j) (hj : 0 < j) :
    ∃ k, units? (x / c) = some k ∧ RoundsTo (i * one) j k := by
  have hquotient : x / c = packed (UnpackedFloat.div .binary64 (unpacked x) (unpacked c)) := rfl
  obtain ⟨m', e', hm', hdigits', hfits', hunits⟩ := hc.positive_cases (Int.natCast_pos.mpr hj)
  obtain rfl := Int.ofNat.inj hunits
  rw [hquotient, hdigits']
  rcases hx.cases with ⟨s, hzero, rfl⟩ | ⟨s, m, e, hm, hdigits, hfits, rfl⟩
  · rw [hzero, Int.zero_mul]
    exact ⟨0, units?_packed (f := .zero _) trivial, 0, rounded_zero hj, by rw [Nat.zero_min]; rfl⟩
  · rw [hdigits]
    obtain ⟨z, hz, hgives⟩ := roundWithAccuracy_rounded (s / .positive) hm' (div_exponent_le e e' hm hm')
    refine ⟨_, units?_packed_of_gives hgives, ?_⟩
    rw [div_positive, ← apply_mul, ← Int.natCast_mul]
    refine roundsTo_apply s hj (hz.congr (Nat.mul_pos hm' (twoTo_pos _)) hj ?_)
    exact unitsOf_div_unitsOf hfits.least hfits'.least (Int.min_le_left _ _)

/-- The quotient of an infinite number by a positive one is infinite. -/
theorem units?_div_infinite {x c : Float} {s : Sign} {j : Int} (hx : unpacked x = .infinity s) (hc : Finite c j)
    (hj : 0 < j) : units? (x / c) = some (s.apply top) := by
  have hquotient : x / c = packed (UnpackedFloat.div .binary64 (unpacked x) (unpacked c)) := rfl
  obtain ⟨m, e, hm, hdigits, -, -⟩ := hc.positive_cases hj
  rw [hquotient, hx, hdigits]
  show units? (packed (.infinity (s / .positive))) = _
  rw [div_positive]
  exact units?_packed (f := .infinity s) trivial

/-! ## Whole numbers -/

theorem one_pos : 0 < one := twoTo_pos 1074

/-- A whole number within 64 bits is rounded. -/
theorem units?_toFloat (n : UInt64) :
    ∃ k, units? n.toFloat = some k ∧ RoundsTo ((n.toNat * one : Nat) : Int) 1 k := by
  have hnumber : n.toFloat = packed (UnpackedFloat.normalize .binary64 n.toNat 0 .positive) := rfl
  obtain ⟨k, hk, hrounds⟩ := units?_packed_normalize n.toNat 0 .positive
  exact ⟨k, hnumber ▸ hk, hrounds⟩

/-- The whole part of a value is found by shifting its digits. -/
theorem roundToInt_eq (s : Sign) (m : Nat) {e : Int} (hleast : -1074 ≤ e) :
    UnpackedFloat.roundToInt s m e = s.apply ((unitsOf m e / one : Nat) : Int) := by
  obtain ⟨k, hk⟩ : ∃ k : Nat, (0 - (e - ((e - 0).toNat : Int))).toNat = k := ⟨_, rfl⟩
  have hshifted := ((describes_ofMantissaAndAccuracy (n := m * twoTo (e - 0).toNat) Nat.one_pos).shiftRight
    Nat.one_pos k).mantissa
  rw [Nat.div_one, Nat.mod_one, Nat.one_mul] at hshifted
  have hunits : unitsOf m e = m * twoTo (e - 0).toNat * twoTo (1074 - k) := by
    rw [unitsOf, Nat.mul_assoc, ← twoTo_add, show (e + 1074).toNat = (e - 0).toNat + (1074 - k) by omega]
  have hone : one = twoTo k * twoTo (1074 - k) := by
    rw [← twoTo_add, show k + (1074 - k) = 1074 by omega]
    rfl
  unfold UnpackedFloat.roundToInt UnpackedFloat.shiftToExponent decreaseExponent
  dsimp only
  rw [hk, shiftLeft_eq, hunits, hone, Nat.mul_div_mul_right _ _ (twoTo_pos _)]
  exact congrArg (fun n : Nat => s.apply (n : Int)) hshifted

theorem toNat_ofNatClamp (n : Nat) : (UInt64.ofNatClamp n).toNat = min n 18446744073709551615 := by
  unfold UInt64.ofNatClamp
  split
  · next h =>
    have hsize : n < 18446744073709551616 := h
    show n = _
    omega
  · next h =>
    have hsize : ¬n < 18446744073709551616 := h
    show 18446744073709551615 = _
    omega

/-- The whole number in a value is its quotient downwards; below zero both give zero. -/
theorem toNat_apply_div (s : Sign) (n : Nat) :
    (s.apply ((n / one : Nat) : Int)).toNat = (s.apply (n : Int) / one).toNat := by
  cases s with
  | positive => rfl
  | negative =>
    have hquotient : -(n : Int) / one ≤ 0 / one :=
      Int.ediv_le_ediv (Int.natCast_pos.mpr one_pos) (by omega)
    rw [Int.zero_ediv] at hquotient
    show (-((n / one : Nat) : Int)).toNat = (-(n : Int) / one).toNat
    rw [Int.toNat_of_nonpos hquotient, Int.toNat_of_nonpos (Int.neg_nonpos_of_nonneg (Int.natCast_nonneg _))]

/-- The whole number in a value, brought between zero and the greatest of 64 bits. -/
theorem toNat_toUInt64 {x : Float} {i : Int} (h : units? x = some i) :
    x.toUInt64.toNat = min (i / one).toNat 18446744073709551615 := by
  have hcanonical := canonical_unpacked x
  have hnumber : x.toUInt64 = UInt64.ofNatClamp ((unpacked x).toInt 0 18446744073709551615).toNat := rfl
  rw [hnumber, toNat_ofNatClamp]
  unfold units? at h
  cases hx : unpacked x with
  | notANumber =>
    rw [hx] at h
    contradiction
  | infinity s =>
    rw [hx] at h
    obtain rfl := Option.some.inj h
    rw [← toNat_apply_div]
    cases s with
    | negative =>
      show min 0 _ = min (-((top / one : Nat) : Int)).toNat _
      rw [Int.toNat_of_nonpos (Int.neg_nonpos_of_nonneg (Int.natCast_nonneg _))]
    | positive =>
      have hlarge : 18446744073709551615 ≤ top / one := by decide +kernel
      exact (Nat.min_self _).trans (Nat.min_eq_right hlarge).symm
  | zero s =>
    rw [hx] at h
    obtain rfl := Option.some.inj h
    rw [Int.zero_ediv]
    rfl
  | finite s m e hm =>
    rw [hx] at h hcanonical
    obtain rfl := Option.some.inj h
    show min (UnpackedFloat.roundToInt s m e).toNat _ = _
    rw [roundToInt_eq s m hcanonical.1.least, toNat_apply_div]

end Aprs.Binary
