import Aprs.Proofs.Binary.Rounding

/-!
# Floating-point numbers as whole numbers of units

A floating-point number is a sign, eleven digits of an exponent and fifty-two of a mantissa. Unpacked, it has
the digits that an operation works on, and packing such a result again either loses nothing or makes it
infinite (`unpacked_packed`, `unpack_pack_overflow`).

Every number is a whole number of units, of which 2¹⁰⁷⁴ make one. An infinite one is counted as if it were the
next number behind the greatest, so that the order of floating point is that of the units, the infinite
values included:

> `le_iff`: one value is at most another if both are defined and the units of the one are at most those of
> the other.
-/

namespace Aprs.Binary

open Float.Model (UnpackedFloat Format)
open Float.Model.UnpackedFloat (Sign packComponents unpackSign unpackMantissa unpackExponent
  unpackMantissa_packComponents unpackExponent_packComponents)

/-! ## Digits and units -/

/-- Where the infinite values stand in units. -/
def top : Nat := twoTo 2098

/-- What fits with a finite exponent is below the infinite values. -/
theorem unitsOf_lt_top {m : Nat} {e : Int} (h : Fits m e) (he : e ≤ 971) : unitsOf m e < top := by
  calc unitsOf m e
    _ < twoTo 53 * twoTo (e + 1074).toNat := Nat.mul_lt_mul_of_pos_right h.digits (twoTo_pos _)
    _ = twoTo (53 + (e + 1074).toNat) := (twoTo_add _ _).symm
    _ ≤ twoTo 2098 := twoTo_le_twoTo (by omega)

/-- With a greater exponent it is not. -/
theorem top_le_unitsOf {m : Nat} {e : Int} (h : Fits m e) (he : 971 < e) : top ≤ unitsOf m e := by
  calc top
    _ ≤ twoTo (52 + (e + 1074).toNat) := twoTo_le_twoTo (by omega)
    _ = twoTo 52 * twoTo (e + 1074).toNat := twoTo_add _ _
    _ ≤ unitsOf m e := Nat.mul_le_mul_right _ (h.full.resolve_right (by omega))

/-- A greater exponent makes a greater number, whatever the mantissas are. -/
theorem unitsOf_lt_unitsOf {m m' : Nat} {e e' : Int} (h : Fits m e) (h' : Fits m' e') (hless : e < e') :
    unitsOf m e < unitsOf m' e' := by
  have hleast := h.least
  calc unitsOf m e
    _ < twoTo 53 * twoTo (e + 1074).toNat := Nat.mul_lt_mul_of_pos_right h.digits (twoTo_pos _)
    _ = twoTo (53 + (e + 1074).toNat) := (twoTo_add _ _).symm
    _ ≤ twoTo (52 + (e' + 1074).toNat) := twoTo_le_twoTo (by omega)
    _ = twoTo 52 * twoTo (e' + 1074).toNat := twoTo_add _ _
    _ ≤ unitsOf m' e' := Nat.mul_le_mul_right _ (h'.full.resolve_right (by omega))

/-- Comparing the exponents first and then the mantissas compares the units. -/
theorem compare_unitsOf {m m' : Nat} {e e' : Int} (h : Fits m e) (h' : Fits m' e') :
    (compare e e').then (compare m m') = compare (unitsOf m e : Int) (unitsOf m' e') := by
  have hsame {m m' : Nat} (hm : m < m') : unitsOf m e < unitsOf m' e :=
    Nat.mul_lt_mul_of_pos_right hm (twoTo_pos _)
  rcases Int.lt_trichotomy e e' with hlt | rfl | hgt
  · rw [Int.compare_eq_lt.mpr hlt, Int.compare_eq_lt.mpr (Int.ofNat_lt.mpr (unitsOf_lt_unitsOf h h' hlt))]
    rfl
  · rw [Int.compare_eq_eq.mpr rfl]
    show compare m m' = _
    rcases Nat.lt_trichotomy m m' with hm | rfl | hm
    · rw [Nat.compare_eq_lt.mpr hm, Int.compare_eq_lt.mpr (Int.ofNat_lt.mpr (hsame hm))]
    · rw [Nat.compare_eq_eq.mpr rfl, Int.compare_eq_eq.mpr rfl]
    · rw [Nat.compare_eq_gt.mpr hm, Int.compare_eq_gt.mpr (Int.ofNat_lt.mpr (hsame hm))]
  · rw [Int.compare_eq_gt.mpr hgt, Int.compare_eq_gt.mpr (Int.ofNat_lt.mpr (unitsOf_lt_unitsOf h' h hgt))]
    rfl

/-! ## Packing -/

/-- An unpacked value as it comes out of a floating-point number. -/
def Canonical : UnpackedFloat → Prop
  | .finite _ m e _ => Fits m e ∧ e ≤ 971
  | _ => True

theorem sign_ofBitVec_unpackSign (s : Sign) (e : BitVec 11) (m : BitVec 52) :
    Sign.ofBitVec (unpackSign (packComponents .binary64 s e m)) = s := by
  show Sign.ofBitVec ((s.toBitVec ++ e ++ m).extractLsb' 63 1) = s
  rw [BitVec.extractLsb'_append_eq_of_le (by decide), BitVec.extractLsb'_append_eq_of_le (by decide)]
  cases s <;> rfl

/-- The digit in front of a packed mantissa is the greatest of the fifty-three. -/
theorem toNat_implicit (m : BitVec 52) : (1#1 ++ m).toNat = twoTo 52 + m.toNat := by
  rw [BitVec.toNat_append, ← Nat.shiftLeft_add_eq_or_of_lt m.isLt]
  rfl

/-- What comes out of a floating-point number has the sign of its first bit and is within its digits. -/
theorem unpack_cases (b : BitVec Format.binary64.numBits) :
    let s := Sign.ofBitVec (unpackSign b)
    UnpackedFloat.unpack .binary64 b = .infinity s ∨ UnpackedFloat.unpack .binary64 b = .notANumber ∨
      UnpackedFloat.unpack .binary64 b = .zero s ∨
      ∃ m e, ∃ hm : 0 < m, UnpackedFloat.unpack .binary64 b = .finite s m e hm ∧ Fits m e ∧ e ≤ 971 := by
  have hmantissa : (unpackMantissa b).toNat < twoTo 52 := (unpackMantissa b).isLt
  have hexponent : (unpackExponent b).toNat < 2048 := (unpackExponent b).isLt
  have hdouble : twoTo 53 = 2 * twoTo 52 := twoTo_succ 52
  have hbias : ((Format.binary64.exponentBias : Nat) : Int) + (Format.binary64.mantissaBitsWithoutImplicit : Nat)
      = 1075 := rfl
  unfold UnpackedFloat.unpack
  dsimp only
  rw [hbias]
  by_cases hlast : unpackExponent b = -1#11
  · rw [if_pos hlast]
    by_cases hzero : unpackMantissa b = 0#52
    · exact Or.inl (if_pos hzero)
    · exact Or.inr (Or.inl (if_neg hzero))
  rw [if_neg hlast]
  by_cases hsmall : unpackExponent b = 0#11
  · rw [if_pos hsmall]
    by_cases hzero : unpackMantissa b = 0#52
    · exact Or.inr (Or.inr (Or.inl (dif_pos hzero)))
    · have hpositive : 0 < (unpackMantissa b).toNat :=
        Nat.pos_of_ne_zero fun h => hzero (BitVec.eq_of_toNat_eq h)
      refine Or.inr (Or.inr (Or.inr ⟨_, _, hpositive, dif_neg hzero, ⟨by omega, ?_, Or.inr ?_⟩, ?_⟩)) <;>
        rw [hsmall] <;> decide
  · have hfull : (unpackExponent b).toNat ≠ 0 := fun h => hsmall (BitVec.eq_of_toNat_eq h)
    have hfinite : (unpackExponent b).toNat ≠ 2047 := fun h => hlast (BitVec.eq_of_toNat_eq h)
    have hdigits := toNat_implicit (unpackMantissa b)
    have hpositive : 0 < (1#1 ++ unpackMantissa b).toNat := by
      rw [hdigits]
      exact Nat.add_pos_left (twoTo_pos 52) _
    exact Or.inr (Or.inr (Or.inr ⟨_, _, hpositive, if_neg hsmall,
      ⟨by omega, by omega, Or.inl (by omega)⟩, by omega⟩))

/-- What comes out of a floating-point number is within its digits. -/
theorem canonical_unpack (b : BitVec Format.binary64.numBits) : Canonical (UnpackedFloat.unpack .binary64 b) := by
  rcases unpack_cases b with h | h | h | ⟨m, e, hm, h, hfits⟩
  · rw [h]
    trivial
  · rw [h]
    trivial
  · rw [h]
    trivial
  · rw [h]
    exact hfits

/-- The exponent as it is packed, and the limit from which on a value is infinite. -/
theorem pack_finite {s : Sign} {m : Nat} {e : Int} (hm : 0 < m) :
    UnpackedFloat.pack .binary64 (.finite s m e hm) =
      if 2048 ≤ (e + 1075).toNat + 1 then packComponents .binary64 s (-1#11) 0
      else if m.log2 + 1 = 53 then
        packComponents .binary64 s (BitVec.ofNat 11 (e + 1075).toNat) (BitVec.ofNat 52 m)
      else packComponents .binary64 s 0#11 (BitVec.ofNat 52 m) := by
  have hbiased : (e + (Format.binary64.exponentBias : Nat) + (Format.binary64.mantissaBitsWithoutImplicit : Nat)).toNat
      = (e + 1075).toNat := by
    show (e + 1023 + 52).toNat = _
    omega
  unfold UnpackedFloat.pack
  dsimp only
  rw [hbiased]
  rfl

theorem finite_congr {s : Sign} {m m' : Nat} {e e' : Int} {h : 0 < m} {h' : 0 < m'} (hm : m = m')
    (he : e = e') : UnpackedFloat.finite s m e h = UnpackedFloat.finite s m' e' h' := by
  subst hm he
  rfl

/-- A number with a digit in front of those that are packed. -/
theorem unpack_normal {s : Sign} {e : BitVec 11} {m : BitVec 52} (hdefined : e ≠ -1#11) (hfull : e ≠ 0#11)
    (hpositive : 0 < twoTo 52 + m.toNat) :
    UnpackedFloat.unpack .binary64 (packComponents .binary64 s e m) =
      .finite s (twoTo 52 + m.toNat) ((e.toNat : Int) - 1075) hpositive := by
  unfold UnpackedFloat.unpack
  dsimp only
  rw [unpackExponent_packComponents, if_neg hdefined, if_neg hfull, sign_ofBitVec_unpackSign]
  refine finite_congr ?_ rfl
  rw [unpackMantissa_packComponents]
  exact toNat_implicit m

/-- A number with the least exponent. -/
theorem unpack_subnormal {s : Sign} {m : BitVec 52} (hpositive : 0 < m.toNat) :
    UnpackedFloat.unpack .binary64 (packComponents .binary64 s 0#11 m) = .finite s m.toNat (-1074) hpositive := by
  have hm : m ≠ 0#52 := fun h => absurd (h ▸ hpositive) (by decide)
  unfold UnpackedFloat.unpack
  dsimp only
  rw [unpackExponent_packComponents, if_neg (by decide), if_pos rfl, sign_ofBitVec_unpackSign]
  rw [dif_neg (by rwa [unpackMantissa_packComponents])]
  refine finite_congr ?_ rfl
  rw [unpackMantissa_packComponents]

/-- Packing a value within its digits loses nothing. -/
theorem unpack_pack_finite {s : Sign} {m : Nat} {e : Int} (hm : 0 < m) (h : Fits m e) (he : e ≤ 971) :
    UnpackedFloat.unpack .binary64 (UnpackedFloat.pack .binary64 (.finite s m e hm)) = .finite s m e hm := by
  have hleast := h.least
  have hdouble : twoTo 53 = 2 * twoTo 52 := twoTo_succ 52
  have hdigits := h.digits
  have hexponent : (BitVec.ofNat 11 (e + 1075).toNat).toNat = (e + 1075).toNat :=
    Nat.mod_eq_of_lt (show (e + 1075).toNat < 2048 by omega)
  have hmantissa : (BitVec.ofNat 52 m).toNat = m % twoTo 52 := rfl
  rw [pack_finite, if_neg (by omega)]
  by_cases hfull : twoTo 52 ≤ m
  · have hlog : m.log2 = 52 := (Nat.log2_eq_iff (by omega)).mpr ⟨hfull, hdigits⟩
    have hdefined : BitVec.ofNat 11 (e + 1075).toNat ≠ -1#11 := by
      intro hcontrary
      have hall : (e + 1075).toNat = 2047 := hexponent.symm.trans (congrArg BitVec.toNat hcontrary)
      omega
    have hnormal : BitVec.ofNat 11 (e + 1075).toNat ≠ 0#11 := by
      intro hcontrary
      have hnone : (e + 1075).toNat = 0 := hexponent.symm.trans (congrArg BitVec.toNat hcontrary)
      omega
    have hrest : m % twoTo 52 = m - twoTo 52 := by
      rw [Nat.mod_eq_sub_mod hfull, Nat.mod_eq_of_lt (by omega)]
    rw [if_pos (by omega), unpack_normal hdefined hnormal (by omega)]
    exact finite_congr (by omega) (by omega)
  · have hsmall : e = -1074 := h.full.resolve_left hfull
    have hlog : m.log2 < 52 := (Nat.log2_lt (by omega)).mpr (Nat.not_le.mp hfull)
    rw [Nat.mod_eq_of_lt (Nat.not_le.mp hfull)] at hmantissa
    rw [if_neg (by omega), unpack_subnormal (by omega)]
    exact finite_congr hmantissa hsmall.symm

/-- A value beyond the greatest exponent becomes infinite. -/
theorem unpack_pack_overflow {s : Sign} {m : Nat} {e : Int} (hm : 0 < m) (he : 971 < e) :
    UnpackedFloat.unpack .binary64 (UnpackedFloat.pack .binary64 (.finite s m e hm)) = .infinity s := by
  rw [pack_finite, if_pos (by omega)]
  cases s <;> rfl

/-! ## Numbers -/

/-- What a number unpacks to. -/
def unpacked (x : Float) : UnpackedFloat := x.toModel.unpack

/-- The number that a result is packed to. -/
def packed (f : UnpackedFloat) : Float := .ofModel (.pack f)

/-- The units of an unpacked value, if it is defined. -/
def unitsOf? : UnpackedFloat → Option Int
  | .notANumber => none
  | .infinity s => some (s.apply top)
  | .zero _ => some 0
  | .finite s m e _ => some (s.apply (unitsOf m e))

/-- The units of a number, if it is defined. -/
def units? (x : Float) : Option Int := unitsOf? (unpacked x)

theorem canonical_unpacked (x : Float) : Canonical (unpacked x) := canonical_unpack _

/-- Packing and unpacking lead back to what a number can unpack to. -/
theorem unpacked_packed {f : UnpackedFloat} (h : Canonical f) : unpacked (packed f) = f := by
  cases f with
  | notANumber => rfl
  | infinity s => cases s <;> rfl
  | zero s => cases s <;> rfl
  | finite s m e hm => exact unpack_pack_finite hm h.1 h.2

/-- **Packing keeps the units** of a value within its digits. -/
theorem units?_packed {f : UnpackedFloat} (h : Canonical f) : units? (packed f) = unitsOf? f := by
  rw [units?, unpacked_packed h]

/-- A result is packed to its units, unless they are too many. -/
theorem units?_packed_of_gives {f : UnpackedFloat} {s : Sign} {z : Nat} (h : Gives f s z) :
    units? (packed f) = some (s.apply (min z top : Nat)) := by
  rcases h with ⟨rfl, rfl⟩ | ⟨m, e, hm, rfl, hfits, rfl⟩
  · rw [units?_packed (f := .zero s) trivial, Nat.zero_min]
    cases s <;> rfl
  · by_cases he : e ≤ 971
    · rw [units?_packed (f := .finite s m e hm) ⟨hfits, he⟩, Nat.min_eq_left (Nat.le_of_lt (unitsOf_lt_top hfits he))]
      rfl
    · have hover : unpacked (packed (.finite s m e hm)) = .infinity s := unpack_pack_overflow hm (by omega)
      rw [units?, hover, Nat.min_eq_right (top_le_unitsOf hfits (by omega))]
      rfl

/-! ## The order -/

/-- Either sign keeps a magnitude between the infinite values. -/
theorem apply_le_top {s : Sign} {n : Nat} (h : n ≤ top) : -(top : Int) ≤ s.apply n ∧ s.apply n ≤ top := by
  cases s <;> constructor <;> simp only [Sign.apply] <;> omega

/-- No value is beyond the infinite ones. -/
theorem units?_bounds {x : Float} {i : Int} (h : units? x = some i) : -(top : Int) ≤ i ∧ i ≤ top := by
  have hcanonical := canonical_unpacked x
  unfold units? at h
  cases hx : unpacked x with
  | notANumber =>
    rw [hx] at h
    contradiction
  | infinity s =>
    rw [hx] at h
    exact Option.some.inj h ▸ apply_le_top (Nat.le_refl _)
  | zero s =>
    rw [hx] at h
    have hzero : (0 : Int) = i := Option.some.inj h
    omega
  | finite s m e hm =>
    rw [hx] at h hcanonical
    exact Option.some.inj h ▸ apply_le_top (Nat.le_of_lt (unitsOf_lt_top hcanonical.1 hcanonical.2))

theorem some_lt {i j : Int} (h : i < j) : some Ordering.lt = some (compare i j) :=
  congrArg some (Int.compare_eq_lt.mpr h).symm

theorem some_gt {i j : Int} (h : j < i) : some Ordering.gt = some (compare i j) :=
  congrArg some (Int.compare_eq_gt.mpr h).symm

theorem compare_neg (i j : Int) : compare (-i) (-j) = (compare i j).swap := by
  rcases Int.lt_trichotomy i j with hlt | rfl | hgt
  · rw [Int.compare_eq_lt.mpr hlt, Int.compare_eq_gt.mpr (Int.neg_lt_neg hlt)]
    rfl
  · rw [Int.compare_eq_eq.mpr rfl, Int.compare_eq_eq.mpr rfl]
    rfl
  · rw [Int.compare_eq_gt.mpr hgt, Int.compare_eq_lt.mpr (Int.neg_lt_neg hgt)]
    rfl

/-- Values within their digits are compared as their units are. -/
theorem compare_eq {f g : UnpackedFloat} (hf : Canonical f) (hg : Canonical g) :
    f.compare g = (unitsOf? f).bind fun i => (unitsOf? g).map fun j => compare i j := by
  have htop : (0 : Int) < top := Int.natCast_pos.mpr (twoTo_pos 2098)
  have hfinite {s : Sign} {m : Nat} {e : Int} {hm : 0 < m} (h : Canonical (.finite s m e hm)) :
      (0 : Int) < unitsOf m e ∧ (unitsOf m e : Int) < top :=
    ⟨Int.natCast_pos.mpr (Nat.mul_pos hm (twoTo_pos _)), Int.ofNat_lt.mpr (unitsOf_lt_top h.1 h.2)⟩
  cases f with
  | notANumber => rfl
  | infinity s =>
    cases g with
    | notANumber => cases s <;> rfl
    | infinity s' =>
      cases s <;> cases s'
      · exact congrArg some (Int.compare_eq_eq.mpr rfl).symm
      · exact some_lt (show -(top : Int) < top by omega)
      · exact some_gt (show -(top : Int) < top by omega)
      · exact congrArg some (Int.compare_eq_eq.mpr rfl).symm
    | zero s' =>
      cases s
      · exact some_lt (show -(top : Int) < 0 by omega)
      · exact some_gt (show (0 : Int) < top by omega)
    | finite s' m' e' hm' =>
      have hunits := hfinite hg
      cases s <;> cases s'
      · exact some_lt (show -(top : Int) < -unitsOf m' e' by omega)
      · exact some_lt (show -(top : Int) < unitsOf m' e' by omega)
      · exact some_gt (show -(unitsOf m' e' : Int) < top by omega)
      · exact some_gt (show (unitsOf m' e' : Int) < top by omega)
  | zero s =>
    cases g with
    | notANumber => rfl
    | infinity s' =>
      cases s'
      · exact some_gt (show -(top : Int) < 0 by omega)
      · exact some_lt (show (0 : Int) < top by omega)
    | zero s' => rfl
    | finite s' m' e' hm' =>
      have hunits := hfinite hg
      cases s'
      · exact some_gt (show -(unitsOf m' e' : Int) < 0 by omega)
      · exact some_lt (show (0 : Int) < unitsOf m' e' by omega)
  | finite s m e hm =>
    have hunits := hfinite hf
    cases g with
    | notANumber => cases s <;> rfl
    | infinity s' =>
      cases s <;> cases s'
      · exact some_gt (show -(top : Int) < -unitsOf m e by omega)
      · exact some_lt (show -(unitsOf m e : Int) < top by omega)
      · exact some_gt (show -(top : Int) < unitsOf m e by omega)
      · exact some_lt (show (unitsOf m e : Int) < top by omega)
    | zero s' =>
      cases s
      · exact some_lt (show -(unitsOf m e : Int) < 0 by omega)
      · exact some_gt (show (0 : Int) < unitsOf m e by omega)
    | finite s' m' e' hm' =>
      have hunits' := hfinite hg
      cases s <;> cases s'
      · show some ((compare e e').then (compare m m')).swap = some (compare (-(unitsOf m e : Int)) _)
        rw [compare_unitsOf hf.1 hg.1]
        exact congrArg some (compare_neg _ _).symm
      · exact some_lt (show -(unitsOf m e : Int) < unitsOf m' e' by omega)
      · exact some_gt (show -(unitsOf m' e' : Int) < unitsOf m e by omega)
      · show some ((compare e e').then (compare m m')) = some (compare (unitsOf m e : Int) _)
        rw [compare_unitsOf hf.1 hg.1]
        rfl

/-- The machine compares signs, exponents and mantissas in turn; **that is the order of the units**, and a
value without units is not compared. -/
theorem compare_unpacked (x y : Float) :
    (unpacked x).compare (unpacked y) = (units? x).bind fun i => (units? y).map fun j => compare i j :=
  compare_eq (canonical_unpacked x) (canonical_unpacked y)

/-- What is said of a comparison is said of the numbers compared, if it is false where there are none. -/
theorem compared_iff {p : Option Ordering → Prop} {r : Int → Int → Prop} (hnone : ¬p none)
    (hsome : ∀ i j, p (some (compare i j)) ↔ r i j) (a b : Option Int) :
    p (a.bind fun i => b.map fun j => compare i j) ↔ ∃ i j, a = some i ∧ b = some j ∧ r i j := by
  refine ⟨fun h => ?_, fun h => ?_⟩
  · cases a with
    | none => contradiction
    | some i =>
      cases b with
      | none => contradiction
      | some j => exact ⟨i, j, rfl, rfl, (hsome i j).mp h⟩
  · obtain ⟨i, j, hi, hj, hr⟩ := h
    subst hi hj
    exact (hsome i j).mpr hr

/-- **One value is at most another if its units are.** -/
theorem le_iff {x y : Float} : x ≤ y ↔ ∃ i j, units? x = some i ∧ units? y = some j ∧ i ≤ j := by
  have hle : x ≤ y ↔ ((unpacked x).compare (unpacked y)).any (·.isLE) = true := decide_eq_true_iff
  rw [hle, compare_unpacked]
  exact compared_iff (p := fun o => o.any (·.isLE) = true) Bool.false_ne_true (fun i j => Int.isLE_compare) _ _

/-- One value is below another if its units are. -/
theorem lt_iff {x y : Float} : x < y ↔ ∃ i j, units? x = some i ∧ units? y = some j ∧ i < j := by
  have hlt : x < y ↔ ((unpacked x).compare (unpacked y) == some .lt) = true := decide_eq_true_iff
  rw [hlt, compare_unpacked, beq_iff_eq]
  refine compared_iff (p := fun o => o = some .lt) (by intro h; contradiction) (fun i j => ?_) _ _
  rw [Option.some.injEq, Int.compare_eq_lt]

end Aprs.Binary
