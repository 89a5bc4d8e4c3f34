import Aprs.Proofs.Decimal

/-!
# Integers of decimal digits

An integer is written with ASCII digits, behind a sign or without one (`Writes`). Reading finds exactly
these texts, and a text of so many characters writes no more than they have room for:

> `integer?_eq_some_iff`: a text is read as an integer exactly if it writes this integer.
-/

namespace Aprs.Decimal

/-- ASCII digits, one at least. -/
structure AsciiDigits (t : Text) : Prop where
  nonempty : t ≠ []
  digit : ∀ c ∈ t, 0x30 ≤ c.toNat ∧ c.toNat ≤ 0x39

/-- A text writes an integer. -/
inductive Writes : Text → Int → Prop
  | plain {t : Text} (h : AsciiDigits t) : Writes t (Nat.ofDigitChars 10 t 0)
  | plus {t : Text} (h : AsciiDigits t) : Writes ('+' :: t) (Nat.ofDigitChars 10 t 0)
  | minus {t : Text} (h : AsciiDigits t) : Writes ('-' :: t) (-(Nat.ofDigitChars 10 t 0 : Int))

variable {t : Text} {n : Int}

theorem isDigit_iff {c : Char} : c.isDigit = true ↔ 0x30 ≤ c.toNat ∧ c.toNat ≤ 0x39 := by
  rw [Char.isDigit, Bool.and_eq_true, decide_eq_true_eq, decide_eq_true_eq]
  exact Iff.rfl

theorem asciiDigits_iff :
    AsciiDigits t ↔ ¬(t.isEmpty = true ∨ t.any (fun c => !c.isDigit) = true) := by
  have hall : t.any (fun c => !c.isDigit) = true ↔ ¬∀ c ∈ t, 0x30 ≤ c.toNat ∧ c.toNat ≤ 0x39 := by
    rw [List.any_eq_true, Classical.not_forall]
    refine exists_congr fun c => ?_
    rw [Bool.not_eq_true', ← Bool.not_eq_true, isDigit_iff, Classical.not_imp]
  rw [hall, List.isEmpty_iff, not_or, Classical.not_not]
  exact ⟨fun h => ⟨h.nonempty, h.digit⟩, fun h => ⟨h.1, h.2⟩⟩

/-- **A text is read as an integer exactly if it writes this integer.** -/
theorem integer?_eq_some_iff : integer? t = some n ↔ Writes t n := by
  have hwhole {body : Text} {m : Nat} :
      (if body.isEmpty = true ∨ body.any (fun c => !c.isDigit) = true then none
        else some (Nat.ofDigitChars 10 body 0)) = some m ↔
      AsciiDigits body ∧ Nat.ofDigitChars 10 body 0 = m := by
    rw [asciiDigits_iff]
    split
    · next hnot => exact iff_of_false nofun fun h => h.1 hnot
    · next hdigits => rw [and_iff_right hdigits, Option.some.injEq]
  constructor
  · intro h
    unfold integer? at h
    dsimp only at h
    split at h
    · obtain ⟨_, hcast, rfl⟩ := Option.map_eq_some_iff.mp h
      obtain ⟨m, hm, hcast⟩ := Option.bind_eq_some_iff.mp hcast
      obtain rfl := Option.some.inj hcast
      obtain ⟨hdigits, rfl⟩ := hwhole.mp hm
      exact .minus hdigits
    · obtain ⟨m, hm, rfl⟩ := Option.map_eq_some_iff.mp h
      obtain ⟨hdigits, rfl⟩ := hwhole.mp hm
      exact .plus hdigits
    · obtain ⟨m, hm, rfl⟩ := Option.map_eq_some_iff.mp h
      obtain ⟨hdigits, rfl⟩ := hwhole.mp hm
      exact .plain hdigits
  · intro h
    cases h with
    | minus h =>
      refine Option.map_eq_some_iff.mpr ⟨_, ?_, rfl⟩
      exact Option.bind_eq_some_iff.mpr ⟨_, hwhole.mpr ⟨h, rfl⟩, rfl⟩
    | plus h => exact Option.map_eq_some_iff.mpr ⟨_, hwhole.mpr ⟨h, rfl⟩, rfl⟩
    | plain h =>
      unfold integer?
      dsimp only
      -- a sign is no digit
      split
      · exact absurd (h.digit _ List.mem_cons_self).1 (by decide)
      · exact absurd (h.digit _ List.mem_cons_self).1 (by decide)
      · exact Option.map_eq_some_iff.mpr ⟨_, hwhole.mpr ⟨h, rfl⟩, rfl⟩

/-! ## Bounds -/

/-- An integer is less than the power of ten that its text reaches. -/
theorem Writes.lt_pow (h : Writes t n) : n < Nat.pow 10 t.length := by
  have hpos : 0 < Nat.pow 10 t.length := Nat.pow_pos (by decide)
  cases h with
  | plain h => exact Int.ofNat_lt.mpr (ofDigitChars_lt_pow h.digit)
  | plus h =>
    refine Int.ofNat_lt.mpr (Nat.lt_of_lt_of_le (ofDigitChars_lt_pow h.digit) ?_)
    exact Nat.pow_le_pow_right (by decide) (Nat.le_succ _)
  | minus h => omega

/-- Below zero a text reaches one digit less. -/
theorem Writes.neg_pow_lt (h : Writes t n) : -(Nat.pow 10 (t.length - 1) : Int) < n := by
  have hpos : 0 < Nat.pow 10 (t.length - 1) := Nat.pow_pos (by decide)
  cases h with
  | plain h => omega
  | plus h => omega
  | minus h =>
    have hlt := ofDigitChars_lt_pow h.digit
    rw [List.length_cons, Nat.add_sub_cancel]
    omega

/-- Without a minus no integer is negative. -/
theorem Writes.nonneg (h : Writes t n) (hsign : '-' ∉ t) : 0 ≤ n := by
  cases h with
  | plain h => exact Int.natCast_nonneg _
  | plus h => exact Int.natCast_nonneg _
  | minus h => exact absurd List.mem_cons_self hsign

end Aprs.Decimal
