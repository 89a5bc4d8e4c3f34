import Aprs.Text.DecimalDigit
import Aprs.Text.Utf8

/-!
# Runs of digits

A pattern that asks for digits takes the decimal digits of any script, each in as many octets as it
needs.
-/

namespace Aprs.Text

/-- The first `count` characters of octets, each a decimal digit, and the octets behind them. -/
def takeDigits? : (count : Nat) → Bytes → Option (Text × Bytes)
  | 0, bytes => some ([], bytes)
  | count + 1, bytes =>
    (Utf8.uncons? bytes).bind fun (c, rest) =>
      if isDecimalDigit c then (takeDigits? count rest).map fun (t, rest) => (c :: t, rest)
      else none

/-- Digits take at least an octet each. -/
theorem takeDigits?_length :
    ∀ {count : Nat} {bytes rest : Bytes} {t : Text}, takeDigits? count bytes = some (t, rest) →
      rest.length + count ≤ bytes.length := by
  intro count
  induction count with
  | zero =>
    intro bytes rest t h
    simp only [takeDigits?, Option.some.injEq, Prod.mk.injEq] at h
    rw [h.2]
    exact Nat.le_refl _
  | succ count ih =>
    intro bytes rest t h
    simp only [takeDigits?, Option.bind_eq_some_iff] at h
    obtain ⟨⟨c, more⟩, hfirst, h⟩ := h
    have hlt := Utf8.uncons?_length hfirst
    dsimp only at h
    split at h
    · simp only [Option.map_eq_some_iff, Prod.mk.injEq] at h
      obtain ⟨⟨t', r⟩, hrun, _, rfl⟩ := h
      have := ih hrun
      show r.length + (count + 1) ≤ bytes.length
      omega
    · simp at h

/-- The octets behind digits are the last ones. -/
theorem takeDigits?_suffix :
    ∀ {count : Nat} {bytes rest : Bytes} {t : Text}, takeDigits? count bytes = some (t, rest) →
      rest <:+ bytes := by
  intro count
  induction count with
  | zero =>
    intro bytes rest t h
    simp only [takeDigits?, Option.some.injEq, Prod.mk.injEq] at h
    exact ⟨[], h.2.symm⟩
  | succ count ih =>
    intro bytes rest t h
    simp only [takeDigits?, Option.bind_eq_some_iff] at h
    obtain ⟨⟨c, more⟩, hfirst, h⟩ := h
    dsimp only at h
    split at h
    · simp only [Option.map_eq_some_iff, Prod.mk.injEq] at h
      obtain ⟨⟨t', r⟩, hrun, _, rfl⟩ := h
      exact (ih hrun).trans (Utf8.uncons?_suffix hfirst)
    · simp at h

/-- There are as many digits as were asked for. -/
theorem takeDigits?_count :
    ∀ {count : Nat} {bytes rest : Bytes} {t : Text}, takeDigits? count bytes = some (t, rest) →
      t.length = count := by
  intro count
  induction count with
  | zero =>
    intro bytes rest t h
    simp only [takeDigits?, Option.some.injEq, Prod.mk.injEq] at h
    rw [← h.1]
    rfl
  | succ count ih =>
    intro bytes rest t h
    simp only [takeDigits?, Option.bind_eq_some_iff] at h
    obtain ⟨⟨c, more⟩, _, h⟩ := h
    dsimp only at h
    split at h
    · simp only [Option.map_eq_some_iff, Prod.mk.injEq] at h
      obtain ⟨⟨t', r⟩, hrun, rfl, _⟩ := h
      rw [List.length_cons, ih hrun]
    · simp at h

/-- The first `count` characters of octets, none of which ends a line, and the octets behind. -/
def takeCharacters? : (count : Nat) → Bytes → Option (Text × Bytes)
  | 0, bytes => some ([], bytes)
  | count + 1, bytes =>
    (Utf8.uncons? bytes).bind fun (c, rest) =>
      if c = '\n' then none
      else (takeCharacters? count rest).map fun (t, rest) => (c :: t, rest)

/-- The octets behind characters are the last ones. -/
theorem takeCharacters?_suffix :
    ∀ {count : Nat} {bytes rest : Bytes} {t : Text}, takeCharacters? count bytes = some (t, rest) →
      rest <:+ bytes := by
  intro count
  induction count with
  | zero =>
    intro bytes rest t h
    simp only [takeCharacters?, Option.some.injEq, Prod.mk.injEq] at h
    exact ⟨[], h.2.symm⟩
  | succ count ih =>
    intro bytes rest t h
    simp only [takeCharacters?, Option.bind_eq_some_iff] at h
    obtain ⟨⟨c, more⟩, hfirst, h⟩ := h
    dsimp only at h
    split at h
    · simp at h
    · simp only [Option.map_eq_some_iff, Prod.mk.injEq] at h
      obtain ⟨⟨t', r⟩, hrun, _, rfl⟩ := h
      exact (ih hrun).trans (Utf8.uncons?_suffix hfirst)

end Aprs.Text
