import Aprs.Decimal.Digits
import Aprs.Text.Quoted
import Mathlib.Data.Nat.Digits.Defs

/-!
# Texts on a single line

A text is on a single line if no line feed and no carriage return is in it. Digits are, and so is whatever
has been quoted or escaped, since both characters are then written by a letter.
-/

namespace Aprs.Text

/-- Whether a character ends a line. -/
def isBreak (c : Char) : Bool := c = '\n' || c = '\r'

/-- No character of a text ends a line. -/
def SingleLine (t : Text) : Prop := t.all (fun c => !isBreak c) = true

instance (t : Text) : Decidable (SingleLine t) := inferInstanceAs (Decidable (_ = true))

variable {s t : Text} {c : Char}

/-- A text is one line if none of its characters ends a line. -/
theorem singleLine_iff : SingleLine t ↔ ∀ c ∈ t, isBreak c = false := by
  simp [SingleLine]

@[simp] theorem singleLine_nil : SingleLine [] := rfl

@[simp] theorem singleLine_cons : SingleLine (c :: t) ↔ isBreak c = false ∧ SingleLine t := by
  simp [SingleLine]

@[simp] theorem singleLine_append : SingleLine (s ++ t) ↔ SingleLine s ∧ SingleLine t := by
  simp [SingleLine]

/-- A text between two others. -/
theorem SingleLine.between {front behind : Text} (h : SingleLine t) (hfront : SingleLine front)
    (hbehind : SingleLine behind) : SingleLine (front ++ t ++ behind) :=
  singleLine_append.mpr ⟨singleLine_append.mpr ⟨hfront, h⟩, hbehind⟩

theorem SingleLine.of_subset (h : SingleLine t) (hsubset : s ⊆ t) : SingleLine s :=
  singleLine_iff.mpr fun c hc => singleLine_iff.mp h c (hsubset hc)

theorem singleLine_replicate (count : Nat) (h : isBreak c = false) :
    SingleLine (List.replicate count c) := by
  rw [singleLine_iff]
  intro d hd
  rwa [List.eq_of_mem_replicate hd]

/-- A text with a character in the place of one of its own. -/
theorem SingleLine.set (h : SingleLine t) (hc : isBreak c = false) (place : Nat) :
    SingleLine (t.set place c) := by
  rw [singleLine_iff] at h ⊢
  intro d hd
  rcases List.mem_or_eq_of_mem_set hd with hmem | rfl
  · exact h d hmem
  · exact hc

/-- Texts with a separator between them. -/
theorem singleLine_intercalate {separator : Text} {texts : List Text} (h : SingleLine separator) :
    SingleLine (List.intercalate separator texts) ↔ ∀ t ∈ texts, SingleLine t := by
  induction texts with
  | nil => exact iff_of_true rfl (List.forall_mem_nil _)
  | cons first rest ih =>
    cases rest with
    | nil => simp
    | cons second rest =>
      rw [List.intercalate_cons_cons, singleLine_append, singleLine_append, ih,
        List.forall_mem_cons (a := first)]
      exact ⟨fun ⟨⟨hfirst, _⟩, hrest⟩ => ⟨hfirst, hrest⟩, fun ⟨hfirst, hrest⟩ => ⟨⟨hfirst, h⟩, hrest⟩⟩

/-! ## Digits -/

/-- The digits of a radix up to sixteen. -/
theorem singleLine_toDigits {base : Nat} (h : 1 < base) (hbase : base ≤ 16) (n : Nat) :
    SingleLine (Nat.toDigits base n) := by
  have hdigit : ∀ d : Fin 16, isBreak (Nat.digitChar d) = false := by decide
  induction n using Nat.strongRecOn with
  | ind n ih =>
    rw [Nat.toDigits_eq_if h]
    split
    · next hsmall => simpa using hdigit ⟨n, Nat.lt_of_lt_of_le hsmall hbase⟩
    · next hlarge =>
      have hless : n / base < n := Nat.div_lt_self (by omega) h
      have hlast : n % base < 16 := Nat.lt_of_lt_of_le (Nat.mod_lt n (Nat.zero_lt_of_lt h)) hbase
      simpa [ih _ hless] using hdigit ⟨n % base, hlast⟩

@[simp] theorem singleLine_digits (n : Nat) : SingleLine (Decimal.digits n) :=
  singleLine_toDigits (by decide) (by decide) n

@[simp] theorem singleLine_padded (width n : Nat) : SingleLine (Decimal.padded width n) :=
  singleLine_append.mpr ⟨singleLine_replicate _ rfl, singleLine_digits n⟩

/-! ## Escapes -/

/-- A character that is neither a line feed nor a carriage return ends no line. -/
theorem isBreak_of_ne (hfeed : c ≠ '\n') (hreturn : c ≠ '\r') : isBreak c = false := by
  simp [isBreak, hfeed, hreturn]

/-- A character with a property that neither line end has ends no line. -/
theorem isBreak_of_property {P : Char → Prop} (hc : P c) (hfeed : ¬P '\n') (hreturn : ¬P '\r') :
    isBreak c = false :=
  isBreak_of_ne (fun heq => hfeed (heq ▸ hc)) (fun heq => hreturn (heq ▸ hc))

theorem singleLine_codePointEscape (c : Char) : SingleLine (codePointEscape c) :=
  (singleLine_toDigits (by decide) (Nat.le_refl 16) c.toNat).between rfl rfl

/-- What is written for a character that ends no line: itself, with or without a mark in front of it, or its
code point. -/
theorem singleLine_written (hc : isBreak c = false) (marked shown : Prop) [Decidable marked]
    [Decidable shown] :
    SingleLine (if marked then ['\\', c] else if shown then [c] else codePointEscape c) := by
  split
  · exact singleLine_cons.mpr ⟨rfl, singleLine_cons.mpr ⟨hc, rfl⟩⟩
  split
  · exact singleLine_cons.mpr ⟨hc, rfl⟩
  · exact singleLine_codePointEscape c

/-- **A quoted character ends no line**: those that would are escaped. -/
theorem singleLine_escape (mark c : Char) : SingleLine (escape mark c) := by
  unfold escape
  split
  · rfl
  split
  · rfl
  split
  · rfl
  next hreturn =>
    split
    · rfl
    next hfeed => exact singleLine_written (isBreak_of_ne hfeed hreturn) _ _

/-- So a quoted text is one line, whatever it quotes. -/
theorem singleLine_quote (t : Text) : SingleLine (quote t) := by
  have hbody : SingleLine (t.flatMap (escape '"')) := by
    rw [singleLine_iff]
    intro d hd
    obtain ⟨c, -, hc⟩ := List.mem_flatMap.mp hd
    exact singleLine_iff.mp (singleLine_escape '"' c) d hc
  exact singleLine_append.mpr ⟨singleLine_cons.mpr ⟨rfl, hbody⟩, rfl⟩

/-- An escaped octet ends no line either. -/
theorem singleLine_asciiEscape (c : Char) : SingleLine (asciiEscape c) := by
  unfold asciiEscape
  split
  · rfl
  split
  · rfl
  next hreturn =>
    split
    · rfl
    next hfeed => exact singleLine_written (isBreak_of_ne hfeed hreturn) _ _

end Aprs.Text
