import Aprs.Proofs.Address

/-!
# Fields of decimal digits

A number in a field of a fixed width is written as its last digits, zeros before it included
(`padded_eq_lowDigits`). Cutting digits off the end divides the number (`take_lowDigits`), zeros in
their place give a multiple of a power of ten (`lowDigits_mul_pow`, `value_zeros`). A field is read as the
number that was written (`field?_lowDigits`), and every field that is read is written by the number that it
gives (`field?_eq_some_iff`, `lowDigits_value`).
-/

namespace Aprs.Decimal

/-- The last digits of a number, as many as the width says. -/
def lowDigits : (width n : Nat) → Text
  | 0, _ => []
  | width + 1, n => lowDigits width (n / 10) ++ [(n % 10).digitChar]

@[simp] theorem length_lowDigits (width n : Nat) : (lowDigits width n).length = width := by
  induction width generalizing n with
  | zero => rfl
  | succ width ih => rw [lowDigits, List.length_append, ih, List.length_singleton]

theorem lowDigits_zero (width : Nat) : lowDigits width 0 = List.replicate width '0' := by
  induction width with
  | zero => rfl
  | succ width ih =>
    rw [lowDigits, Nat.zero_div, ih, List.replicate_succ']
    rfl

theorem digitChar_bounds {n : Nat} (h : n < 10) :
    0x30 ≤ n.digitChar.toNat ∧ n.digitChar.toNat ≤ 0x39 := by
  have hall : ∀ n < 10, 0x30 ≤ n.digitChar.toNat ∧ n.digitChar.toNat ≤ 0x39 := by decide
  exact hall n h

theorem digit_of_mem_lowDigits {width : Nat} {c : Char} :
    ∀ {n : Nat}, c ∈ lowDigits width n → 0x30 ≤ c.toNat ∧ c.toNat ≤ 0x39 := by
  induction width with
  | zero => intro n hc; exact absurd hc List.not_mem_nil
  | succ width ih =>
    intro n hc
    rcases List.mem_append.mp hc with hc | hc
    · exact ih hc
    · rw [List.mem_singleton.mp hc]
      exact digitChar_bounds (Nat.mod_lt n (by decide))

theorem digit_of_mem_encode_lowDigits (width n : Nat) :
    ∀ b ∈ Utf8.encode (lowDigits width n), 0x30 ≤ b.toNat ∧ b.toNat ≤ 0x39 :=
  (Utf8.forall_octets_iff (by decide)).mpr fun _ hc => digit_of_mem_lowDigits hc

theorem length_encode_lowDigits (width n : Nat) : (Utf8.encode (lowDigits width n)).length = width := by
  rw [Utf8.length_encode_ascii, length_lowDigits]
  intro c hc
  exact Nat.lt_of_le_of_lt (digit_of_mem_lowDigits hc).2 (by decide)

/-- A number that has room in a field is written there in its last digits. -/
theorem padded_eq_lowDigits {width n : Nat} (hwidth : 0 < width) (h : n < Nat.pow 10 width) :
    padded width n = lowDigits width n := by
  unfold padded digits
  induction width generalizing n with
  | zero => exact absurd hwidth (Nat.lt_irrefl 0)
  | succ width ih =>
    rw [Nat.toDigits_eq_if (by decide), lowDigits]
    split
    · next hsmall =>
      rw [Nat.div_eq_of_lt hsmall, lowDigits_zero, Nat.mod_eq_of_lt hsmall]
      rfl
    · next hlarge =>
      have hroom : n / 10 < Nat.pow 10 width :=
        Nat.div_lt_of_lt_mul (Nat.lt_of_lt_of_eq h (Nat.mul_comm _ _))
      have hpos : 0 < width := by
        rcases Nat.eq_zero_or_pos width with rfl | hpos
        · exact absurd (Nat.lt_of_lt_of_eq h (by decide)) hlarge
        · exact hpos
      rw [List.length_append, List.length_singleton, Nat.add_sub_add_right, ← List.append_assoc,
        ih hpos hroom]

/-- The last digits of a number are those of the number divided by a power of ten, and the digits that
the division leaves out. -/
theorem lowDigits_add (width cut n : Nat) :
    lowDigits (width + cut) n = lowDigits width (n / Nat.pow 10 cut) ++ lowDigits cut n := by
  induction cut generalizing n with
  | zero =>
    rw [show Nat.pow 10 0 = 1 from rfl, Nat.div_one]
    exact (List.append_nil _).symm
  | succ cut ih =>
    have hpow : n / 10 / Nat.pow 10 cut = n / Nat.pow 10 (cut + 1) := by
      rw [Nat.div_div_eq_div_mul]
      exact congrArg (n / ·) (Nat.mul_comm 10 (Nat.pow 10 cut))
    rw [← Nat.add_assoc, lowDigits, lowDigits, ih, hpow, List.append_assoc]

/-- Digits cut off at the end divide the number by a power of ten. -/
theorem take_lowDigits (width cut n : Nat) :
    (lowDigits (width + cut) n).take width = lowDigits width (n / Nat.pow 10 cut) := by
  rw [lowDigits_add]
  exact List.take_left' (length_lowDigits width _)

/-- Only what a power of ten leaves of a number has to do with its last digits. -/
theorem lowDigits_mod (width n : Nat) : lowDigits width (n % Nat.pow 10 width) = lowDigits width n := by
  induction width generalizing n with
  | zero => rfl
  | succ width ih =>
    have hrest : n % Nat.pow 10 (width + 1) / 10 = n / 10 % Nat.pow 10 width := by
      show n % (Nat.pow 10 width * 10) / 10 = _
      rw [Nat.mul_comm, Nat.mod_mul_right_div_self]
    have hlast : n % Nat.pow 10 (width + 1) % 10 = n % 10 :=
      Nat.mod_mod_of_dvd n (Nat.dvd_mul_left 10 (Nat.pow 10 width))
    rw [lowDigits, lowDigits, hrest, ih, hlast]

/-- Zeros behind the digits of a number multiply it by a power of ten. -/
theorem lowDigits_mul_pow (width zeros n : Nat) :
    lowDigits (width + zeros) (n * Nat.pow 10 zeros) =
      lowDigits width n ++ List.replicate zeros '0' := by
  induction zeros with
  | zero =>
    rw [show Nat.pow 10 0 = 1 from rfl, Nat.mul_one, List.replicate_zero, List.append_nil]
    rfl
  | succ zeros ih =>
    have hten : n * Nat.pow 10 (zeros + 1) = n * Nat.pow 10 zeros * 10 :=
      (Nat.mul_assoc n (Nat.pow 10 zeros) 10).symm
    rw [← Nat.add_assoc, lowDigits, hten, Nat.mul_div_cancel _ (by decide), Nat.mul_mod_left, ih,
      List.replicate_succ', List.append_assoc]
    rfl

/-- The last digits of a number write what is left of it after division by a power of ten. -/
theorem ofDigitChars_lowDigits (width n : Nat) :
    Nat.ofDigitChars 10 (lowDigits width n) 0 = n % Nat.pow 10 width := by
  induction width generalizing n with
  | zero => exact (Nat.mod_one n).symm
  | succ width ih =>
    have hdigit : ∀ d < 10, d.digitChar.toNat - '0'.toNat = d := by decide
    rw [lowDigits, Nat.ofDigitChars_append, ih, Nat.ofDigitChars_cons, Nat.ofDigitChars_nil,
      hdigit _ (Nat.mod_lt n (by decide))]
    show 10 * (n / 10 % Nat.pow 10 width) + n % 10 = n % (Nat.pow 10 width * 10)
    rw [Nat.mul_comm (Nat.pow 10 width) 10, Nat.mod_mul, Nat.add_comm]

/-- **A field of digits is read as the number that was written.** -/
theorem field?_lowDigits {width n : Nat} (hpos : 0 < width) (hshort : width ≤ 9)
    (h : n < Nat.pow 10 width) : field? (Utf8.encode (lowDigits width n)) = some n := by
  rw [field?_encode_eq_some_iff, ofDigitChars_lowDigits, Nat.mod_eq_of_lt h, length_lowDigits]
  refine ⟨?_, hshort, fun c hc => digit_of_mem_lowDigits hc, rfl⟩
  intro hnil
  have hlength := length_lowDigits width n
  rw [hnil] at hlength
  exact absurd hlength (Nat.ne_of_lt hpos)

/-! ## Octets -/

/-- The number that the digits in octets write. -/
def value (octets : Bytes) : Nat := Nat.ofDigitChars 10 (octets.map charOfByte) 0

theorem digit_charOfByte {octets : Bytes} (h : ∀ b ∈ octets, 0x30 ≤ b.toNat ∧ b.toNat ≤ 0x39) :
    ∀ c ∈ octets.map charOfByte, 0x30 ≤ c.toNat ∧ c.toNat ≤ 0x39 := by
  intro c hc
  obtain ⟨b, hb, rfl⟩ := List.mem_map.mp hc
  rw [Utf8.toNat_charOfByte]
  exact h b hb

/-- Octets are a field of digits exactly if they are one to nine ASCII digits. -/
theorem field?_eq_some_iff {octets : Bytes} {n : Nat} :
    field? octets = some n ↔
      octets ≠ [] ∧ octets.length ≤ 9 ∧ (∀ b ∈ octets, 0x30 ≤ b.toNat ∧ b.toNat ≤ 0x39) ∧
        n = value octets := by
  have hfield (hdigits : ∀ b ∈ octets, 0x30 ≤ b.toNat ∧ b.toNat ≤ 0x39) :
      field? octets = some n ↔ octets ≠ [] ∧ octets.length ≤ 9 ∧ n = value octets := by
    have hencode : Utf8.encode (octets.map charOfByte) = octets :=
      Utf8.encode_map_charOfByte fun b hb => Nat.lt_of_le_of_lt (hdigits b hb).2 (by decide)
    have hiff := field?_encode_eq_some_iff (t := octets.map charOfByte) (n := n)
    rw [hencode, List.length_map, Ne, List.map_eq_nil_iff] at hiff
    rw [hiff]
    exact ⟨fun ⟨hne, hshort, _, hn⟩ => ⟨hne, hshort, hn⟩,
      fun ⟨hne, hshort, hn⟩ => ⟨hne, hshort, digit_charOfByte hdigits, hn⟩⟩
  constructor
  · intro h
    have hdigits : ∀ b ∈ octets, 0x30 ≤ b.toNat ∧ b.toNat ≤ 0x39 := by
      have hread := h
      unfold field? at hread
      split at hread
      · contradiction
      · exact digits_of_readFrom? hread
    obtain ⟨hne, hshort, hn⟩ := (hfield hdigits).mp h
    exact ⟨hne, hshort, hdigits, hn⟩
  · rintro ⟨hne, hshort, hdigits, hn⟩
    exact (hfield hdigits).mpr ⟨hne, hshort, hn⟩

/-- Digits are the last digits of the number that they write. -/
theorem lowDigits_ofDigitChars {t : Text} (h : ∀ c ∈ t, 0x30 ≤ c.toNat ∧ c.toNat ≤ 0x39) :
    lowDigits t.length (Nat.ofDigitChars 10 t 0) = t := by
  rw [← List.reverse_reverse t] at h ⊢
  generalize t.reverse = backwards at h ⊢
  induction backwards with
  | nil => rfl
  | cons c rest ih =>
    simp only [List.reverse_cons, List.forall_mem_append, List.forall_mem_cons] at h
    obtain ⟨hrest, hc, -⟩ := h
    have hzero : '0'.toNat = 0x30 := rfl
    have hdigit : (c.toNat - '0'.toNat).digitChar = c := by
      rw [← Char.toNat_inj, Nat.toNat_digitChar_of_lt_ten (by omega)]
      omega
    rw [List.reverse_cons, List.length_append, List.length_singleton, lowDigits,
      Nat.ofDigitChars_append, Nat.ofDigitChars_cons, Nat.ofDigitChars_nil]
    rw [Nat.mul_add_div (by decide), Nat.div_eq_of_lt (by omega), Nat.add_zero, ih hrest,
      Nat.mul_add_mod, Nat.mod_eq_of_lt (by omega), hdigit]

theorem lowDigits_value {octets : Bytes} (h : ∀ b ∈ octets, 0x30 ≤ b.toNat ∧ b.toNat ≤ 0x39) :
    lowDigits octets.length (value octets) = octets.map charOfByte := by
  have hdigits := lowDigits_ofDigitChars (digit_charOfByte h)
  rw [List.length_map] at hdigits
  exact hdigits

/-- Digits write less than the power of ten that they reach. -/
theorem ofDigitChars_lt_pow {t : Text} (h : ∀ c ∈ t, 0x30 ≤ c.toNat ∧ c.toNat ≤ 0x39) :
    Nat.ofDigitChars 10 t 0 < Nat.pow 10 t.length := by
  have hvalue : Nat.ofDigitChars 10 t 0 = Nat.ofDigitChars 10 t 0 % Nat.pow 10 t.length := by
    rw [← ofDigitChars_lowDigits, lowDigits_ofDigitChars h]
  rw [hvalue]
  exact Nat.mod_lt _ (Nat.pow_pos (by decide))

theorem value_lt {octets : Bytes} (h : ∀ b ∈ octets, 0x30 ≤ b.toNat ∧ b.toNat ≤ 0x39) :
    value octets < Nat.pow 10 octets.length := by
  have hlt := ofDigitChars_lt_pow (digit_charOfByte h)
  rw [List.length_map] at hlt
  exact hlt

/-- Zeros behind the digits of a number multiply it by a power of ten. -/
theorem value_zeros (octets : Bytes) (count : Nat) :
    value (octets ++ List.replicate count 0x30) = value octets * Nat.pow 10 count := by
  unfold value
  rw [List.map_append, List.map_replicate, Nat.ofDigitChars_append]
  exact Nat.ofDigitChars_replicate_zero.trans (Nat.mul_comm _ _)

end Aprs.Decimal
