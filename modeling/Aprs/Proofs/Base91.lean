import Aprs.Base91

/-!
# Base-91 digits are read as the number that was written

Reading goes on from what was read so far, so that digits behind others multiply it by a power of the
radix (`decodeFrom_digits`). The greatest number that is written in a field has room there, and is less
than the greatest word (`top_lt_pow`, `top_lt_word`), so a field of any width is read:

> `decode_encode`: a number is read from its field, brought down to the greatest that is written there.

Which octets are read at all, and as which number, is told by their place values:

> `decode_eq_ok_iff`: octets are read exactly if they are digits whose number is a word.

Specification: 4.3 (Position Decoder) and 8 (Testable Properties).
-/

namespace Aprs.Base91

/-- The octet of a digit, whose value is below the radix. -/
theorem digit?_ofNat {d : Nat} (h : d < radix) : digit? (UInt8.ofNat (zero + d)) = some d := by
  have hradix : radix = 91 := rfl
  have hzero : zero = 33 := rfl
  have hoctet : (UInt8.ofNat (zero + d)).toNat = zero + d :=
    UInt8.toNat_ofNat_of_lt' (show zero + d < 256 by omega)
  unfold digit?
  rw [hoctet, if_pos ⟨Nat.le_add_right _ _, Nat.add_lt_add_left h _⟩, Nat.add_sub_cancel_left]

@[simp] theorem length_digits (count n : Nat) : (digits count n).length = count := by
  induction count generalizing n with
  | zero => rfl
  | succ count ih => rw [digits, List.length_append, ih, List.length_singleton]

/-- An octet from `!` to the last of the ninety-one. -/
def IsDigit (b : UInt8) : Prop := 0x21 ≤ b.toNat ∧ b.toNat ≤ 0x7B

theorem isDigit_ofNat {d : Nat} (h : d < radix) : IsDigit (UInt8.ofNat (zero + d)) := by
  have hradix : radix = 91 := rfl
  have hzero : zero = 0x21 := rfl
  unfold IsDigit
  rw [UInt8.toNat_ofNat_of_lt' (show zero + d < 256 by omega)]
  omega

/-- The last digits of a number are digits. -/
theorem isDigit_of_mem_digits {count : Nat} {b : UInt8} :
    ∀ {n : Nat}, b ∈ digits count n → IsDigit b := by
  induction count with
  | zero => intro n hb; exact absurd hb List.not_mem_nil
  | succ count ih =>
    intro n hb
    rcases List.mem_append.mp hb with hb | hb
    · exact ih hb
    · rw [List.mem_singleton.mp hb]
      exact isDigit_ofNat (Nat.mod_lt n (by decide))

/-- Digits are octets of ASCII. -/
theorem digits_ascii {count n : Nat} {b : UInt8} (h : b ∈ digits count n) : b.toNat < 0x80 :=
  Nat.lt_of_le_of_lt (isDigit_of_mem_digits h).2 (by decide)

theorem decodeFrom_append (s t : Bytes) (n : Nat) :
    decodeFrom n (s ++ t) = (decodeFrom n s).bind fun m => decodeFrom m t := by
  induction s generalizing n with
  | nil => rfl
  | cons b rest ih =>
    rw [List.cons_append, decodeFrom, decodeFrom]
    split
    · rfl
    · dsimp only
      split
      · exact ih _
      · rfl

/-- **Digits are read behind a number** as what is left of theirs below the power of the radix. -/
theorem decodeFrom_digits {count n m : Nat}
    (h : n * Nat.pow radix count + m % Nat.pow radix count < wordBound) :
    decodeFrom n (digits count m) = .ok (n * Nat.pow radix count + m % Nat.pow radix count) := by
  induction count generalizing m with
  | zero =>
    rw [show Nat.pow radix 0 = 1 from rfl, Nat.mul_one, Nat.mod_one]
    rfl
  | succ count ih =>
    -- the last digit is worth its value, those before it the radix times theirs
    have hsplit : n * Nat.pow radix (count + 1) + m % Nat.pow radix (count + 1) =
        radix * (n * Nat.pow radix count + m / radix % Nat.pow radix count) + m % radix := by
      have hmod : m % (radix * Nat.pow radix count) =
          m % radix + radix * (m / radix % Nat.pow radix count) := Nat.mod_mul
      show n * (Nat.pow radix count * radix) + m % (Nat.pow radix count * radix) = _
      rw [Nat.mul_comm (Nat.pow radix count) radix, hmod, Nat.mul_add, Nat.mul_left_comm]
      omega
    have hradix : 0 < radix := by decide
    have hshorter : n * Nat.pow radix count + m / radix % Nat.pow radix count ≤
        n * Nat.pow radix (count + 1) + m % Nat.pow radix (count + 1) := by
      rw [hsplit]
      exact Nat.le_trans (Nat.le_mul_of_pos_left _ hradix) (Nat.le_add_right _ _)
    rw [digits, decodeFrom_append, ih (Nat.lt_of_le_of_lt hshorter h)]
    show decodeFrom _ [_] = _
    rw [decodeFrom, digit?_ofNat (Nat.mod_lt m hradix)]
    dsimp only
    rw [← hsplit, if_pos h]
    rfl

theorem pow_radix_pos (count : Nat) : 0 < Nat.pow radix count := Nat.pow_pos (by decide)

/-- The greatest number that is written in a field has room there. -/
theorem top_lt_pow (count : Nat) : top count < Nat.pow radix count := by
  have hpos := pow_radix_pos (count % wordBound)
  have hpow : Nat.pow radix (count % wordBound) ≤ Nat.pow radix count :=
    Nat.pow_le_pow_right (by decide) (Nat.mod_le count wordBound)
  unfold top
  omega

/-- The greatest word that is encoded is not the greatest there is. -/
theorem top_lt_word (count : Nat) : top count < wordBound - 1 := by
  have hword : wordBound = 4294967296 := rfl
  unfold top
  omega

/-- **A number is read from its field**, brought down to the greatest that is written there. -/
theorem decode_encode (count n : Nat) : decode (encode count n) = .ok (min n (top count)) := by
  have hroom : min n (top count) < Nat.pow radix count :=
    Nat.lt_of_le_of_lt (Nat.min_le_right _ _) (top_lt_pow count)
  have hlt : min n (top count) < wordBound - 1 :=
    Nat.lt_of_le_of_lt (Nat.min_le_right _ _) (top_lt_word count)
  have hmod : 0 * Nat.pow radix count + min n (top count) % Nat.pow radix count = min n (top count) := by
    rw [Nat.zero_mul, Nat.zero_add, Nat.mod_eq_of_lt hroom]
  have hword : 0 * Nat.pow radix count + min n (top count) % Nat.pow radix count < wordBound := by
    rw [hmod]
    exact Nat.lt_of_lt_of_le hlt (Nat.sub_le _ _)
  unfold decode encode
  rw [decodeFrom_digits hword, hmod]

/-- A number that has room in four digits is read as it was. -/
theorem decode_encode_four {n : Nat} (h : n < Nat.pow radix 4) : decode (encode 4 n) = .ok n := by
  have htop : top 4 = Nat.pow radix 4 - 1 := by decide
  rw [decode_encode, htop, Nat.min_eq_left (by omega)]

/-! ## Numbers that octets write -/

/-- The number that digits write behind a number. -/
def valueFrom (n : Nat) (octets : Bytes) : Nat :=
  octets.foldl (fun n b => 91 * n + (b.toNat - 0x21)) n

/-- The number that digits write. -/
def value (octets : Bytes) : Nat := valueFrom 0 octets

/-- A digit is an octet of the printable row, by its distance from the first. -/
theorem digit?_eq_some_iff {b : UInt8} {d : Nat} :
    digit? b = some d ↔ IsDigit b ∧ d = b.toNat - 0x21 := by
  have hzero : zero = 0x21 := rfl
  have hradix : radix = 91 := rfl
  unfold digit? IsDigit
  rw [hzero, hradix]
  split
  · next hrange =>
    exact ⟨fun h => ⟨by omega, (Option.some.inj h).symm⟩, fun h => congrArg some h.2.symm⟩
  · next hrange => exact ⟨fun h => (nomatch h), fun h => absurd h.1 (by omega)⟩

/-- Digits behind a number make it no smaller. -/
theorem le_valueFrom (n : Nat) (octets : Bytes) : n ≤ valueFrom n octets := by
  induction octets generalizing n with
  | nil => exact Nat.le_refl n
  | cons b rest ih => exact Nat.le_trans (by omega) (ih (91 * n + (b.toNat - 0x21)))

/-- Each digit behind a number multiplies what is beyond it by the radix. -/
theorem valueFrom_lt {octets : Bytes} :
    ∀ {n : Nat}, (∀ b ∈ octets, IsDigit b) →
      valueFrom n octets < (n + 1) * Nat.pow radix octets.length := by
  induction octets with
  | nil =>
    intro n _
    exact Nat.lt_of_lt_of_eq (Nat.lt_succ_self n) (Nat.mul_one _).symm
  | cons b rest ih =>
    intro n h
    obtain ⟨hdigit, hrest⟩ := List.forall_mem_cons.mp h
    have hhigh : 91 * n + (b.toNat - 0x21) + 1 ≤ (n + 1) * 91 := by
      have := hdigit.2
      omega
    refine Nat.lt_of_lt_of_le (ih hrest) ?_
    show _ ≤ (n + 1) * (Nat.pow radix rest.length * 91)
    rw [Nat.mul_comm (Nat.pow radix rest.length), ← Nat.mul_assoc]
    exact Nat.mul_le_mul_right _ hhigh

/-- Octets are read behind a word exactly if they are digits and what they write with it is a word. -/
theorem decodeFrom_eq_ok_iff {octets : Bytes} {m : Nat} :
    ∀ {n : Nat}, n < wordBound →
      (decodeFrom n octets = .ok m ↔
        (∀ b ∈ octets, IsDigit b) ∧ m = valueFrom n octets ∧ m < wordBound) := by
  induction octets with
  | nil =>
    intro n hn
    refine ⟨fun h => ?_, fun ⟨_, hm, _⟩ => congrArg Except.ok hm.symm⟩
    obtain rfl := Except.ok.inj h
    exact ⟨fun b hb => absurd hb List.not_mem_nil, rfl, hn⟩
  | cons b rest ih =>
    intro n _
    rw [decodeFrom, List.forall_mem_cons]
    cases hdigit : digit? b with
    | none =>
      refine ⟨fun h => (nomatch h), fun ⟨⟨hb, _⟩, _⟩ => ?_⟩
      rw [digit?_eq_some_iff.mpr ⟨hb, rfl⟩] at hdigit
      contradiction
    | some d =>
      obtain ⟨hb, rfl⟩ := digit?_eq_some_iff.mp hdigit
      dsimp only
      have hvalue : valueFrom n (b :: rest) = valueFrom (radix * n + (b.toNat - 0x21)) rest := rfl
      split
      · next hword =>
        rw [ih hword, hvalue]
        exact ⟨fun ⟨hrest, hm⟩ => ⟨⟨hb, hrest⟩, hm⟩, fun ⟨⟨_, hrest⟩, hm⟩ => ⟨hrest, hm⟩⟩
      · -- what is too great already does not come back below the bound
        next hlarge =>
        refine ⟨fun h => (nomatch h), fun ⟨_, hm, hword⟩ => ?_⟩
        rw [hm, hvalue] at hword
        exact absurd (Nat.lt_of_le_of_lt (le_valueFrom _ rest) hword) hlarge

/-- **Octets are read exactly if they are digits whose number is a word**, and as that number. -/
theorem decode_eq_ok_iff {octets : Bytes} {n : Nat} :
    decode octets = .ok n ↔ (∀ b ∈ octets, IsDigit b) ∧ n = value octets ∧ n < wordBound :=
  decodeFrom_eq_ok_iff (by decide)

/-- Up to four digits always write a word. -/
theorem decode_short_eq_ok_iff {octets : Bytes} (h : octets.length ≤ 4) {n : Nat} :
    decode octets = .ok n ↔ (∀ b ∈ octets, IsDigit b) ∧ n = value octets := by
  have hpow : Nat.pow radix octets.length ≤ Nat.pow radix 4 := Nat.pow_le_pow_right (by decide) h
  have hfour : Nat.pow radix 4 < wordBound := by decide
  rw [decode_eq_ok_iff]
  refine ⟨fun ⟨hdigits, hn, _⟩ => ⟨hdigits, hn⟩, fun ⟨hdigits, hn⟩ => ⟨hdigits, hn, ?_⟩⟩
  have hlt := valueFrom_lt (n := 0) hdigits
  rw [Nat.zero_add, Nat.one_mul] at hlt
  exact hn ▸ Nat.lt_of_lt_of_le hlt (Nat.le_of_lt (Nat.lt_of_le_of_lt hpow hfour))

end Aprs.Base91
