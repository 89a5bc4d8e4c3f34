import Aprs.Proofs.Base91

/-!
# Base 91 at the limits of a word

Numbers are words in both directions, and a field may be wider than a word needs. Reading goes on while
what has been read is a word, so it overflows exactly if the octets begin with digits of more
(`decode_eq_overflow_iff`). Writing brings a word down to the top of the field, which from five digits on
has nothing to do with the field any more: the power of the radix stops at the greatest word, the top is
one less, and a width that is no word itself has been cut before. So some words are changed that have
room (`Cut`, `top_lt_iff`). All else comes through:

> `reread_word_iff`: a word is read from its field as it was, and digits are written again as they were,
> exactly if the word is not cut; octets are read as what they write, or refused for one that is no digit,
> exactly if they do not overflow.

Specification: 4.3 (Position Decoder).
-/

namespace Aprs.Base91

/-! ## The digits of a number -/

/-- Digits behind those of a number are the last digits of what they write together. -/
theorem digits_valueFrom {octets : Bytes} :
    ∀ {count n : Nat}, (∀ b ∈ octets, IsDigit b) →
      digits (count + octets.length) (valueFrom n octets) = digits count n ++ octets := by
  induction octets with
  | nil => intro count n _; exact (List.append_nil _).symm
  | cons b rest ih =>
    intro count n h
    obtain ⟨hdigit, hrest⟩ := List.forall_mem_cons.mp h
    have hradix : radix = 91 := rfl
    have hlow : b.toNat - 0x21 < radix := by
      have := hdigit.2
      omega
    have hfront : (91 * n + (b.toNat - 0x21)) / radix = n := by
      rw [← hradix, Nat.mul_add_div (by decide), Nat.div_eq_of_lt hlow, Nat.add_zero]
    have hlast : UInt8.ofNat (zero + (91 * n + (b.toNat - 0x21)) % radix) = b := by
      rw [← hradix, Nat.mul_add_mod, Nat.mod_eq_of_lt hlow, show zero = 0x21 from rfl,
        Nat.add_sub_cancel' hdigit.1, UInt8.ofNat_toNat]
    have hmore : digits (count + 1 + rest.length) (valueFrom (91 * n + (b.toNat - 0x21)) rest) =
        digits (count + 1) (91 * n + (b.toNat - 0x21)) ++ rest := ih hrest
    have hwidth : count + (b :: rest).length = count + 1 + rest.length := by
      rw [List.length_cons]
      omega
    rw [hwidth]
    refine hmore.trans ?_
    rw [digits, hfront, hlast, List.append_assoc]
    rfl

/-- **Digits are the last digits of the number that they write.** -/
theorem digits_value {octets : Bytes} (h : ∀ b ∈ octets, IsDigit b) :
    digits octets.length (value octets) = octets := by
  have hdigits : digits (0 + octets.length) (valueFrom 0 octets) = digits 0 0 ++ octets :=
    digits_valueFrom h
  rw [Nat.zero_add] at hdigits
  exact hdigits

/-! ## Words that are changed -/

/-- A word that a field has room for and that is written as another: the greatest of all, and in a field
whose width is no word, what has no room in as many digits as are left of the width. -/
def Cut (count n : Nat) : Prop :=
  5 ≤ count ∧ (n = wordBound - 1 ∨ Nat.pow 91 (count % wordBound) ≤ n)

/-- A word lies beyond the top of a field exactly if it is the greatest or has no room in what is left of
the width. -/
theorem top_lt_iff {count n : Nat} (h : n < wordBound) :
    top count < n ↔ n = wordBound - 1 ∨ Nat.pow 91 (count % wordBound) ≤ n := by
  have hpos := pow_radix_pos (count % wordBound)
  have hradix : Nat.pow radix (count % wordBound) = Nat.pow 91 (count % wordBound) := rfl
  have hword : wordBound = 4294967296 := rfl
  unfold top
  omega

/-- The top of a field of up to four digits is the greatest number that has room. -/
theorem top_of_lt {count : Nat} (h : count < 5) : top count = Nat.pow 91 count - 1 := by
  have hfour : Nat.pow radix count ≤ Nat.pow radix 4 := Nat.pow_le_pow_right (by decide) (by omega)
  have hword : wordBound = 4294967296 := rfl
  have hpow : Nat.pow radix 4 = 68574961 := rfl
  have hradix : Nat.pow radix count = Nat.pow 91 count := rfl
  unfold top
  rw [Nat.mod_eq_of_lt (show count < wordBound by omega)]
  omega

/-- Every word has room in five digits or more. -/
theorem lt_pow_of_le {count n : Nat} (hcount : 5 ≤ count) (h : n < wordBound) :
    n < Nat.pow 91 count := by
  have hfive : Nat.pow 91 5 ≤ Nat.pow 91 count := Nat.pow_le_pow_right (by decide) hcount
  have hword : wordBound ≤ Nat.pow 91 5 := by decide
  omega

/-- What has room in a field lies beyond its top exactly if it is cut. -/
theorem le_top_iff {count n : Nat} (h : n < wordBound) (hroom : n < Nat.pow 91 count) :
    n ≤ top count ↔ ¬Cut count n := by
  rw [← Nat.not_lt]
  unfold Cut
  by_cases hcount : 5 ≤ count
  · rw [top_lt_iff h, and_iff_right hcount]
  · have htop := top_of_lt (Nat.lt_of_not_le hcount)
    exact iff_of_true (by omega) fun hcut => hcount hcut.1

/-- **A word is read from its field, brought down to the greatest number that has room, exactly if it is
not cut.** -/
theorem decode_encode_eq_iff {count n : Nat} (h : n < wordBound) :
    decode (encode count n) = .ok (min n (Nat.pow 91 count - 1)) ↔ ¬Cut count n := by
  rw [decode_encode, Except.ok.injEq]
  by_cases hcount : 5 ≤ count
  · have hroom := lt_pow_of_le hcount h
    rw [← le_top_iff h hroom]
    omega
  · rw [top_of_lt (Nat.lt_of_not_le hcount)]
    exact iff_of_true rfl fun hcut => hcount hcut.1

/-- **Digits of a word are written again as they were exactly if the word is not cut.** -/
theorem encode_value_eq_iff {octets : Bytes} (h : ∀ b ∈ octets, IsDigit b)
    (hword : value octets < wordBound) :
    encode octets.length (value octets) = octets ↔ ¬Cut octets.length (value octets) := by
  have hroom : value octets < Nat.pow 91 octets.length := by
    have hlt := valueFrom_lt (n := 0) h
    rw [Nat.zero_add, Nat.one_mul] at hlt
    exact hlt
  rw [← le_top_iff hword hroom]
  constructor
  · -- what is written again is read again, brought down to the top
    intro hsame
    have hread := decode_encode octets.length (value octets)
    rw [hsame, decode_eq_ok_iff.mpr ⟨h, rfl, hword⟩] at hread
    have hmin := Except.ok.inj hread
    omega
  · intro hle
    unfold encode
    rw [Nat.min_eq_left hle, digits_value h]

/-! ## Octets that write no word -/

/-- Octets that begin with digits of a number beyond the words. -/
def Overflows (octets : Bytes) : Prop :=
  ∃ front, front <+: octets ∧ (∀ b ∈ front, IsDigit b) ∧ wordBound ≤ value front

/-- Behind a word, reading overflows exactly if digits come first that write too much with it. -/
theorem decodeFrom_eq_overflow_iff {octets : Bytes} :
    ∀ {n : Nat}, n < wordBound →
      (decodeFrom n octets = .error .overflow ↔
        ∃ front, front <+: octets ∧ (∀ b ∈ front, IsDigit b) ∧ wordBound ≤ valueFrom n front) := by
  induction octets with
  | nil =>
    intro n hn
    refine iff_of_false (fun hread => ?_) fun hover => ?_
    · rw [decodeFrom] at hread
      contradiction
    · obtain ⟨front, hfront, -, hlarge⟩ := hover
      rw [List.prefix_nil.mp hfront] at hlarge
      exact Nat.not_le_of_lt hn hlarge
  | cons b rest ih =>
    intro n hn
    -- no digits at all write no more than the word itself, so the octets that overflow begin with `b`
    have hcons : (∃ front, front <+: b :: rest ∧ (∀ b ∈ front, IsDigit b) ∧
          wordBound ≤ valueFrom n front) ↔
        IsDigit b ∧ ∃ front, front <+: rest ∧ (∀ b ∈ front, IsDigit b) ∧
          wordBound ≤ valueFrom (91 * n + (b.toNat - 0x21)) front := by
      constructor
      · intro hover
        obtain ⟨front, hfront, hdigits, hlarge⟩ := hover
        cases front with
        | nil => exact absurd hlarge (Nat.not_le_of_lt hn)
        | cons c front =>
          obtain ⟨rfl, hrest⟩ := List.cons_prefix_cons.mp hfront
          obtain ⟨hdigit, hmore⟩ := List.forall_mem_cons.mp hdigits
          exact ⟨hdigit, front, hrest, hmore, hlarge⟩
      · intro hover
        obtain ⟨hdigit, front, hfront, hdigits, hlarge⟩ := hover
        exact ⟨b :: front, List.cons_prefix_cons.mpr ⟨rfl, hfront⟩,
          List.forall_mem_cons.mpr ⟨hdigit, hdigits⟩, hlarge⟩
    rw [hcons, decodeFrom]
    cases hdigit : digit? b with
    | none =>
      refine iff_of_false (fun hread => ?_) fun hover => ?_
      · have hcause := Except.error.inj hread
        contradiction
      · rw [digit?_eq_some_iff.mpr ⟨hover.1, rfl⟩] at hdigit
        contradiction
    | some d =>
      obtain ⟨hb, rfl⟩ := digit?_eq_some_iff.mp hdigit
      dsimp only
      rw [and_iff_right hb]
      split
      · next hword => exact ih hword
      · next hlarge =>
        exact iff_of_true rfl ⟨[], List.nil_prefix, fun c hc => absurd hc List.not_mem_nil,
          Nat.le_of_not_lt hlarge⟩

theorem decode_eq_overflow_iff {octets : Bytes} :
    decode octets = .error .overflow ↔ Overflows octets :=
  decodeFrom_eq_overflow_iff (by decide)

/-- Octets are read as the number that they write, and refused exactly for an octet that is no digit. -/
structure Told (octets : Bytes) : Prop where
  no_overflow : decode octets ≠ .error .overflow
  refused : decode octets = .error .notADigit ↔ ∃ b ∈ octets, ¬IsDigit b
  read : (∀ b ∈ octets, IsDigit b) → decode octets = .ok (value octets)

/-- **Octets are told exactly if they do not overflow.** -/
theorem told_iff {octets : Bytes} : Told octets ↔ ¬Overflows octets := by
  constructor
  · intro h hover
    exact h.no_overflow (decode_eq_overflow_iff.mpr hover)
  · intro hover
    have hread (h : ∀ b ∈ octets, IsDigit b) : decode octets = .ok (value octets) := by
      refine decode_eq_ok_iff.mpr ⟨h, rfl, ?_⟩
      exact Nat.lt_of_not_le fun hlarge => hover ⟨octets, List.prefix_refl octets, h, hlarge⟩
    refine ⟨fun h => hover (decode_eq_overflow_iff.mp h), ⟨fun h => ?_, fun hother => ?_⟩, hread⟩
    · refine Classical.byContradiction fun hall => ?_
      have hdigits : ∀ b ∈ octets, IsDigit b :=
        fun b hb => Classical.byContradiction fun hnot => hall ⟨b, hb, hnot⟩
      rw [hread hdigits] at h
      contradiction
    · obtain ⟨b, hb, hnot⟩ := hother
      cases hdecode : decode octets with
      | ok n => exact absurd ((decode_eq_ok_iff.mp hdecode).1 b hb) hnot
      | error cause =>
        cases cause with
        | notADigit => rfl
        | overflow => exact absurd (decode_eq_overflow_iff.mp hdecode) hover

/-! ## Both directions -/

/-- **A word comes through its field, and digits of a word through the word, exactly if it is not cut.**
A word is written in as many digits as the field has, and read from it as it was or as the greatest number
that has room; octets that do not overflow are read as what they write, or refused for one that is no
digit; and digits that write a word are read and written again as they were. -/
theorem reread_word_iff {n : Nat} (h : n < wordBound) (count : Nat) (octets : Bytes) :
    ((encode count n).length = count ∧ ∀ b ∈ encode count n, IsDigit b) ∧
      (decode (encode count n) = .ok (min n (Nat.pow 91 count - 1)) ↔ ¬Cut count n) ∧
      (Told octets ↔ ¬Overflows octets) ∧
      (octets.length = count → (∀ b ∈ octets, IsDigit b) → value octets < wordBound →
        ((∃ m, decode octets = .ok m ∧ encode count m = octets) ↔ ¬Cut count (value octets))) := by
  refine ⟨⟨length_digits count _, fun b hb => isDigit_of_mem_digits hb⟩, decode_encode_eq_iff h,
    told_iff, ?_⟩
  intro hcount hdigits hword
  subst hcount
  have hread : decode octets = .ok (value octets) := decode_eq_ok_iff.mpr ⟨hdigits, rfl, hword⟩
  rw [← encode_value_eq_iff hdigits hword, hread]
  constructor
  · intro hwritten
    obtain ⟨m, hm, hsame⟩ := hwritten
    rw [Except.ok.inj hm]
    exact hsame
  · intro hsame
    exact ⟨value octets, rfl, hsame⟩

/-- The greatest word but one comes through five digits, and so do its digits. -/
theorem reread_word_below_greatest :
    decode (encode 5 0xFFFFFFFE) = .ok 0xFFFFFFFE ∧
      ∃ m, decode [0x5F, 0x5A, 0x4D, 0x34, 0x69] = .ok m ∧
        encode 5 m = [0x5F, 0x5A, 0x4D, 0x34, 0x69] := by
  have hall := reread_word_iff (n := 0xFFFFFFFE) (by decide) 5 [0x5F, 0x5A, 0x4D, 0x34, 0x69]
  have hkept : ¬Cut 5 0xFFFFFFFE := by unfold Cut; decide
  have hdigits : ∀ b ∈ digits 5 0xFFFFFFFE, IsDigit b := fun b hb => isDigit_of_mem_digits hb
  exact ⟨hall.2.1.mpr hkept, (hall.2.2.2 rfl hdigits (by decide)).mpr hkept⟩

/-- The greatest word does not come through five digits, its digits do not come through it, and five
digits may overflow. -/
theorem reread_word_cut :
    decode (encode 5 0xFFFFFFFF) ≠ .ok (min 0xFFFFFFFF (Nat.pow 91 5 - 1)) ∧
      (decode [0x5F, 0x5A, 0x4D, 0x34, 0x6A] = .ok 0xFFFFFFFF ∧
        encode 5 0xFFFFFFFF ≠ [0x5F, 0x5A, 0x4D, 0x34, 0x6A]) ∧
      ((∀ b ∈ List.replicate 5 0x7B, IsDigit b) ∧
        decode (List.replicate 5 0x7B) = .error .overflow) := by
  refine ⟨fun hsame => ?_, ⟨rfl, by decide⟩, fun b hb => ?_, rfl⟩
  · exact absurd (Except.ok.inj ((decode_encode 5 0xFFFFFFFF).symm.trans hsame)) (by decide)
  · rw [List.eq_of_mem_replicate hb]
    exact isDigit_ofNat (show 90 < radix by decide)

end Aprs.Base91
