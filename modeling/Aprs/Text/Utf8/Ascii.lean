import Aprs.Text.Utf8

/-!
# ASCII in UTF-8

A character of ASCII takes one octet, its code point, and only such characters take octets below
`0x80`. A text is therefore told to be ASCII by its octets as well as by its characters.
-/

namespace Aprs.Utf8

variable {t : Text}

/-- A character of ASCII is one octet. -/
theorem encodeChar_ascii {c : Char} (h : c.toNat < 0x80) :
    String.utf8EncodeChar c = [UInt8.ofNat c.toNat] := by
  unfold String.utf8EncodeChar
  exact if_pos (Nat.le_of_lt_succ h)

theorem encode_cons_ascii {c : Char} (h : c.toNat < 0x80) (t : Text) :
    encode (c :: t) = UInt8.ofNat c.toNat :: encode t := by
  rw [encode, List.flatMap_cons, encodeChar_ascii h, ← encode]
  rfl

/-- A character of ASCII is the one with the code point of its octet. -/
theorem charOfByte_ofNat {c : Char} (h : c.toNat < 0x80) : charOfByte (UInt8.ofNat c.toNat) = c := by
  unfold charOfByte
  rw [UInt8.toNat_ofNat_of_lt' (Nat.lt_trans h (by decide)), Char.ofNat_toNat]

/-- The octets of a text of ASCII are its code points. -/
theorem encode_ascii (h : ∀ c ∈ t, c.toNat < 0x80) :
    encode t = t.map fun c => UInt8.ofNat c.toNat := by
  induction t with
  | nil => rfl
  | cons c rest ih =>
    obtain ⟨hc, hrest⟩ := List.forall_mem_cons.mp h
    rw [encode_cons_ascii hc, ih hrest]
    rfl

theorem toNat_charOfByte (b : UInt8) : (charOfByte b).toNat = b.toNat := by
  have hvalid : b.toNat.isValidChar := Or.inl (Nat.lt_trans b.toNat_lt (by decide))
  unfold charOfByte Char.ofNat
  rw [dif_pos hvalid]
  rfl

theorem eq_ofNat_of_charOfByte {b : UInt8} {c : Char} (h : charOfByte b = c) :
    b = UInt8.ofNat c.toNat := by
  rw [← h, toNat_charOfByte, UInt8.ofNat_toNat]

/-- Octets of ASCII are those of the characters with their code points. -/
theorem encode_map_charOfByte {bytes : Bytes} (h : ∀ b ∈ bytes, b.toNat < 0x80) :
    encode (bytes.map charOfByte) = bytes := by
  induction bytes with
  | nil => rfl
  | cons b rest ih =>
    obtain ⟨hb, hrest⟩ := List.forall_mem_cons.mp h
    have hcode := toNat_charOfByte b
    rw [List.map_cons, encode_cons_ascii (hcode ▸ hb), ih hrest, hcode, UInt8.ofNat_toNat]

theorem encodeChar_ne_nil (c : Char) : String.utf8EncodeChar c ≠ [] :=
  List.ne_nil_of_length_pos (String.length_utf8EncodeChar c ▸ c.utf8Size_pos)

/-- The octets of a character beyond ASCII are beyond it. -/
theorem octets_of_not_ascii {c : Char} (h : 0x80 ≤ c.toNat) :
    ∀ b ∈ String.utf8EncodeChar c, 0x80 ≤ b.toNat := by
  have hv : 0x80 ≤ c.val.toNat := h
  have hoctet {n : Nat} (hlow : 0x80 ≤ n) (hhigh : n < 0x100) : 0x80 ≤ (UInt8.ofNat n).toNat := by
    rw [UInt8.toNat_ofNat_of_lt' (by exact hhigh)]
    exact hlow
  unfold String.utf8EncodeChar
  generalize c.val.toNat = v at hv
  dsimp only
  rw [if_neg (by omega)]
  -- two, three or four octets
  split
  · simp only [List.forall_mem_cons]
    exact ⟨hoctet (by omega) (by omega), hoctet (by omega) (by omega), nofun⟩
  split
  · simp only [List.forall_mem_cons]
    exact ⟨hoctet (by omega) (by omega), hoctet (by omega) (by omega), hoctet (by omega) (by omega),
      nofun⟩
  · simp only [List.forall_mem_cons]
    exact ⟨hoctet (by omega) (by omega), hoctet (by omega) (by omega), hoctet (by omega) (by omega),
      hoctet (by omega) (by omega), nofun⟩

/-- Among the octets of a text, those of ASCII are its characters of ASCII. -/
theorem ofNat_mem_encode_iff {c : Char} (h : c.toNat < 0x80) :
    UInt8.ofNat c.toNat ∈ encode t ↔ c ∈ t := by
  have hcode : (UInt8.ofNat c.toNat).toNat = c.toNat :=
    UInt8.toNat_ofNat_of_lt' (Nat.lt_trans h (by decide))
  constructor
  · intro hmem
    obtain ⟨d, hd, hoctet⟩ := List.mem_flatMap.mp hmem
    rcases Nat.lt_or_ge d.toNat 0x80 with hascii | hbeyond
    · rw [encodeChar_ascii hascii, List.mem_singleton] at hoctet
      rw [← charOfByte_ofNat h, hoctet, charOfByte_ofNat hascii]
      exact hd
    · have hhigh := octets_of_not_ascii hbeyond _ hoctet
      omega
  · intro hmem
    refine List.mem_flatMap.mpr ⟨c, hmem, ?_⟩
    rw [encodeChar_ascii h]
    exact List.mem_cons_self

/-- A text whose octets are ASCII is ASCII. -/
theorem ascii_of_encode (h : ∀ b ∈ encode t, b.toNat < 0x80) : ∀ c ∈ t, c.toNat < 0x80 := by
  intro c hc
  rcases Nat.lt_or_ge c.toNat 0x80 with hlt | hge
  · exact hlt
  · have hb := List.head_mem (encodeChar_ne_nil c)
    have hhigh := octets_of_not_ascii hge _ hb
    exact absurd (h _ (List.mem_flatMap.mpr ⟨c, hc, hb⟩)) (Nat.not_lt.mpr hhigh)

/-- What holds of all octets of ASCII text holds of its code points, and the other way round. -/
theorem forall_octets_iff {low high : Nat} (hhigh : high < 0x80) :
    (∀ b ∈ encode t, low ≤ b.toNat ∧ b.toNat ≤ high) ↔
      ∀ c ∈ t, low ≤ c.toNat ∧ c.toNat ≤ high := by
  have hoctet {n : Nat} (hn : n < 0x80) : (UInt8.ofNat n).toNat = n :=
    UInt8.toNat_ofNat_of_lt' (Nat.lt_trans hn (by decide))
  constructor
  · intro h c hc
    have hascii := ascii_of_encode fun b hb => Nat.lt_of_le_of_lt (h b hb).2 hhigh
    rw [encode_ascii hascii] at h
    have hb := h _ (List.mem_map_of_mem hc)
    rw [hoctet (hascii c hc)] at hb
    exact hb
  · intro h b hb
    have hascii (c : Char) (hc : c ∈ t) : c.toNat < 0x80 :=
      Nat.lt_of_le_of_lt (h c hc).2 hhigh
    rw [encode_ascii hascii] at hb
    obtain ⟨c, hc, rfl⟩ := List.mem_map.mp hb
    rw [hoctet (hascii c hc)]
    exact h c hc

/-! ## Lengths -/

/-- A text of ASCII has as many octets as characters. -/
theorem length_encode_ascii (h : ∀ c ∈ t, c.toNat < 0x80) : (encode t).length = t.length := by
  rw [encode_ascii h, List.length_map]

/-- A text takes an octet for each character at least. -/
theorem length_le_length_encode (t : Text) : t.length ≤ (encode t).length := by
  induction t with
  | nil => exact Nat.le_refl 0
  | cons c t ih =>
    have hsize := size_cons c t
    have hpos := Char.utf8Size_pos c
    unfold size at hsize
    rw [hsize, List.length_cons]
    omega

/-- Only a text of ASCII has as many octets as characters. -/
theorem length_encode_eq_iff : (encode t).length = t.length ↔ ∀ c ∈ t, c.toNat < 0x80 := by
  refine ⟨fun h => ?_, length_encode_ascii⟩
  induction t with
  | nil => exact List.forall_mem_nil _
  | cons c t ih =>
    have hsize := size_cons c t
    have hrest := length_le_length_encode t
    unfold size at hsize
    rw [hsize, List.length_cons] at h
    have hone : c.utf8Size = 1 := by
      have hpos := Char.utf8Size_pos c
      omega
    have hvalue : c.val ≤ 0x7F := Char.utf8Size_eq_one_iff.mp hone
    exact List.forall_mem_cons.mpr
      ⟨Nat.lt_succ_of_le (UInt32.le_iff_toNat_le.mp hvalue), ih (by omega)⟩

end Aprs.Utf8
