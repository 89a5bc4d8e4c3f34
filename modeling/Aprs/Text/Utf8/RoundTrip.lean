import Aprs.Text.Utf8

/-!
# UTF-8: what was written is read

`encode` writes each character in one to four octets. Reading takes exactly these octets back to the
character, whatever follows:

> `scan_encodeChar`: the octets of a character are read as that character.

Folded over a text this gives both directions of use, the lenient reading (`lossy_encode`) and the
strict one (`decode?_encode`).
-/

namespace Aprs.Utf8

/-! ## One octet -/

private theorem toNat_ofNat {n : Nat} (h : n < 256) : (UInt8.ofNat n).toNat = n := by
  rw [UInt8.toNat_ofNat', Nat.mod_eq_of_lt (by simpa using h)]

theorem first_ofNat_ascii {n : Nat} (h : n < 0x80) :
    first (UInt8.ofNat n) = .completes (Char.ofNat n) := by
  unfold first
  rw [toNat_ofNat (by omega)]
  exact if_pos h

theorem first_ofNat_two {n : Nat} (low : 2 ≤ n) (high : n < 0x20) :
    first (UInt8.ofNat (n + 0xC0)) = .awaits ⟨n, 1, 0x80, 0xBF⟩ := by
  unfold first
  rw [toNat_ofNat (by omega)]
  dsimp only
  rw [if_neg (by omega), if_neg (by omega), if_pos (by omega), Nat.add_sub_cancel]

/-- An octet that begins three; the first and the surrogates' leave less room for the second. -/
theorem first_ofNat_three {n : Nat} (high : n < 0x10) :
    first (UInt8.ofNat (n + 0xE0)) =
      .awaits ⟨n, 2, if n = 0 then 0xA0 else 0x80, if n = 0xD then 0x9F else 0xBF⟩ := by
  -- the second octet has bounds of its own behind 0xE0 and 0xED
  have hlow : (n + 0xE0 = 0xE0) = (n = 0) := propext ⟨by omega, by omega⟩
  have hhigh : (n + 0xE0 = 0xED) = (n = 0xD) := propext ⟨by omega, by omega⟩
  unfold first
  rw [toNat_ofNat (by omega)]
  dsimp only
  rw [if_neg (by omega), if_neg (by omega), if_neg (by omega), if_pos (by omega),
    Nat.add_sub_cancel]
  simp only [hlow, hhigh]

/-- An octet that begins four; the first and the last leave less room for the second. -/
theorem first_ofNat_four {n : Nat} (high : n < 5) :
    first (UInt8.ofNat (n + 0xF0)) =
      .awaits ⟨n, 3, if n = 0 then 0x90 else 0x80, if n = 4 then 0x8F else 0xBF⟩ := by
  -- and so it does behind 0xF0 and 0xF4
  have hlow : (n + 0xF0 = 0xF0) = (n = 0) := propext ⟨by omega, by omega⟩
  have hhigh : (n + 0xF0 = 0xF4) = (n = 4) := propext ⟨by omega, by omega⟩
  unfold first
  rw [toNat_ofNat (by omega)]
  dsimp only
  rw [if_neg (by omega), if_neg (by omega), if_neg (by omega), if_neg (by omega),
    if_pos (by omega), Nat.add_sub_cancel]
  simp only [hlow, hhigh]

/-- An octet in the interval that is waited for brings six bits. -/
theorem next_ofNat {p : Pending} {n : Nat} (hn : n < 0x40) (low : p.low ≤ n + 0x80)
    (high : n + 0x80 ≤ p.high) :
    p.next (UInt8.ofNat (n + 0x80)) =
      if p.missing ≤ 1 then .completes (Char.ofNat (p.bits * 64 + n))
      else .awaits ⟨p.bits * 64 + n, p.missing - 1, 0x80, 0xBF⟩ := by
  unfold Pending.next
  rw [toNat_ofNat (by omega)]
  dsimp only
  rw [if_pos ⟨low, high⟩, Nat.add_sub_cancel]

/-! ## Steps of the reading -/

theorem scan_cons (state : Option Pending) (b : UInt8) (rest : Bytes) :
    scan state (b :: rest) = (step state b).1 ++ scan (step state b).2 rest := by
  cases state <;> rfl

theorem scan_of_first_completes {b : UInt8} {c : Char} (h : first b = .completes c)
    (rest : Bytes) : scan none (b :: rest) = some c :: scan none rest := by
  simp [scan_cons, step, opening, h]

theorem scan_of_first_awaits {b : UInt8} {p : Pending} (h : first b = .awaits p) (rest : Bytes) :
    scan none (b :: rest) = scan (some p) rest := by
  simp [scan_cons, step, opening, h]

theorem scan_of_next_completes {p : Pending} {b : UInt8} {c : Char} (h : p.next b = .completes c)
    (rest : Bytes) : scan (some p) (b :: rest) = some c :: scan none rest := by
  simp [scan_cons, step, h]

theorem scan_of_next_awaits {p q : Pending} {b : UInt8} (h : p.next b = .awaits q) (rest : Bytes) :
    scan (some p) (b :: rest) = scan (some q) rest := by
  simp [scan_cons, step, h]

/-- The last octet of a character. -/
private theorem scan_last {bits low n : Nat} (hn : n < 0x40) (hlow : low ≤ n + 0x80)
    (rest : Bytes) :
    scan (some ⟨bits, 1, low, 0xBF⟩) (UInt8.ofNat (n + 0x80) :: rest) =
      some (Char.ofNat (bits * 64 + n)) :: scan none rest :=
  scan_of_next_completes (next_ofNat hn hlow (show n + 0x80 ≤ 0xBF by omega)) rest

/-- An octet in the middle of a character. -/
private theorem scan_middle {bits missing low high n : Nat} (hn : n < 0x40)
    (hlow : low ≤ n + 0x80) (hhigh : n + 0x80 ≤ high) (rest : Bytes) :
    scan (some ⟨bits, missing + 2, low, high⟩) (UInt8.ofNat (n + 0x80) :: rest) =
      scan (some ⟨bits * 64 + n, missing + 1, 0x80, 0xBF⟩) rest :=
  scan_of_next_awaits (next_ofNat hn hlow hhigh) rest

/-! ## A character and a text -/

/-- **The octets of a character are read as that character.** -/
theorem scan_encodeChar (c : Char) (rest : Bytes) :
    scan none (String.utf8EncodeChar c ++ rest) = some c :: scan none rest := by
  have hvalid : c.val.toNat < 0xD800 ∨ 0xDFFF < c.val.toNat ∧ c.val.toNat < 0x110000 := c.valid
  have hchar : Char.ofNat c.val.toNat = c := Char.ofNat_toNat c
  unfold String.utf8EncodeChar
  -- one to four octets, as the value of the character is below 0x80, 0x800, 0x10000 or none of them
  generalize c.val.toNat = v at hvalid hchar
  dsimp only
  split
  · rw [List.singleton_append, scan_of_first_completes (first_ofNat_ascii (by omega)), hchar]
  split
  · have hbits : v / 64 % 0x20 * 64 + v % 0x40 = v := by omega
    simp only [List.cons_append, List.nil_append]
    rw [scan_of_first_awaits (first_ofNat_two (by omega) (by omega)),
      scan_last (by omega) (by omega), hbits, hchar]
  split
  · have hbits : (v / 4096 % 0x10 * 64 + v / 64 % 0x40) * 64 + v % 0x40 = v := by omega
    simp only [List.cons_append, List.nil_append]
    rw [scan_of_first_awaits (first_ofNat_three (by omega)),
      scan_middle (by omega) (by split <;> omega) (by split <;> omega),
      scan_last (by omega) (by omega), hbits, hchar]
  · have hbits :
        ((v / 262144 % 8 * 64 + v / 4096 % 0x40) * 64 + v / 64 % 0x40) * 64 + v % 0x40 = v := by
      omega
    simp only [List.cons_append, List.nil_append]
    rw [scan_of_first_awaits (first_ofNat_four (by omega)),
      scan_middle (by omega) (by split <;> omega) (by split <;> omega),
      scan_middle (by omega) (by omega) (by omega), scan_last (by omega) (by omega), hbits, hchar]

theorem encode_append (s t : Text) : encode (s ++ t) = encode s ++ encode t :=
  List.flatMap_append

/-- The octets of a text are read as its characters, whatever follows. -/
theorem scan_encode_append (t : Text) (rest : Bytes) :
    scan none (encode t ++ rest) = t.map some ++ scan none rest := by
  induction t with
  | nil => rfl
  | cons c t ih =>
    rw [encode, List.flatMap_cons, List.append_assoc, scan_encodeChar, ← encode, ih]
    rfl

/-- **The octets of a text are scanned as its characters**, by induction on the text. -/
theorem scan_encode (t : Text) : scan none (encode t) = t.map some := by
  have h := scan_encode_append t []
  rw [List.append_nil] at h
  rw [h]
  exact List.append_nil _

private theorem map_getD_some (t : Text) :
    (t.map some).map (fun entry => entry.getD replacement) = t := by
  rw [List.map_map]
  exact List.map_id t

/-- **Leniently, a text is read from its octets as it was**, and what follows it does not change
that. -/
theorem lossy_encode_append (t : Text) (rest : Bytes) :
    lossy (encode t ++ rest) = t ++ lossy rest := by
  rw [lossy, scan_encode_append, List.map_append, map_getD_some]
  rfl

/-- The lenient reading gives back what was written. -/
theorem lossy_encode (t : Text) : lossy (encode t) = t := by
  rw [lossy, scan_encode, map_getD_some]

/-- **Strictly, a text is read from its octets as it was.** -/
theorem decode?_encode (t : Text) : decode? (encode t) = some t := by
  rw [decode?, scan_encode]
  induction t with
  | nil => rfl
  | cons c t ih => simp [ih]

end Aprs.Utf8
