import Aprs.Text.Utf8.Ascii
import Aprs.Text.Utf8.RoundTrip

/-!
# The first character of octets

Octets begin with a character exactly if its octets are the first ones:

> `uncons?_eq_some_iff`: the character that is read has been written there, and one that has been written
> there is read, whatever follows.

Two texts of as many characters that begin the same octets are therefore the same text
(`encode_append_inj`), and a character that is found in octets, however ill formed these are, is written
somewhere among them (`infix_of_mem_lossy`). Where the octets of a text are cut within a character, one mark
stands for what is left of it (`lossy_take_partial`).
-/

namespace Aprs.Utf8

/-! ## Octets of a character -/

/-- A number that is no surrogate and not too great is that of its character. -/
theorem val_ofNat {n : Nat} (h : n < 0xD800 ∨ 0xDFFF < n ∧ n < 0x110000) :
    (Char.ofNat n).val.toNat = n := by
  have hvalid : n.isValidChar := h
  unfold Char.ofNat
  rw [dif_pos hvalid]
  rfl

theorem encodeChar_ofNat_two {n : Nat} (hlow : 0x80 ≤ n) (hhigh : n < 0x800) :
    String.utf8EncodeChar (Char.ofNat n) =
      [UInt8.ofNat (n / 64 + 0xC0), UInt8.ofNat (n % 64 + 0x80)] := by
  unfold String.utf8EncodeChar
  rw [val_ofNat (by omega)]
  dsimp only
  rw [if_neg (by omega), if_pos (by omega), show n / 64 % 0x20 = n / 64 by omega]

theorem encodeChar_ofNat_three {n : Nat} (hlow : 0x800 ≤ n) (hhigh : n < 0x10000)
    (hvalid : n < 0xD800 ∨ 0xDFFF < n) :
    String.utf8EncodeChar (Char.ofNat n) =
      [UInt8.ofNat (n / 4096 + 0xE0), UInt8.ofNat (n / 64 % 64 + 0x80), UInt8.ofNat (n % 64 + 0x80)] := by
  unfold String.utf8EncodeChar
  rw [val_ofNat (by omega)]
  dsimp only
  rw [if_neg (by omega), if_neg (by omega), if_pos (by omega), show n / 4096 % 0x10 = n / 4096 by omega]

theorem encodeChar_ofNat_four {n : Nat} (hlow : 0x10000 ≤ n) (hhigh : n < 0x110000) :
    String.utf8EncodeChar (Char.ofNat n) =
      [UInt8.ofNat (n / 262144 + 0xF0), UInt8.ofNat (n / 4096 % 64 + 0x80),
        UInt8.ofNat (n / 64 % 64 + 0x80), UInt8.ofNat (n % 64 + 0x80)] := by
  unfold String.utf8EncodeChar
  rw [val_ofNat (by omega)]
  dsimp only
  rw [if_neg (by omega), if_neg (by omega), if_neg (by omega), show n / 262144 % 8 = n / 262144 by omega]

/-! ## One step of the reading -/

variable {bytes rest : Bytes} {c : Char}

/-- The last octet of a character is in the interval that is waited for. -/
theorem firstFrom_last {bits low high : Nat}
    (h : firstFrom (some ⟨bits, 1, low, high⟩) bytes = some (c, rest)) :
    ∃ b, bytes = b :: rest ∧ low ≤ b.toNat ∧ b.toNat ≤ high ∧
      c = Char.ofNat (bits * 64 + (b.toNat - 0x80)) := by
  cases bytes with
  | nil => simp [firstFrom] at h
  | cons b more =>
    simp only [firstFrom, effect, Pending.next] at h
    by_cases hrange : low ≤ b.toNat ∧ b.toNat ≤ high
    · rw [if_pos hrange, if_pos (Nat.le_refl 1)] at h
      obtain ⟨rfl, rfl⟩ := Prod.mk.inj (Option.some.inj h)
      exact ⟨b, rfl, hrange.1, hrange.2, rfl⟩
    · rw [if_neg hrange] at h
      contradiction

/-- So is an octet in the middle of a character, behind which another one is waited for. -/
theorem firstFrom_middle {bits missing low high : Nat}
    (h : firstFrom (some ⟨bits, missing + 2, low, high⟩) bytes = some (c, rest)) :
    ∃ b more, bytes = b :: more ∧ low ≤ b.toNat ∧ b.toNat ≤ high ∧
      firstFrom (some ⟨bits * 64 + (b.toNat - 0x80), missing + 1, 0x80, 0xBF⟩) more = some (c, rest) := by
  cases bytes with
  | nil => simp [firstFrom] at h
  | cons b more =>
    simp only [firstFrom, effect, Pending.next] at h
    by_cases hrange : low ≤ b.toNat ∧ b.toNat ≤ high
    · rw [if_pos hrange, if_neg (by omega)] at h
      exact ⟨b, more, rfl, hrange.1, hrange.2, h⟩
    · rw [if_neg hrange] at h
      contradiction

/-! ## The first character -/

/-- An octet is the one that has its number. -/
theorem eq_ofNat {b : UInt8} {n : Nat} (h : b.toNat = n) : b = UInt8.ofNat n := by
  rw [← h, UInt8.ofNat_toNat]

/-- **The octets that were read are those of the character.** -/
theorem bytes_eq_of_uncons? (h : uncons? bytes = some (c, rest)) :
    bytes = String.utf8EncodeChar c ++ rest := by
  unfold uncons? at h
  cases bytes with
  | nil => simp [firstFrom] at h
  | cons b more =>
    simp only [firstFrom, effect, first] at h
    by_cases hone : b.toNat < 0x80
    · rw [if_pos hone] at h
      obtain ⟨rfl, rfl⟩ := Prod.mk.inj (Option.some.inj h)
      have hcode := toNat_charOfByte b
      show b :: more = String.utf8EncodeChar (charOfByte b) ++ more
      rw [encodeChar_ascii (hcode ▸ hone), hcode, UInt8.ofNat_toNat]
      rfl
    rw [if_neg hone] at h
    by_cases hstray : b.toNat < 0xC2
    · rw [if_pos hstray] at h
      contradiction
    rw [if_neg hstray] at h
    by_cases htwo : b.toNat < 0xE0
    · rw [if_pos htwo] at h
      obtain ⟨b₂, rfl, hlow, hhigh, hc⟩ := firstFrom_last h
      rw [hc, encodeChar_ofNat_two (by omega) (by omega), ← eq_ofNat (show b.toNat = _ by omega),
        ← eq_ofNat (show b₂.toNat = _ by omega)]
      rfl
    rw [if_neg htwo] at h
    by_cases hthree : b.toNat < 0xF0
    · rw [if_pos hthree] at h
      obtain ⟨b₂, more, rfl, hlow₂, hhigh₂, h⟩ := firstFrom_middle h
      obtain ⟨b₃, rfl, hlow₃, hhigh₃, hc⟩ := firstFrom_last h
      split at hlow₂ <;> split at hhigh₂ <;>
        rw [hc, encodeChar_ofNat_three (by omega) (by omega) (by omega),
          ← eq_ofNat (show b.toNat = _ by omega), ← eq_ofNat (show b₂.toNat = _ by omega),
          ← eq_ofNat (show b₃.toNat = _ by omega)] <;>
        rfl
    rw [if_neg hthree] at h
    by_cases hfour : b.toNat < 0xF5
    · rw [if_pos hfour] at h
      obtain ⟨b₂, more, rfl, hlow₂, hhigh₂, h⟩ := firstFrom_middle h
      obtain ⟨b₃, more, rfl, hlow₃, hhigh₃, h⟩ := firstFrom_middle h
      obtain ⟨b₄, rfl, hlow₄, hhigh₄, hc⟩ := firstFrom_last h
      split at hlow₂ <;> split at hhigh₂ <;>
        rw [hc, encodeChar_ofNat_four (by omega) (by omega), ← eq_ofNat (show b.toNat = _ by omega),
          ← eq_ofNat (show b₂.toNat = _ by omega), ← eq_ofNat (show b₃.toNat = _ by omega),
          ← eq_ofNat (show b₄.toNat = _ by omega)] <;>
        rfl
    · rw [if_neg hfour] at h
      contradiction

/-- What a step tells of an octet is its effect. An octet that goes astray behind others is counted with
them first. -/
theorem step_eq_effect (state : Option Pending) (b : UInt8) : step state b =
    match effect state b with
    | .completes c => ([some c], none)
    | .awaits p => ([], some p)
    | .stray => if state.isSome then (none :: (opening b).1, (opening b).2) else ([none], none) := by
  cases state with
  | none => rfl
  | some p =>
    unfold step effect
    cases p.next b <;> rfl

/-- Where the reading of all octets has a character first, there is a first character. -/
theorem exists_firstFrom_of_scan {entries : List (Option Char)} :
    ∀ {state : Option Pending}, scan state bytes = some c :: entries →
      ∃ rest, firstFrom state bytes = some (c, rest) := by
  induction bytes with
  | nil =>
    intro state h
    cases state <;> simp [scan] at h
  | cons b more ih =>
    intro state h
    rw [scan_cons, step_eq_effect] at h
    unfold firstFrom
    cases heffect : effect state b with
    | completes d =>
      rw [heffect] at h
      obtain rfl := Option.some.inj (List.cons.inj h).1
      exact ⟨more, rfl⟩
    | awaits p =>
      rw [heffect] at h
      exact ih h
    | stray =>
      rw [heffect] at h
      cases state <;> simp at h

/-- **A character is read from its octets**, and exactly from these. -/
theorem uncons?_eq_some_iff :
    uncons? bytes = some (c, rest) ↔ bytes = String.utf8EncodeChar c ++ rest := by
  constructor
  · exact bytes_eq_of_uncons?
  · rintro rfl
    obtain ⟨rest', h⟩ := exists_firstFrom_of_scan (scan_encodeChar c rest)
    have hbytes := bytes_eq_of_uncons? h
    obtain rfl := List.append_cancel_left hbytes
    exact h

theorem encode_cons (c : Char) (t : Text) : encode (c :: t) = String.utf8EncodeChar c ++ encode t :=
  List.flatMap_cons

/-- The first character of a text is read from its octets, whatever follows the text. -/
theorem uncons?_encode_cons (c : Char) (t : Text) (rest : Bytes) :
    uncons? (encode (c :: t) ++ rest) = some (c, encode t ++ rest) := by
  rw [uncons?_eq_some_iff, encode_cons, List.append_assoc]

/-- A character of ASCII before a text is an octet before its octets. -/
theorem encode_cons_append (h : c.toNat < 0x80) (t : Text) (rest : Bytes) :
    encode (c :: t) ++ rest = UInt8.ofNat c.toNat :: (encode t ++ rest) := by
  rw [encode_cons_ascii h, List.cons_append]

/-- Texts of as many characters that begin the same octets are the same. -/
theorem encode_append_inj {s t : Text} {rest' : Bytes} (hlength : s.length = t.length)
    (h : encode s ++ rest = encode t ++ rest') : s = t ∧ rest = rest' := by
  induction s generalizing t with
  | nil =>
    obtain rfl := List.length_eq_zero_iff.mp hlength.symm
    exact ⟨rfl, h⟩
  | cons c s ih =>
    cases t with
    | nil => contradiction
    | cons d t =>
      have hfirst := (uncons?_encode_cons c s rest).symm.trans
        ((congrArg uncons? h).trans (uncons?_encode_cons d t rest'))
      obtain ⟨rfl, hmore⟩ := Prod.mk.inj (Option.some.inj hfirst)
      obtain ⟨rfl, hrest⟩ := ih (Nat.succ.inj hlength) hmore
      exact ⟨rfl, hrest⟩

/-- Octets of ASCII are read as the characters with their code points. -/
theorem lossy_ascii (h : ∀ b ∈ bytes, b.toNat < 0x80) : lossy bytes = bytes.map charOfByte := by
  rw [← lossy_encode (bytes.map charOfByte), encode_map_charOfByte h]

/-! ## Characters among octets -/

/-- A character that is read from an octet on ends with it, or is the one that is under way behind it, or
begins behind it. It can also begin at the octet, if what was under way does not go on. -/
theorem mem_scan_cons {state : Option Pending} {b : UInt8} (h : some c ∈ scan state (b :: rest)) :
    effect state b = .completes c ∨
      (∃ p, effect state b = .awaits p ∧ some c ∈ scan (some p) rest) ∨
      some c ∈ scan none rest ∨
      state.isSome ∧ some c ∈ scan none (b :: rest) := by
  rw [scan_cons, step_eq_effect] at h
  cases heffect : effect state b with
  | completes d =>
    rw [heffect] at h
    rcases List.mem_cons.mp h with heq | hrest
    · exact Or.inl (congrArg Effect.completes (Option.some.inj heq).symm)
    · exact Or.inr (Or.inr (Or.inl hrest))
  | awaits p =>
    rw [heffect] at h
    exact Or.inr (Or.inl ⟨p, rfl, h⟩)
  | stray =>
    rw [heffect] at h
    refine Or.inr (Or.inr ?_)
    cases state with
    | none => exact Or.inl ((List.mem_cons.mp h).resolve_left nofun)
    | some p => exact Or.inr ⟨rfl, (List.mem_cons.mp h).resolve_left nofun⟩

/-- A character that is read from octets is the one under way, or the first one somewhere further on. -/
theorem exists_uncons?_of_mem_scan : ∀ (state : Option Pending) (bytes : Bytes),
    some c ∈ scan state bytes →
      (∃ rest, firstFrom state bytes = some (c, rest)) ∨
        ∃ behind rest, behind <:+ bytes ∧ uncons? behind = some (c, rest)
  | none, [], h => nomatch h
  | some _, [], h => absurd (List.mem_singleton.mp h) nofun
  | state, b :: more, h => by
    have hmore : more <:+ b :: more := List.suffix_cons b more
    rcases mem_scan_cons h with heffect | ⟨p, heffect, hp⟩ | hmem | ⟨hstate, hanew⟩
    · refine Or.inl ⟨more, ?_⟩
      rw [firstFrom, heffect]
    · rcases exists_uncons?_of_mem_scan (some p) more hp with ⟨rest, hfirst⟩ | ⟨behind, rest, hsuffix, hfirst⟩
      · refine Or.inl ⟨rest, ?_⟩
        rw [firstFrom, heffect]
        exact hfirst
      · exact Or.inr ⟨behind, rest, hsuffix.trans hmore, hfirst⟩
    · rcases exists_uncons?_of_mem_scan none more hmem with ⟨rest, hfirst⟩ | ⟨behind, rest, hsuffix, hfirst⟩
      · exact Or.inr ⟨more, rest, hmore, hfirst⟩
      · exact Or.inr ⟨behind, rest, hsuffix.trans hmore, hfirst⟩
    · -- the octet is read again, this time with nothing under way
      have hdecrease : 0 < state.isSome.toNat := by
        rw [hstate]
        exact Nat.one_pos
      rcases exists_uncons?_of_mem_scan none (b :: more) hanew with ⟨rest, hfirst⟩ | hbehind
      · exact Or.inr ⟨b :: more, rest, List.suffix_rfl, hfirst⟩
      · exact Or.inr hbehind
  termination_by state bytes => (bytes.length, state.isSome.toNat)

/-- **A character that is found in octets is written among them**, unless it stands for octets that are
none. -/
theorem infix_of_mem_lossy (hc : c ≠ replacement) (h : c ∈ lossy bytes) :
    String.utf8EncodeChar c <:+: bytes := by
  obtain ⟨entry, hentry, heq⟩ := List.mem_map.mp h
  cases entry with
  | none => exact absurd heq.symm hc
  | some d =>
    obtain rfl : d = c := heq
    have hwritten {behind rest : Bytes} (hfirst : uncons? behind = some (d, rest)) :
        String.utf8EncodeChar d <+: behind := ⟨rest, (bytes_eq_of_uncons? hfirst).symm⟩
    rcases exists_uncons?_of_mem_scan none bytes hentry with ⟨rest, hfirst⟩ | ⟨behind, rest, hsuffix, hfirst⟩
    · exact (hwritten hfirst).isInfix
    · exact (hwritten hfirst).isInfix.trans hsuffix.isInfix

/-- A character of ASCII that is read leniently is an octet. -/
theorem ofNat_mem_of_mem_lossy (hascii : c.toNat < 0x80) (h : c ∈ lossy bytes) :
    UInt8.ofNat c.toNat ∈ bytes := by
  have hne : c ≠ replacement := by
    rintro rfl
    exact absurd hascii (by decide)
  have hinfix := infix_of_mem_lossy hne h
  rw [encodeChar_ascii hascii] at hinfix
  exact hinfix.sublist.mem List.mem_cons_self

/-! ## Octets cut off -/

/-- Where the last octets of a character are cut off, the others are no character. -/
theorem scan_take_of_firstFrom {k : Nat} : ∀ {state : Option Pending},
    firstFrom state bytes = some (c, []) → k < bytes.length → state.isSome ∨ 0 < k →
      scan state (bytes.take k) = [none] := by
  induction bytes generalizing k with
  | nil => exact fun _ hk => absurd hk (Nat.not_lt_zero k)
  | cons b more ih =>
    intro state h hk hstarted
    cases k with
    | zero =>
      have hstate : state.isSome := hstarted.resolve_right (Nat.lt_irrefl 0)
      obtain ⟨p, rfl⟩ := Option.isSome_iff_exists.mp hstate
      rfl
    | succ k =>
      rw [List.take_succ_cons, scan_cons, step_eq_effect]
      unfold firstFrom at h
      cases heffect : effect state b with
      | completes d =>
        -- nothing is left to be cut off behind the last octet
        rw [heffect] at h
        obtain ⟨-, rfl⟩ := Prod.mk.inj (Option.some.inj h)
        exact absurd (Nat.lt_of_succ_lt_succ hk) (Nat.not_lt_zero k)
      | awaits p =>
        rw [heffect] at h
        exact ih h (Nat.lt_of_succ_lt_succ hk) (Or.inl rfl)
      | stray =>
        rw [heffect] at h
        contradiction

/-- A text of which the last character is cut reads as the text in front of it and the mark of what is no
character. -/
theorem lossy_take_partial {u rest : Text} {n : Nat} (hbehind : (encode u).length < n)
    (hbefore : n < (encode u).length + c.utf8Size) :
    lossy ((encode (u ++ c :: rest)).take n) = u ++ [replacement] := by
  have hlength : n - (encode u).length < (String.utf8EncodeChar c).length := by
    rw [String.length_utf8EncodeChar]
    omega
  have hwhole : uncons? (String.utf8EncodeChar c) = some (c, []) :=
    uncons?_eq_some_iff.mpr (List.append_nil _).symm
  have htake : (encode (u ++ c :: rest)).take n =
      encode u ++ (String.utf8EncodeChar c).take (n - (encode u).length) := by
    rw [encode_append, encode_cons, List.take_append, List.take_of_length_le (Nat.le_of_lt hbehind),
      List.take_append_of_le_length (Nat.le_of_lt hlength)]
  have hscan : scan none ((String.utf8EncodeChar c).take (n - (encode u).length)) = [none] :=
    scan_take_of_firstFrom hwhole hlength (Or.inr (Nat.sub_pos_of_lt hbehind))
  rw [htake, lossy_encode_append, lossy, hscan]
  rfl

/-- A text is cut between two characters or within one. -/
theorem exists_cut (t : Text) {n : Nat} (h : n < (encode t).length) :
    ∃ u c rest, t = u ++ c :: rest ∧ (encode u).length ≤ n ∧ n < (encode u).length + c.utf8Size := by
  induction t generalizing n with
  | nil => exact absurd h (Nat.not_lt_zero n)
  | cons c t ih =>
    have hsize : (encode (c :: t)).length = c.utf8Size + (encode t).length := size_cons c t
    rcases Nat.lt_or_ge n c.utf8Size with hwithin | hbehind
    · exact ⟨[], c, t, rfl, Nat.zero_le n, by rw [Nat.add_comm]; exact hwithin⟩
    · obtain ⟨u, d, rest, rfl, hle, hlt⟩ := @ih (n - c.utf8Size) (by omega)
      have hsize : (encode (c :: u)).length = c.utf8Size + (encode u).length := size_cons c u
      exact ⟨c :: u, d, rest, rfl, by omega, by omega⟩

/-! ## How many characters octets may be -/

/-- An octet completes one character at most, counting the one that it puts off. -/
theorem length_step_le (state : Option Pending) (b : UInt8) :
    (step state b).1.length + (step state b).2.isSome.toNat ≤ 1 + state.isSome.toNat := by
  have hopening : (opening b).1.length + (opening b).2.isSome.toNat = 1 := by
    unfold opening
    cases first b <;> rfl
  rw [step_eq_effect]
  cases effect state b with
  | completes d => exact Nat.le_add_right 1 _
  | awaits p => exact Nat.le_add_right 1 _
  | stray =>
    cases state with
    | none => exact Nat.le_refl 1
    | some p =>
      show (opening b).1.length + 1 + (opening b).2.isSome.toNat ≤ 2
      omega

/-- There are no more characters than octets. -/
theorem length_scan_le (state : Option Pending) (bytes : Bytes) :
    (scan state bytes).length ≤ bytes.length + state.isSome.toNat := by
  induction bytes generalizing state with
  | nil => cases state <;> exact Nat.le_refl _
  | cons b more ih =>
    have hstep := length_step_le state b
    have hmore := ih (step state b).2
    rw [scan_cons, List.length_append, List.length_cons]
    omega

/-- Octets are no more characters than octets. -/
theorem length_lossy_le (bytes : Bytes) : (lossy bytes).length ≤ bytes.length := by
  rw [lossy, List.length_map]
  exact length_scan_le none bytes

end Aprs.Utf8
