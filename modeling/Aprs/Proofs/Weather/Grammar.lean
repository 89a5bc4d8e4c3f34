import Aprs.Proofs.Utf8
import Aprs.Weather.Report

/-!
# The grammar of weather reports

The texts of a report are told here without reading: how the number of a field is written
(`Field.Number`), what stands for one that a station does not have (`Slot`), and which tokens there are
(`Token.Valid`). Each reader of octets then comes with one equivalence, which says that it finds a text
exactly if the text is one of these and the octets begin with it:

> `Token.next?_eq_some_iff`: a token is read exactly if it is valid and its octets come first.

Soundness goes through the branches of a reader. The other direction needs no branches where a reader
takes texts of one length only, since octets begin with one such text (`Text.eq_some_of_isSome`). Digits
are those of all scripts, so characters and octets are not counted alike.

Specification: 4.5 (Weather Decoder) and 12.5 (Weather).
-/

namespace Aprs

/-! ## Runs of characters -/

namespace Text

variable {count : Nat} {bytes rest : Bytes} {t : Text}

/-- A text of decimal digits. -/
structure Digits (count : Nat) (t : Text) : Prop where
  length : t.length = count
  digit : ∀ c ∈ t, isDecimalDigit c = true

/-- A text that goes on in its line. -/
structure InLine (count : Nat) (t : Text) : Prop where
  length : t.length = count
  newline : '\n' ∉ t

instance (count : Nat) (t : Text) : Decidable (Digits count t) :=
  decidable_of_decidable_of_iff (p := t.length = count ∧ t.all isDecimalDigit = true)
    ⟨fun h => ⟨h.1, List.all_eq_true.mp h.2⟩, fun h => ⟨h.length, List.all_eq_true.mpr h.digit⟩⟩

instance (count : Nat) (t : Text) : Decidable (InLine count t) :=
  decidable_of_decidable_of_iff (p := t.length = count ∧ '\n' ∉ t)
    ⟨fun h => ⟨h.1, h.2⟩, fun h => ⟨h.length, h.newline⟩⟩

/-- A reader that takes as many characters as it is asked for, each of which it admits, takes exactly
the texts of that length with only such characters. -/
theorem take_eq_some_iff (admits : Char → Bool) {take? : Nat → Bytes → Option (Text × Bytes)}
    (hzero : ∀ bytes, take? 0 bytes = some ([], bytes))
    (hsucc : ∀ count bytes, take? (count + 1) bytes =
      (Utf8.uncons? bytes).bind fun first =>
        if admits first.1 then (take? count first.2).map fun more => (first.1 :: more.1, more.2)
        else none) :
    take? count bytes = some (t, rest) ↔
      t.length = count ∧ (∀ c ∈ t, admits c = true) ∧ bytes = Utf8.encode t ++ rest := by
  induction count generalizing bytes t with
  | zero =>
    rw [hzero]
    constructor
    · intro h
      obtain ⟨rfl, rfl⟩ := Prod.mk.inj (Option.some.inj h)
      exact ⟨rfl, fun _ hc => absurd hc List.not_mem_nil, rfl⟩
    · rintro ⟨hlength, -, rfl⟩
      rw [List.length_eq_zero_iff.mp hlength]
      rfl
  | succ count ih =>
    rw [hsucc]
    constructor
    · intro h
      obtain ⟨⟨c, more⟩, hfirst, h⟩ := Option.bind_eq_some_iff.mp h
      dsimp only at h
      split at h
      · next hadmits =>
        obtain ⟨⟨t', rest'⟩, htake, heq⟩ := Option.map_eq_some_iff.mp h
        obtain ⟨rfl, rfl⟩ := Prod.mk.inj heq
        obtain ⟨hlength, hall, rfl⟩ := ih.mp htake
        refine ⟨congrArg Nat.succ hlength, List.forall_mem_cons.mpr ⟨hadmits, hall⟩, ?_⟩
        rw [Utf8.uncons?_eq_some_iff.mp hfirst, Utf8.encode_cons, List.append_assoc]
      · contradiction
    · rintro ⟨hlength, hall, rfl⟩
      cases t with
      | nil => contradiction
      | cons c t =>
        obtain ⟨hc, ht⟩ := List.forall_mem_cons.mp hall
        rw [Utf8.uncons?_encode_cons, Option.bind_some]
        dsimp only
        rw [if_pos hc, ih.mpr ⟨Nat.succ.inj hlength, ht, rfl⟩]
        rfl

/-- Digits are read exactly if there are as many, of any script. -/
theorem takeDigits?_eq_some_iff :
    takeDigits? count bytes = some (t, rest) ↔ Digits count t ∧ bytes = Utf8.encode t ++ rest := by
  rw [take_eq_some_iff isDecimalDigit (fun _ => rfl) fun _ _ => rfl]
  constructor
  · rintro ⟨hlength, hdigit, h⟩
    exact ⟨⟨hlength, hdigit⟩, h⟩
  · rintro ⟨hdigits, h⟩
    exact ⟨hdigits.length, hdigits.digit, h⟩

/-- Characters are read exactly if there are as many in the line. -/
theorem takeCharacters?_eq_some_iff :
    takeCharacters? count bytes = some (t, rest) ↔ InLine count t ∧ bytes = Utf8.encode t ++ rest := by
  have hsucc (count : Nat) (bytes : Bytes) : takeCharacters? (count + 1) bytes =
      (Utf8.uncons? bytes).bind fun first =>
        if first.1 != '\n' then
          (takeCharacters? count first.2).map fun more => (first.1 :: more.1, more.2)
        else none := by
    rw [takeCharacters?]
    congr 1
    funext first
    by_cases hnewline : first.1 = '\n' <;> simp [hnewline]
  rw [take_eq_some_iff (· != '\n') (fun _ => rfl) hsucc]
  have hline : (∀ c ∈ t, (c != '\n') = true) ↔ '\n' ∉ t := by
    simp only [bne_iff_ne, ne_eq]
    exact ⟨fun h hmem => h _ hmem rfl, fun h c hc heq => h (heq ▸ hc)⟩
  rw [hline]
  constructor
  · rintro ⟨hlength, hin, h⟩
    exact ⟨⟨hlength, hin⟩, h⟩
  · rintro ⟨hin, h⟩
    exact ⟨hin.length, hin.newline, h⟩

theorem takeDigits?_encode (h : Digits count t) (rest : Bytes) :
    takeDigits? count (Utf8.encode t ++ rest) = some (t, rest) :=
  takeDigits?_eq_some_iff.mpr ⟨h, rfl⟩

/-- A reader that takes texts of one length only, and takes some text, takes the one that is there. -/
theorem eq_some_of_isSome {found : Option (Text × Bytes)} (hsome : found.isSome = true)
    (hsound : ∀ s more, found = some (s, more) → s.length = t.length ∧
      Utf8.encode t ++ rest = Utf8.encode s ++ more) : found = some (t, rest) := by
  obtain ⟨⟨s, more⟩, hfound⟩ := Option.isSome_iff_exists.mp hsome
  obtain ⟨hlength, hbytes⟩ := hsound s more hfound
  obtain ⟨rfl, rfl⟩ := Utf8.encode_append_inj hlength.symm hbytes
  exact hfound

end Text

namespace Weather

open Text (Digits takeDigits?_eq_some_iff takeDigits?_encode)

variable {bytes rest : Bytes} {t : Text}

/-! ## Values of fields -/

/-- What may stand for a number of some width: its digits, or as many dots or blanks. -/
def Slot (width : Nat) (t : Text) : Prop :=
  Digits width t ∨ t = List.replicate width '.' ∨ t = List.replicate width ' '

theorem Slot.length {width : Nat} (h : Slot width t) : t.length = width := by
  rcases h with h | rfl | rfl
  · exact h.length
  · exact List.length_replicate
  · exact List.length_replicate

/-- An octet is read over and over exactly if it stands there so many times. -/
theorem fill?_eq_some_iff {b : UInt8} {count : Nat} :
    fill? b count bytes = some rest ↔ bytes = List.replicate count b ++ rest := by
  induction count generalizing bytes with
  | zero =>
    exact ⟨fun h => Option.some.inj h, fun h => congrArg some h⟩
  | succ count ih =>
    cases bytes with
    | nil => exact iff_of_false (Option.some_ne_none rest).symm (List.cons_ne_nil _ _).symm
    | cons x more =>
      rw [fill?, List.replicate_succ, List.cons_append, List.cons.injEq]
      split
      · next hx => rw [ih, and_iff_right hx]
      · next hx => exact iff_of_false (Option.some_ne_none rest).symm fun h => hx h.1

theorem fill?_ascii_iff {c : Char} {count : Nat} (h : c.toNat < 0x80) :
    fill? (UInt8.ofNat c.toNat) count bytes = some rest ↔
      bytes = Utf8.encode (List.replicate count c) ++ rest := by
  rw [fill?_eq_some_iff, Utf8.encode_ascii fun d hd => (List.eq_of_mem_replicate hd).symm ▸ h,
    List.map_replicate]

theorem slot?_sound {width : Nat} (h : slot? width bytes = some (t, rest)) :
    Slot width t ∧ bytes = Utf8.encode t ++ rest := by
  unfold slot? at h
  split at h
  · next found hdigits =>
    obtain ⟨ht, hbytes⟩ := takeDigits?_eq_some_iff.mp (hdigits.trans h)
    exact ⟨Or.inl ht, hbytes⟩
  · split at h
    · next hfill =>
      obtain ⟨rfl, rfl⟩ := Prod.mk.inj (Option.some.inj h)
      exact ⟨Or.inr (Or.inl rfl), (fill?_ascii_iff (c := '.') (by decide)).mp hfill⟩
    · obtain ⟨more, hfill, heq⟩ := Option.map_eq_some_iff.mp h
      obtain ⟨rfl, rfl⟩ := Prod.mk.inj heq
      exact ⟨Or.inr (Or.inr rfl), (fill?_ascii_iff (c := ' ') (by decide)).mp hfill⟩

/-- **A slot is read from its octets**, and exactly from these. -/
theorem slot?_eq_some_iff {width : Nat} :
    slot? width bytes = some (t, rest) ↔ Slot width t ∧ bytes = Utf8.encode t ++ rest := by
  constructor
  · exact slot?_sound
  · rintro ⟨hslot, rfl⟩
    refine Text.eq_some_of_isSome ?_ fun s more hfound => ?_
    · unfold slot?
      split
      · rfl
      next hdigits =>
        split
        · rfl
        next hdots =>
          -- what is neither digits nor dots is blanks
          rcases hslot with h | rfl | rfl
          · rw [takeDigits?_encode h] at hdigits
            contradiction
          · have hfill := (fill?_ascii_iff (c := '.') (by decide)).mpr
              (rfl : Utf8.encode (List.replicate width '.') ++ rest = _)
            exact nomatch hdots.symm.trans hfill
          · exact Option.isSome_map.trans (congrArg Option.isSome
              ((fill?_ascii_iff (c := ' ') (by decide)).mpr rfl))
    · obtain ⟨hs, hbytes⟩ := slot?_sound hfound
      exact ⟨hs.length.trans hslot.length.symm, hbytes⟩

/-- The numbers of a field: its digits, or of a temperature a minus and two. -/
def Field.Number (f : Field) (t : Text) : Prop :=
  Digits f.width t ∨ f = .temperature ∧ ∃ digits, t = '-' :: digits ∧ Digits 2 digits

theorem Field.Number.length {f : Field} (h : f.Number t) : t.length = f.width := by
  rcases h with h | ⟨rfl, digits, rfl, h⟩
  · exact h.length
  · exact congrArg Nat.succ h.length

theorem Field.number?_sound {f : Field} (h : f.number? bytes = some (t, rest)) :
    f.Number t ∧ bytes = Utf8.encode t ++ rest := by
  unfold Field.number? at h
  split at h
  · obtain ⟨⟨digits, more⟩, hdigits, heq⟩ := Option.map_eq_some_iff.mp h
    obtain ⟨rfl, rfl⟩ := Prod.mk.inj heq
    obtain ⟨ht, rfl⟩ := takeDigits?_eq_some_iff.mp hdigits
    exact ⟨Or.inr ⟨rfl, digits, rfl, ht⟩, (Utf8.encode_cons_append (c := '-') (by decide) digits _).symm⟩
  · obtain ⟨ht, hbytes⟩ := takeDigits?_eq_some_iff.mp h
    exact ⟨Or.inl ht, hbytes⟩

/-- A number is read exactly if the octets begin with one for the field. -/
theorem Field.number?_eq_some_iff {f : Field} :
    f.number? bytes = some (t, rest) ↔ f.Number t ∧ bytes = Utf8.encode t ++ rest := by
  constructor
  · exact Field.number?_sound
  · rintro ⟨h | ⟨rfl, digits, rfl, h⟩, rfl⟩
    · unfold Field.number?
      split
      · next more hminus =>
        -- digits do not begin with a minus
        cases t with
        | nil => exact absurd h.length (by decide)
        | cons c t =>
          have hfirst := (Utf8.uncons?_encode_cons c t rest).symm.trans (congrArg Utf8.uncons? hminus)
          obtain ⟨rfl, -⟩ := Prod.mk.inj (Option.some.inj hfirst)
          exact absurd (h.digit _ List.mem_cons_self) (by decide)
      · exact takeDigits?_encode h rest
    · rw [Utf8.encode_cons_append (by decide)]
      show (Text.takeDigits? 2 (Utf8.encode digits ++ rest)).map _ = _
      rw [takeDigits?_encode h]
      rfl

/-- What may stand behind the letter of a field: a number, or what stands for a missing one unless the
field is the rain counter. -/
def Field.Value (f : Field) (t : Text) : Prop := f.Number t ∨ f ≠ .rainCounter ∧ Slot f.width t

theorem Field.Value.length {f : Field} (h : f.Value t) : t.length = f.width := by
  rcases h with h | ⟨-, h⟩
  · exact h.length
  · exact h.length

theorem Field.value?_sound {f : Field} (h : f.value? bytes = some (t, rest)) :
    f.Value t ∧ bytes = Utf8.encode t ++ rest := by
  unfold Field.value? at h
  split at h
  · next found hnumber =>
    obtain ⟨ht, hbytes⟩ := Field.number?_sound (hnumber.trans h)
    exact ⟨Or.inl ht, hbytes⟩
  · split at h
    · contradiction
    next hcounter =>
      obtain ⟨ht, hbytes⟩ := slot?_sound h
      exact ⟨Or.inr ⟨hcounter, ht⟩, hbytes⟩

/-- A value is read exactly if the octets begin with one for the field. -/
theorem Field.value?_eq_some_iff {f : Field} :
    f.value? bytes = some (t, rest) ↔ f.Value t ∧ bytes = Utf8.encode t ++ rest := by
  constructor
  · exact Field.value?_sound
  · rintro ⟨hvalue, rfl⟩
    refine Text.eq_some_of_isSome ?_ fun s more hfound => ?_
    · unfold Field.value?
      split
      · rfl
      next hnumber =>
        rcases hvalue with h | ⟨hcounter, h⟩
        · rw [Field.number?_eq_some_iff.mpr ⟨h, rfl⟩] at hnumber
          contradiction
        · rw [if_neg hcounter, slot?_eq_some_iff.mpr ⟨h, rfl⟩]
          rfl
    · obtain ⟨hs, hbytes⟩ := Field.value?_sound hfound
      exact ⟨hs.length.trans hvalue.length.symm, hbytes⟩

/-! ## Tokens -/

/-- The text of a token. -/
def Token.text : Token → Text
  | .wind direction speed => direction ++ '/' :: speed
  | .field f value => f.letter :: value

/-- The tokens that a report may hold. -/
def Token.Valid : Token → Prop
  | .wind direction speed => Slot 3 direction ∧ Slot 3 speed
  | .field f value => f.Value value

theorem Field.letter_ascii (f : Field) : f.letter.toNat < 0x80 := by
  cases f <;> decide

/-- A field is told by its letter. -/
theorem Field.ofLetter?_eq_some_iff {f : Field} {b : UInt8} :
    Field.ofLetter? b = some f ↔ b = UInt8.ofNat f.letter.toNat := by
  constructor
  · intro h
    have hfound := List.find?_some (p := fun g : Field => decide (g.letter = charOfByte b)) h
    exact Utf8.eq_ofNat_of_charOfByte (of_decide_eq_true hfound).symm
  · rintro rfl
    cases f <;> rfl

theorem Token.encode_wind (direction speed : Text) (rest : Bytes) :
    Utf8.encode (Token.wind direction speed).text ++ rest =
      Utf8.encode direction ++ 0x2F :: (Utf8.encode speed ++ rest) := by
  rw [Token.text, Utf8.encode_append, List.append_assoc, Utf8.encode_cons_append (by decide)]
  rfl

theorem Token.wind?_sound {token : Token} (h : Token.wind? bytes = some (token, rest)) :
    token.Valid ∧ bytes = Utf8.encode token.text ++ rest := by
  unfold Token.wind? at h
  split at h
  · next direction more hdirection =>
    obtain ⟨⟨speed, behind⟩, hspeed, heq⟩ := Option.map_eq_some_iff.mp h
    obtain ⟨rfl, rfl⟩ := Prod.mk.inj heq
    obtain ⟨hd, rfl⟩ := slot?_sound hdirection
    obtain ⟨hs, rfl⟩ := slot?_sound hspeed
    exact ⟨⟨hd, hs⟩, (Token.encode_wind direction speed _).symm⟩
  · contradiction

theorem Token.field?_sound {token : Token} (h : Token.field? bytes = some (token, rest)) :
    token.Valid ∧ bytes = Utf8.encode token.text ++ rest := by
  cases bytes with
  | nil => contradiction
  | cons b more =>
    obtain ⟨f, hletter, h⟩ := Option.bind_eq_some_iff.mp h
    obtain ⟨⟨value, behind⟩, hvalue, heq⟩ := Option.map_eq_some_iff.mp h
    obtain ⟨rfl, rfl⟩ := Prod.mk.inj heq
    obtain ⟨hv, rfl⟩ := Field.value?_sound hvalue
    rw [Field.ofLetter?_eq_some_iff.mp hletter]
    exact ⟨hv, (Utf8.encode_cons_append f.letter_ascii value _).symm⟩

/-- Nothing that may stand for a direction begins with the letter of a field. -/
theorem Slot.head_ne_letter {width : Nat} {c : Char} (h : Slot width (c :: t)) (f : Field) :
    c ≠ f.letter := by
  rintro rfl
  have hmem : f.letter ∈ f.letter :: t := List.mem_cons_self
  rcases h with h | h | h
  · exact absurd (h.digit _ hmem) (by cases f <;> decide)
  · rw [h] at hmem
    exact absurd (List.eq_of_mem_replicate hmem) (by cases f <;> decide)
  · rw [h] at hmem
    exact absurd (List.eq_of_mem_replicate hmem) (by cases f <;> decide)

/-- No slot begins with the letter of a field, so the wind is not read where a field stands. -/
theorem slot?_letter {width : Nat} (f : Field) (value : Text) (rest : Bytes) :
    slot? (width + 1) (Utf8.encode (Token.field f value).text ++ rest) = none := by
  refine Option.eq_none_iff_forall_ne_some.mpr fun ⟨s, more⟩ h => ?_
  obtain ⟨hslot, hbytes⟩ := slot?_sound h
  cases s with
  | nil => exact absurd hslot.length (Nat.zero_ne_add_one width)
  | cons c s =>
    have hfirst := (Utf8.uncons?_encode_cons f.letter value rest).symm.trans
      ((congrArg Utf8.uncons? hbytes).trans (Utf8.uncons?_encode_cons c s more))
    obtain ⟨hletter, -⟩ := Prod.mk.inj (Option.some.inj hfirst)
    exact hslot.head_ne_letter f hletter.symm

/-- **A token is read from its octets**, and exactly from these: no two tokens begin alike. -/
theorem Token.next?_eq_some_iff {token : Token} :
    Token.next? bytes = some (token, rest) ↔ token.Valid ∧ bytes = Utf8.encode token.text ++ rest := by
  constructor
  · intro h
    unfold Token.next? at h
    split at h
    · next found hwind => exact Token.wind?_sound (hwind.trans h)
    · exact Token.field?_sound h
  · rintro ⟨hvalid, rfl⟩
    unfold Token.next?
    cases token with
    | wind direction speed =>
      have hwind : Token.wind? (Utf8.encode (Token.wind direction speed).text ++ rest) =
          some (.wind direction speed, rest) := by
        rw [Token.encode_wind]
        unfold Token.wind?
        rw [slot?_eq_some_iff.mpr ⟨hvalid.1, rfl⟩]
        show (slot? 3 (Utf8.encode speed ++ rest)).map _ = _
        rw [slot?_eq_some_iff.mpr ⟨hvalid.2, rfl⟩]
        rfl
      rw [hwind]
    | field f value =>
      have hwind : Token.wind? (Utf8.encode (Token.field f value).text ++ rest) = none := by
        unfold Token.wind?
        rw [slot?_letter]
      rw [hwind]
      show Token.field? _ = _
      rw [Token.text, Utf8.encode_cons_append f.letter_ascii]
      show (Field.ofLetter? _).bind _ = _
      rw [Field.ofLetter?_eq_some_iff.mpr rfl, Option.bind_some,
        Field.value?_eq_some_iff.mpr ⟨hvalid, rfl⟩]
      rfl

end Weather

end Aprs
