import Aprs.Proofs.Weather.Grammar

/-!
# The pieces of a weather report

Three things are looked for in the octets of a report: a complete block at their beginning, tokens one
after the other, and behind these a number of a field wherever it may stand. For each of them the text is
described first (`Block.text`, `rowText`, `Field.At`), and reading is shown to find it and no other:

> a block is found if one is there (`block?_sound`, `block?_encode`), the row of tokens is the one that
> stands up to the first place without a token (`tokens_eq_iff`), and of the numbers of a field the
> leftmost is found (`find?_eq_some_iff`).

Specification: 4.5 (Weather Decoder).
-/

namespace Aprs

namespace Weather

open Text (Digits InLine takeDigits?_eq_some_iff takeDigits?_encode)

variable {bytes rest : Bytes}

/-! ## The complete block -/

/-- What is written in a complete block. -/
structure Block where
  direction : Text
  speed : Text
  gust : Text
  temperature : Text
  lastHour : Text
  lastDay : Text
  sinceMidnight : Text
  humidity : Text
  pressure : Text

namespace Block

variable (b : Block)

/-- The text of a block. -/
def text : Text :=
  b.direction ++ '/' :: b.speed ++ 'g' :: b.gust ++ 't' :: b.temperature ++ 'r' :: b.lastHour ++
    'p' :: b.lastDay ++ 'P' :: b.sinceMidnight ++ 'h' :: b.humidity ++ 'b' :: b.pressure

/-- The blocks that a report may begin with: digits everywhere, but any characters for the temperature. -/
structure Valid : Prop where
  direction : Digits 3 b.direction
  speed : Digits 3 b.speed
  gust : Digits 3 b.gust
  temperature : InLine 3 b.temperature
  lastHour : Digits 3 b.lastHour
  lastDay : Digits 3 b.lastDay
  sinceMidnight : Digits 3 b.sinceMidnight
  humidity : Digits 2 b.humidity
  pressure : Digits 5 b.pressure

/-- What is written, field by field. -/
def fields : List (Field × Text) :=
  [(.windDirection, b.direction), (.windSpeedOrSnowfall, b.speed), (.windGust, b.gust),
    (.temperature, b.temperature), (.rainLastHour, b.lastHour), (.rainLastDay, b.lastDay),
    (.rainSinceMidnight, b.sinceMidnight), (.humidity, b.humidity), (.pressure, b.pressure)]

/-- The octets of a block, group by group, each behind its letter. -/
theorem encode_text (rest : Bytes) :
    Utf8.encode b.text ++ rest =
      Utf8.encode b.direction ++ UInt8.ofNat '/'.toNat :: (Utf8.encode b.speed ++
      UInt8.ofNat 'g'.toNat :: (Utf8.encode b.gust ++
      UInt8.ofNat 't'.toNat :: (Utf8.encode b.temperature ++
      UInt8.ofNat 'r'.toNat :: (Utf8.encode b.lastHour ++
      UInt8.ofNat 'p'.toNat :: (Utf8.encode b.lastDay ++
      UInt8.ofNat 'P'.toNat :: (Utf8.encode b.sinceMidnight ++
      UInt8.ofNat 'h'.toNat :: (Utf8.encode b.humidity ++
      UInt8.ofNat 'b'.toNat :: (Utf8.encode b.pressure ++ rest)))))))) := by
  simp only [text, Utf8.encode_append, List.append_assoc]
  rw [Utf8.encode_cons_append (c := '/') (by decide), Utf8.encode_cons_append (c := 'g') (by decide),
    Utf8.encode_cons_append (c := 't') (by decide), Utf8.encode_cons_append (c := 'r') (by decide),
    Utf8.encode_cons_append (c := 'p') (by decide), Utf8.encode_cons_append (c := 'P') (by decide),
    Utf8.encode_cons_append (c := 'h') (by decide), Utf8.encode_cons_append (c := 'b') (by decide)]

theorem fields_injective {b b' : Block} (h : b.fields = b'.fields) : b = b' := by
  cases b
  cases b'
  simpa [fields] using h

end Block

theorem literal?_eq_some_iff {c : Char} (h : c.toNat < 0x80) :
    literal? c bytes = some rest ↔ bytes = UInt8.ofNat c.toNat :: rest := by
  cases bytes with
  | nil => exact iff_of_false (Option.some_ne_none rest).symm (List.cons_ne_nil _ _).symm
  | cons b more =>
    rw [literal?, List.cons.injEq]
    split
    · next hb => rw [Option.some.injEq, and_iff_right (Utf8.eq_ofNat_of_charOfByte hb)]
    · next hb =>
      refine iff_of_false (Option.some_ne_none rest).symm fun hboth => hb ?_
      rw [hboth.1, Utf8.charOfByte_ofNat h]

/-- A part of a block is found with the letter behind it. -/
theorem bind_literal_eq_some_iff {α : Type} {found : Option (Text × Bytes)} {c : Char}
    {part : Text × Bytes → Option α} {next : Text → Bytes → Option α} {a : α}
    (hpart : ∀ t more, part (t, more) = (literal? c more).bind (next t)) (hc : c.toNat < 0x80) :
    found.bind part = some a ↔
      ∃ t rest, found = some (t, UInt8.ofNat c.toNat :: rest) ∧ next t rest = some a := by
  constructor
  · intro h
    obtain ⟨⟨t, more⟩, hfound, hmore⟩ := Option.bind_eq_some_iff.mp h
    rw [hpart] at hmore
    obtain ⟨rest, hliteral, hnext⟩ := Option.bind_eq_some_iff.mp hmore
    obtain rfl := (literal?_eq_some_iff hc).mp hliteral
    exact ⟨t, rest, hfound, hnext⟩
  · rintro ⟨t, rest, rfl, hnext⟩
    rw [Option.bind_some, hpart, (literal?_eq_some_iff hc).mpr rfl]
    exact hnext

theorem block?_sound {fields : List (Field × Text)} (h : block? bytes = some (fields, rest)) :
    ∃ b : Block, b.Valid ∧ fields = b.fields ∧ bytes = Utf8.encode b.text ++ rest := by
  unfold block? at h
  obtain ⟨direction, _, h₁, h⟩ := (bind_literal_eq_some_iff (fun _ _ => rfl) (by decide)).mp h
  obtain ⟨speed, _, h₂, h⟩ := (bind_literal_eq_some_iff (fun _ _ => rfl) (by decide)).mp h
  obtain ⟨gust, _, h₃, h⟩ := (bind_literal_eq_some_iff (fun _ _ => rfl) (by decide)).mp h
  obtain ⟨temperature, _, h₄, h⟩ := (bind_literal_eq_some_iff (fun _ _ => rfl) (by decide)).mp h
  obtain ⟨lastHour, _, h₅, h⟩ := (bind_literal_eq_some_iff (fun _ _ => rfl) (by decide)).mp h
  obtain ⟨lastDay, _, h₆, h⟩ := (bind_literal_eq_some_iff (fun _ _ => rfl) (by decide)).mp h
  obtain ⟨sinceMidnight, _, h₇, h⟩ := (bind_literal_eq_some_iff (fun _ _ => rfl) (by decide)).mp h
  obtain ⟨humidity, _, h₈, h⟩ := (bind_literal_eq_some_iff (fun _ _ => rfl) (by decide)).mp h
  obtain ⟨⟨pressure, _⟩, h₉, h⟩ := Option.bind_eq_some_iff.mp h
  obtain ⟨rfl, rfl⟩ := Prod.mk.inj (Option.some.inj h)
  obtain ⟨hdirection, rfl⟩ := takeDigits?_eq_some_iff.mp h₁
  obtain ⟨hspeed, rfl⟩ := takeDigits?_eq_some_iff.mp h₂
  obtain ⟨hgust, rfl⟩ := takeDigits?_eq_some_iff.mp h₃
  obtain ⟨htemperature, rfl⟩ := Text.takeCharacters?_eq_some_iff.mp h₄
  obtain ⟨hlastHour, rfl⟩ := takeDigits?_eq_some_iff.mp h₅
  obtain ⟨hlastDay, rfl⟩ := takeDigits?_eq_some_iff.mp h₆
  obtain ⟨hsinceMidnight, rfl⟩ := takeDigits?_eq_some_iff.mp h₇
  obtain ⟨hhumidity, rfl⟩ := takeDigits?_eq_some_iff.mp h₈
  obtain ⟨hpressure, rfl⟩ := takeDigits?_eq_some_iff.mp h₉
  let b : Block :=
    ⟨direction, speed, gust, temperature, lastHour, lastDay, sinceMidnight, humidity, pressure⟩
  exact ⟨b, ⟨hdirection, hspeed, hgust, htemperature, hlastHour, hlastDay, hsinceMidnight, hhumidity,
    hpressure⟩, rfl, (b.encode_text _).symm⟩

/-- A valid block is read as its groups. -/
theorem block?_encode {b : Block} (h : b.Valid) (rest : Bytes) :
    block? (Utf8.encode b.text ++ rest) = some (b.fields, rest) := by
  have htemperature (rest : Bytes) : Text.takeCharacters? 3 (Utf8.encode b.temperature ++ rest) =
      some (b.temperature, rest) :=
    Text.takeCharacters?_eq_some_iff.mpr ⟨h.temperature, rfl⟩
  rw [b.encode_text]
  unfold block?
  refine (bind_literal_eq_some_iff (fun _ _ => rfl) (by decide)).mpr
    ⟨b.direction, _, takeDigits?_encode h.direction _, ?_⟩
  refine (bind_literal_eq_some_iff (fun _ _ => rfl) (by decide)).mpr
    ⟨b.speed, _, takeDigits?_encode h.speed _, ?_⟩
  refine (bind_literal_eq_some_iff (fun _ _ => rfl) (by decide)).mpr
    ⟨b.gust, _, takeDigits?_encode h.gust _, ?_⟩
  refine (bind_literal_eq_some_iff (fun _ _ => rfl) (by decide)).mpr
    ⟨b.temperature, _, htemperature _, ?_⟩
  refine (bind_literal_eq_some_iff (fun _ _ => rfl) (by decide)).mpr
    ⟨b.lastHour, _, takeDigits?_encode h.lastHour _, ?_⟩
  refine (bind_literal_eq_some_iff (fun _ _ => rfl) (by decide)).mpr
    ⟨b.lastDay, _, takeDigits?_encode h.lastDay _, ?_⟩
  refine (bind_literal_eq_some_iff (fun _ _ => rfl) (by decide)).mpr
    ⟨b.sinceMidnight, _, takeDigits?_encode h.sinceMidnight _, ?_⟩
  refine (bind_literal_eq_some_iff (fun _ _ => rfl) (by decide)).mpr
    ⟨b.humidity, _, takeDigits?_encode h.humidity _, ?_⟩
  rw [takeDigits?_encode h.pressure]
  rfl

/-- No block is read exactly if the octets begin with none. -/
theorem block?_eq_none_iff :
    block? bytes = none ↔ ∀ b : Block, b.Valid → ¬Utf8.encode b.text <+: bytes := by
  constructor
  · rintro hnone b hvalid ⟨rest, rfl⟩
    exact nomatch hnone.symm.trans (block?_encode hvalid rest)
  · intro hall
    refine Option.eq_none_iff_forall_ne_some.mpr fun ⟨fields, rest⟩ h => ?_
    obtain ⟨b, hvalid, -, hbytes⟩ := block?_sound h
    exact hall b hvalid ⟨rest, hbytes.symm⟩

/-! ## The row of tokens -/

/-- No token is read exactly if the octets begin with none. -/
theorem Token.next?_eq_none_iff :
    Token.next? bytes = none ↔ ∀ token : Token, token.Valid → ¬Utf8.encode token.text <+: bytes := by
  constructor
  · rintro hnone token hvalid ⟨rest, rfl⟩
    exact nomatch hnone.symm.trans (Token.next?_eq_some_iff.mpr ⟨hvalid, rfl⟩)
  · intro hall
    refine Option.eq_none_iff_forall_ne_some.mpr fun ⟨token, rest⟩ h => ?_
    obtain ⟨hvalid, hbytes⟩ := Token.next?_eq_some_iff.mp h
    exact hall token hvalid ⟨rest, hbytes.symm⟩

/-- The text of a row of tokens. -/
def rowText (row : List Token) : Text := row.flatMap Token.text

theorem encode_rowText_cons (token : Token) (row : List Token) (rest : Bytes) :
    Utf8.encode (rowText (token :: row)) ++ rest =
      Utf8.encode token.text ++ (Utf8.encode (rowText row) ++ rest) := by
  rw [rowText, List.flatMap_cons, Utf8.encode_append, List.append_assoc]
  rfl

/-- One token after the other is read from the octets of a row, and no token follows. -/
theorem tokens_sound (bytes : Bytes) :
    (∀ token ∈ (tokens bytes).1, token.Valid) ∧
      bytes = Utf8.encode (rowText (tokens bytes).1) ++ (tokens bytes).2 ∧
      Token.next? (tokens bytes).2 = none := by
  cases h : Token.next? bytes with
  | none =>
    rw [tokens_of_none h]
    exact ⟨fun _ hmem => absurd hmem List.not_mem_nil, rfl, h⟩
  | some found =>
    have hlt := Token.next?_length h
    obtain ⟨hvalid, hbytes⟩ := Token.next?_eq_some_iff.mp h
    obtain ⟨hrow, hrest, hend⟩ := tokens_sound found.2
    rw [tokens_of_some h]
    refine ⟨List.forall_mem_cons.mpr ⟨hvalid, hrow⟩, ?_, hend⟩
    rw [encode_rowText_cons, ← hrest]
    exact hbytes
  termination_by bytes.length

/-- **A row of tokens is read from its octets**, and exactly from these, up to the first place where no
token stands. -/
theorem tokens_eq_iff {row : List Token} :
    tokens bytes = (row, rest) ↔ (∀ token ∈ row, token.Valid) ∧
      bytes = Utf8.encode (rowText row) ++ rest ∧ Token.next? rest = none := by
  constructor
  · intro h
    have hsound := tokens_sound bytes
    rw [h] at hsound
    exact hsound
  · rintro ⟨hvalid, hbytes, hend⟩
    induction row generalizing bytes with
    | nil =>
      obtain rfl : bytes = rest := hbytes
      exact tokens_of_none hend
    | cons token row ih =>
      obtain ⟨htoken, hrow⟩ := List.forall_mem_cons.mp hvalid
      rw [encode_rowText_cons] at hbytes
      rw [tokens_of_some (Token.next?_eq_some_iff.mpr ⟨htoken, hbytes⟩), ih hrow rfl]

/-- A token takes three octets at least. -/
theorem Token.Valid.three_le_length {token : Token} (h : token.Valid) :
    3 ≤ (Utf8.encode token.text).length := by
  refine Nat.le_trans ?_ (Utf8.length_le_length_encode token.text)
  cases token with
  | wind direction speed =>
    have hdirection := h.1.length
    rw [Token.text, List.length_append]
    omega
  | field f value =>
    have hvalue := Field.Value.length h
    have hwidth : 2 ≤ f.width := by cases f <;> decide
    rw [Token.text, List.length_cons]
    omega

/-- A valid token has three octets at least. -/
theorem three_mul_length_le {row : List Token} (h : ∀ token ∈ row, token.Valid) :
    3 * row.length ≤ (Utf8.encode (rowText row)).length := by
  induction row with
  | nil => exact Nat.le_refl 0
  | cons token row ih =>
    obtain ⟨htoken, hrow⟩ := List.forall_mem_cons.mp h
    have hthree := htoken.three_le_length
    have hmore := ih hrow
    rw [rowText, List.flatMap_cons, Utf8.encode_append, List.length_append, List.length_cons]
    unfold rowText at hmore
    omega

/-! ## A number somewhere in what follows -/

/-- The number of a field begins octets, behind its letter. -/
def Field.At (f : Field) (written : Text) (bytes : Bytes) : Prop :=
  f.Number written ∧ Utf8.encode (f.letter :: written) <+: bytes

/-- It does so at the first place where any number of the field does. -/
def Field.Leftmost (f : Field) (written : Text) (bytes : Bytes) : Prop :=
  ∃ offset, f.At written (bytes.drop offset) ∧
    ∀ earlier < offset, ∀ other, ¬f.At other (bytes.drop earlier)

theorem Field.not_at_nil (f : Field) (written : Text) : ¬f.At written [] := by
  rintro ⟨-, hprefix⟩
  rw [Utf8.encode_cons_ascii f.letter_ascii] at hprefix
  exact nomatch List.prefix_nil.mp hprefix

/-- A field stands at an octet if that is its letter and a number follows. -/
theorem Field.at_cons_iff {f : Field} {b : UInt8} {written : Text} :
    f.At written (b :: bytes) ↔
      ∃ rest, (if f.letter = charOfByte b then f.number? bytes else none) = some (written, rest) := by
  constructor
  · rintro ⟨hnumber, rest, hbytes⟩
    rw [Utf8.encode_cons_append f.letter_ascii] at hbytes
    obtain ⟨rfl, rfl⟩ := List.cons.inj hbytes
    refine ⟨rest, ?_⟩
    rw [Utf8.charOfByte_ofNat f.letter_ascii, if_pos rfl]
    exact Field.number?_eq_some_iff.mpr ⟨hnumber, rfl⟩
  · rintro ⟨rest, h⟩
    split at h
    · next hletter =>
      obtain ⟨hnumber, rfl⟩ := Field.number?_sound h
      refine ⟨hnumber, rest, ?_⟩
      rw [Utf8.encode_cons_append f.letter_ascii, Utf8.eq_ofNat_of_charOfByte hletter.symm]
    · contradiction

/-- What is found for a field is leftmost. -/
theorem find?_sound {f : Field} {written : Text} (h : find? f bytes = some written) :
    f.Leftmost written bytes := by
  induction bytes with
  | nil => contradiction
  | cons b more ih =>
    unfold find? at h
    split at h
    · next other rest hhead =>
      obtain rfl := Option.some.inj h
      exact ⟨0, Field.at_cons_iff.mpr ⟨rest, hhead⟩, fun earlier hlt => absurd hlt (Nat.not_lt_zero _)⟩
    · next hhead =>
      obtain ⟨offset, hat, hfirst⟩ := ih h
      refine ⟨offset + 1, hat, fun earlier hlt other hother => ?_⟩
      cases earlier with
      | zero =>
        obtain ⟨rest, hfound⟩ := Field.at_cons_iff.mp hother
        exact nomatch hhead.symm.trans hfound
      | succ earlier => exact hfirst earlier (Nat.lt_of_succ_lt_succ hlt) other hother

/-- One number at most stands at a place for a field. -/
theorem Field.At.unique {f : Field} {written other : Text} (h : f.At written bytes)
    (h' : f.At other bytes) : written = other := by
  obtain ⟨hnumber, rest, hbytes⟩ := h
  obtain ⟨hother, rest', hbytes'⟩ := h'
  have hlength : (f.letter :: written).length = (f.letter :: other).length :=
    congrArg Nat.succ (hnumber.length.trans hother.length.symm)
  exact (List.cons.inj (Utf8.encode_append_inj hlength (hbytes.trans hbytes'.symm)).1).2

/-- So one at most is leftmost. -/
theorem Field.Leftmost.unique {f : Field} {written other : Text} (h : f.Leftmost written bytes)
    (h' : f.Leftmost other bytes) : written = other := by
  obtain ⟨offset, hat, hfirst⟩ := h
  obtain ⟨offset', hat', hfirst'⟩ := h'
  rcases Nat.lt_trichotomy offset offset' with hlt | rfl | hlt
  · exact absurd hat (hfirst' offset hlt written)
  · exact hat.unique hat'
  · exact absurd hat' (hfirst offset' hlt other)

/-- **Nothing is found for a field exactly if no number of it stands anywhere.** -/
theorem find?_eq_none_iff {f : Field} :
    find? f bytes = none ↔ ∀ offset written, ¬f.At written (bytes.drop offset) := by
  constructor
  · intro h
    induction bytes with
    | nil =>
      intro offset written hat
      rw [List.drop_nil] at hat
      exact f.not_at_nil written hat
    | cons b more ih =>
      unfold find? at h
      split at h
      · contradiction
      next hhead =>
        intro offset written hat
        cases offset with
        | zero =>
          obtain ⟨rest, hfound⟩ := Field.at_cons_iff.mp hat
          exact nomatch hhead.symm.trans hfound
        | succ offset => exact ih h offset written hat
  · intro hall
    refine Option.eq_none_iff_forall_ne_some.mpr fun written h => ?_
    obtain ⟨offset, hat, -⟩ := find?_sound h
    exact hall offset written hat

/-- **What is found for a field is the leftmost number of it.** -/
theorem find?_eq_some_iff {f : Field} {written : Text} :
    find? f bytes = some written ↔ f.Leftmost written bytes := by
  constructor
  · exact find?_sound
  · intro h
    cases hfound : find? f bytes with
    | none =>
      obtain ⟨offset, hat, -⟩ := h
      exact absurd hat (find?_eq_none_iff.mp hfound offset written)
    | some other => rw [(find?_sound hfound).unique h]

end Weather

end Aprs
