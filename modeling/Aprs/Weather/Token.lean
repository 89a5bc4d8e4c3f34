import Aprs.Text.DigitRun

/-!
# Weather tokens

A weather report is a row of tokens: the wind as a direction and a speed with a slash between them,
and fields that a letter names. A field holds a number of fixed width, or as many dots or blanks
where the station has no reading. Every token takes at least one octet (`Token.next?_length`), so a
row of them ends.

Specification: 4.5 (Weather Decoder) and 12.5 (Weather).
-/

namespace Aprs.Weather

/-- The fields that a letter names. An `s` is the wind speed or the snowfall, as what came before
it tells. -/
inductive Field
  | windDirection
  | windSpeedOrSnowfall
  | windGust
  | temperature
  | rainLastHour
  | rainLastDay
  | rainSinceMidnight
  | humidity
  | pressure
  | luminosityLow
  | luminosityHigh
  | rainCounter
  deriving DecidableEq, Repr

namespace Field

/-- The letter of a field. -/
def letter : Field → Char
  | windDirection => 'c'
  | windSpeedOrSnowfall => 's'
  | windGust => 'g'
  | temperature => 't'
  | rainLastHour => 'r'
  | rainLastDay => 'p'
  | rainSinceMidnight => 'P'
  | humidity => 'h'
  | pressure => 'b'
  | luminosityLow => 'l'
  | luminosityHigh => 'L'
  | rainCounter => '#'

/-- How many digits the number of a field has. -/
def width : Field → Nat
  | humidity => 2
  | pressure => 5
  | _ => 3

/-- All fields. -/
def all : List Field :=
  [windDirection, windSpeedOrSnowfall, windGust, temperature, rainLastHour, rainLastDay,
    rainSinceMidnight, humidity, pressure, luminosityLow, luminosityHigh, rainCounter]

/-- The field that a letter names. -/
def ofLetter? (b : UInt8) : Option Field := all.find? fun f => f.letter = charOfByte b

end Field

/-- The octets behind `count` copies of one octet. -/
def fill? (b : UInt8) : (count : Nat) → Bytes → Option Bytes
  | 0, bytes => some bytes
  | _ + 1, [] => none
  | count + 1, x :: rest => if x = b then fill? b count rest else none

/-- A number of fixed width or what stands for a missing one, and the octets behind it. -/
def slot? (width : Nat) (bytes : Bytes) : Option (Text × Bytes) :=
  match Text.takeDigits? width bytes with
  | some found => some found
  | none =>
    match fill? 0x2E width bytes with
    | some rest => some (List.replicate width '.', rest)
    | none => (fill? 0x20 width bytes).map fun rest => (List.replicate width ' ', rest)

/-- The number of a field, and the octets behind it. A temperature may be negative, with one digit
less. -/
def Field.number? (f : Field) (bytes : Bytes) : Option (Text × Bytes) :=
  match f, bytes with
  | .temperature, 0x2D :: rest => (Text.takeDigits? 2 rest).map fun (t, rest) => ('-' :: t, rest)
  | f, bytes => Text.takeDigits? f.width bytes

/-- The value of a field, which may be missing unless it is the rain counter, and the octets behind
it. -/
def Field.value? (f : Field) (bytes : Bytes) : Option (Text × Bytes) :=
  match f.number? bytes with
  | some found => some found
  | none => if f = .rainCounter then none else slot? f.width bytes

/-- A piece of a weather report, its numbers as they were written. -/
inductive Token
  | wind (direction speed : Text)
  | field (name : Field) (value : Text)
  deriving DecidableEq, Repr

namespace Token

/-- The wind that octets begin with, and the octets behind it. -/
def wind? (bytes : Bytes) : Option (Token × Bytes) :=
  match slot? 3 bytes with
  | some (direction, 0x2F :: rest) =>
    (slot? 3 rest).map fun (speed, rest) => (.wind direction speed, rest)
  | _ => none

/-- The field that octets begin with, and the octets behind it. -/
def field? : Bytes → Option (Token × Bytes)
  | [] => none
  | b :: rest =>
    (Field.ofLetter? b).bind fun f => (f.value? rest).map fun (value, rest) => (.field f value, rest)

/-- The token that octets begin with, and the octets behind it. -/
def next? (bytes : Bytes) : Option (Token × Bytes) :=
  match wind? bytes with
  | some found => some found
  | none => field? bytes

end Token

/-! ## A token takes octets -/

theorem fill?_length {b : UInt8} :
    ∀ {count : Nat} {bytes rest : Bytes}, fill? b count bytes = some rest →
      rest.length + count = bytes.length := by
  intro count
  induction count with
  | zero =>
    intro bytes rest h
    simp only [fill?, Option.some.injEq] at h
    rw [h, Nat.add_zero]
  | succ count ih =>
    intro bytes rest h
    cases bytes with
    | nil => simp [fill?] at h
    | cons x more =>
      rw [fill?] at h
      split at h
      · have := ih h
        rw [List.length_cons]
        omega
      · simp at h

/-- Reading a slot takes its width at least. -/
theorem slot?_length {width : Nat} {bytes rest : Bytes} {t : Text}
    (h : slot? width bytes = some (t, rest)) : rest.length + width ≤ bytes.length := by
  unfold slot? at h
  split at h
  · next found hdigits =>
    simp only [Option.some.injEq] at h
    exact Text.takeDigits?_length (hdigits.trans (congrArg some h))
  · split at h
    · next more hfill =>
      simp only [Option.some.injEq, Prod.mk.injEq] at h
      rw [← h.2]
      exact Nat.le_of_eq (fill?_length hfill)
    · simp only [Option.map_eq_some_iff, Prod.mk.injEq] at h
      obtain ⟨more, hfill, _, rfl⟩ := h
      exact Nat.le_of_eq (fill?_length hfill)

theorem Field.number?_length {f : Field} {bytes rest : Bytes} {t : Text}
    (h : f.number? bytes = some (t, rest)) : rest.length ≤ bytes.length := by
  unfold Field.number? at h
  split at h
  · simp only [Option.map_eq_some_iff, Prod.mk.injEq] at h
    -- the minus takes an octet, so the two digits behind it leave fewer
    obtain ⟨⟨t', r⟩, hdigits, _, rfl⟩ := h
    have := Text.takeDigits?_length hdigits
    simp only [List.length_cons]
    omega
  · have := Text.takeDigits?_length h
    omega

theorem Field.value?_length {f : Field} {bytes rest : Bytes} {t : Text}
    (h : f.value? bytes = some (t, rest)) : rest.length ≤ bytes.length := by
  unfold Field.value? at h
  split at h
  · next found hnumber =>
    simp only [Option.some.injEq] at h
    exact Field.number?_length (hnumber.trans (congrArg some h))
  · split at h
    · simp at h
    · have := slot?_length h
      omega

/-- **A token takes at least one octet.** -/
theorem Token.next?_length {bytes rest : Bytes} {token : Token}
    (h : Token.next? bytes = some (token, rest)) : rest.length < bytes.length := by
  unfold Token.next? at h
  split at h
  · next found hwind =>
    simp only [Option.some.injEq] at h
    subst h
    unfold Token.wind? at hwind
    split at hwind
    · next direction more hslot =>
      -- the slash takes an octet, whatever the two numbers take
      have h₁ := slot?_length hslot
      simp only [Option.map_eq_some_iff, Prod.mk.injEq] at hwind
      obtain ⟨⟨speed, r⟩, hspeed, _, rfl⟩ := hwind
      have h₂ := slot?_length hspeed
      simp only [List.length_cons] at h₁ ⊢
      omega
    · simp at hwind
  · cases bytes with
    | nil => simp [Token.field?] at h
    | cons b more =>
      simp only [Token.field?, Option.bind_eq_some_iff, Option.map_eq_some_iff,
        Prod.mk.injEq] at h
      -- the letter takes an octet, whatever the value takes
      obtain ⟨f, _, ⟨value, r⟩, hvalue, _, rfl⟩ := h
      have := Field.value?_length hvalue
      simp only [List.length_cons]
      omega

/-- The tokens that octets begin with, one after the other, and the octets behind the last. -/
def tokens (bytes : Bytes) : List Token × Bytes :=
  match h : Token.next? bytes with
  | none => ([], bytes)
  | some (token, rest) =>
    have := Token.next?_length h
    let (more, rest) := tokens rest
    (token :: more, rest)
  termination_by bytes.length

theorem tokens_of_none {bytes : Bytes} (h : Token.next? bytes = none) :
    tokens bytes = ([], bytes) := by
  rw [tokens]
  split
  · rfl
  · next hsome => rw [h] at hsome; simp at hsome

theorem tokens_of_some {bytes rest : Bytes} {token : Token}
    (h : Token.next? bytes = some (token, rest)) :
    tokens bytes = (token :: (tokens rest).1, (tokens rest).2) := by
  rw [tokens]
  split
  · next hnone => rw [h] at hnone; simp at hnone
  · next token' rest' hsome =>
    obtain ⟨rfl, rfl⟩ := Prod.mk.inj (Option.some.inj (h.symm.trans hsome))
    rfl

/-! ## What is behind a token are the last octets -/

theorem fill?_suffix {b : UInt8} :
    ∀ {count : Nat} {bytes rest : Bytes}, fill? b count bytes = some rest → rest <:+ bytes := by
  intro count
  induction count with
  | zero =>
    intro bytes rest h
    exact ⟨[], (Option.some.inj h).symm⟩
  | succ count ih =>
    intro bytes rest h
    cases bytes with
    | nil => simp [fill?] at h
    | cons x more =>
      rw [fill?] at h
      split at h
      · exact (ih h).trans (List.suffix_cons x more)
      · simp at h

theorem slot?_suffix {width : Nat} {bytes rest : Bytes} {t : Text}
    (h : slot? width bytes = some (t, rest)) : rest <:+ bytes := by
  unfold slot? at h
  split at h
  · next found hdigits =>
    simp only [Option.some.injEq] at h
    exact Text.takeDigits?_suffix (hdigits.trans (congrArg some h))
  · split at h
    · next more hfill =>
      simp only [Option.some.injEq, Prod.mk.injEq] at h
      rw [← h.2]
      exact fill?_suffix hfill
    · simp only [Option.map_eq_some_iff, Prod.mk.injEq] at h
      obtain ⟨more, hfill, _, rfl⟩ := h
      exact fill?_suffix hfill

theorem Field.value?_suffix {f : Field} {bytes rest : Bytes} {t : Text}
    (h : f.value? bytes = some (t, rest)) : rest <:+ bytes := by
  unfold Field.value? at h
  split at h
  · next found hnumber =>
    simp only [Option.some.injEq] at h
    subst h
    unfold Field.number? at hnumber
    split at hnumber
    · next more =>
      simp only [Option.map_eq_some_iff, Prod.mk.injEq] at hnumber
      obtain ⟨⟨t', r⟩, hdigits, _, rfl⟩ := hnumber
      exact (Text.takeDigits?_suffix hdigits).trans (List.suffix_cons _ _)
    · exact Text.takeDigits?_suffix hnumber
  · split at h
    · simp at h
    · exact slot?_suffix h

/-- What is left behind a token is an end of the octets. -/
theorem Token.next?_suffix {bytes rest : Bytes} {token : Token}
    (h : Token.next? bytes = some (token, rest)) : rest <:+ bytes := by
  unfold Token.next? at h
  split at h
  · next found hwind =>
    simp only [Option.some.injEq] at h
    subst h
    unfold Token.wind? at hwind
    split at hwind
    · next direction more hslot =>
      simp only [Option.map_eq_some_iff, Prod.mk.injEq] at hwind
      obtain ⟨⟨speed, r⟩, hspeed, _, rfl⟩ := hwind
      exact ((slot?_suffix hspeed).trans (List.suffix_cons _ _)).trans (slot?_suffix hslot)
    · simp at hwind
  · cases bytes with
    | nil => simp [Token.field?] at h
    | cons b more =>
      simp only [Token.field?, Option.bind_eq_some_iff, Option.map_eq_some_iff,
        Prod.mk.injEq] at h
      obtain ⟨f, _, ⟨value, r⟩, hvalue, _, rfl⟩ := h
      exact (Field.value?_suffix hvalue).trans (List.suffix_cons b more)

/-- **The octets behind a row of tokens are the last ones.** -/
theorem tokens_suffix (bytes : Bytes) : (tokens bytes).2 <:+ bytes := by
  cases h : Token.next? bytes with
  | none => exact ⟨[], congrArg Prod.snd (tokens_of_none h)⟩
  | some found =>
    have hlt := Token.next?_length h
    rw [tokens_of_some h]
    exact (tokens_suffix found.2).trans (Token.next?_suffix h)
  termination_by bytes.length

/-! ## What is written for a field has its width -/

theorem slot?_width {width : Nat} {bytes rest : Bytes} {t : Text}
    (h : slot? width bytes = some (t, rest)) : t.length = width := by
  unfold slot? at h
  split at h
  · next found hdigits =>
    simp only [Option.some.injEq] at h
    exact Text.takeDigits?_count (hdigits.trans (congrArg some h))
  · split at h
    · simp only [Option.some.injEq, Prod.mk.injEq] at h
      rw [← h.1, List.length_replicate]
    · simp only [Option.map_eq_some_iff, Prod.mk.injEq] at h
      obtain ⟨more, _, rfl, _⟩ := h
      exact List.length_replicate

theorem Field.number?_width {f : Field} {bytes rest : Bytes} {t : Text}
    (h : f.number? bytes = some (t, rest)) : t.length = f.width := by
  unfold Field.number? at h
  split at h
  · simp only [Option.map_eq_some_iff, Prod.mk.injEq] at h
    obtain ⟨⟨t', r⟩, hdigits, rfl, _⟩ := h
    rw [List.length_cons, Text.takeDigits?_count hdigits]
    rfl
  · exact Text.takeDigits?_count h

theorem Field.value?_width {f : Field} {bytes rest : Bytes} {t : Text}
    (h : f.value? bytes = some (t, rest)) : t.length = f.width := by
  unfold Field.value? at h
  split at h
  · next found hnumber =>
    simp only [Option.some.injEq] at h
    exact Field.number?_width (hnumber.trans (congrArg some h))
  · split at h
    · simp at h
    · exact slot?_width h

/-- **The value of a field token is as wide as the field.** -/
theorem Token.next?_width {bytes rest : Bytes} {f : Field} {written : Text}
    (h : Token.next? bytes = some (.field f written, rest)) : written.length = f.width := by
  unfold Token.next? at h
  split at h
  · next found hwind =>
    rw [Option.some.inj h] at hwind
    unfold Token.wind? at hwind
    split at hwind
    · simp only [Option.map_eq_some_iff, Prod.mk.injEq] at hwind
      obtain ⟨_, _, htoken, _⟩ := hwind
      simp at htoken
    · simp at hwind
  · cases bytes with
    | nil => simp [Token.field?] at h
    | cons b more =>
      simp only [Token.field?, Option.bind_eq_some_iff, Option.map_eq_some_iff, Prod.mk.injEq,
        Token.field.injEq] at h
      obtain ⟨f', _, ⟨value, r⟩, hvalue, ⟨rfl, rfl⟩, _⟩ := h
      exact Field.value?_width hvalue

end Aprs.Weather
