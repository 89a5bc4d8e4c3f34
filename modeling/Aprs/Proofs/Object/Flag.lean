import Aprs.Proofs.Object

/-!
# Where the flag of an object is looked for

The text of an object pads the name to nine characters, and the decoder takes nine octets for the name and the
octet behind them for the flag. Only behind a name of ASCII is this the flag. Behind any other name it is one
of the octets that the field has too many, be it of the name or of its padding.

> `Object.reread_name_iff`: the text of an object is read as an object of the same name that is live or not as
> it was, exactly if the name is ASCII, or the object is not live and its name is found again all the same.

Specification: 12.7 (Objects and items).
-/

namespace Aprs

variable {α : Type} [Scalar α] {payload : Bytes} {destination : Callsign} {now : Instant}

/-! ## Room for an object -/

theorem Decimal.le_length_padded (width n : Nat) : width ≤ (padded width n).length := by
  unfold padded
  rw [List.length_append, List.length_replicate]
  omega

/-- A coordinate is no narrower than its digits. -/
theorem Position.le_length_coordinateText (axis : Axis) (ambiguity : Nat) (x : α) :
    axis.degreeDigits + 6 ≤ (coordinateText axis ambiguity x).length := by
  have hdegrees := Decimal.le_length_padded axis.degreeDigits (hundredths x / Angle.perDegree)
  have hminutes := Decimal.le_length_padded 2 (hundredths x % Angle.perDegree / 100)
  have hhundredths := Decimal.le_length_padded 2 (hundredths x % 100)
  have hblank : (coordinateText axis ambiguity x).length =
      (angleText axis (hundredths x) (Scalar.isNegative x)).length := length_blank _ _
  rw [hblank, angleText]
  simp only [List.length_append, List.length_cons, List.length_nil]
  omega

/-- A position takes nineteen characters at least. -/
theorem Position.le_length_text (p : Position α) : 19 ≤ p.text.length := by
  have hlatitude : 2 + 6 ≤ p.latitudeText.length := le_length_coordinateText .latitude _ _
  have hlongitude : 3 + 6 ≤ p.longitudeText.length := le_length_coordinateText .longitude _ _
  unfold text
  simp only [List.length_append, List.length_cons, List.length_nil]
  omega

namespace Object

variable {object : Object α} {cursor : Nat}

/-- A timestamp is written in seven characters at least. -/
theorem le_length_timeText (t : Timestamp) : 7 ≤ (timeText t).length := by
  have htwo (n : Nat) : 2 ≤ (Decimal.padded 2 n).length := Decimal.le_length_padded 2 n
  have hthree (a b c : Nat) (letter : Char) :
      7 ≤ (Decimal.padded 2 a ++ Decimal.padded 2 b ++ Decimal.padded 2 c ++ [letter]).length := by
    have ha := htwo a
    have hb := htwo b
    have hc := htwo c
    simp only [List.length_append, List.length_cons, List.length_nil]
    omega
  unfold timeText
  dsimp only
  split <;> exact hthree _ _ _ _

/-- The name of an object that was read is a name that is read. -/
theorem isRead_of_decode (h : decode payload destination now = .ok (object, cursor)) :
    IsRead object.name := by
  rw [(decode_eq_ok h).1]
  exact isRead_of_octets (List.length_take_le 9 _)

/-! ## The text of an object read again -/

/-- Whether the name of an object and its flag come through its text. -/
def ComesThrough (object : Object α) : Prop :=
  (∀ c ∈ object.name, c.toNat < 0x80) ∨ object.live = false ∧ IsFoundAgain object.name

/-- The text of an object that was read is long enough to be read as one. -/
theorem le_length_text (h : IsRead object.name) : minLength ≤ object.text.length := by
  have hname := Text.length_padRight h.length_le
  have htime := le_length_timeText object.time
  have hposition := object.report.position.le_length_text
  have hminimum : minLength = 30 := rfl
  have hwidth : nameWidth = 9 := rfl
  unfold text
  simp only [List.length_append, List.length_cons]
  omega

/-- The text of an object is read as an object, whatever octets are in its name. The name is what the first
nine octets of its field tell, and the octet behind these tells whether it is live. -/
theorem exists_decode_text (h : IsRead object.name) (destination : Callsign) (now : Instant) :
    ∃ (again : Object α) (cursor : Nat),
      decode (Utf8.encode object.text) destination now = .ok (again, cursor) ∧
      again.name = Text.trim (Utf8.lossy ((nameField object.name).take nameWidth)) ∧
      again.live = ((nameField object.name ++ [flag object.live])[nameWidth]? == some 0x2A) := by
  have hroom : minLength ≤ (Utf8.encode object.text).length :=
    Nat.le_trans (le_length_text h) (Utf8.length_le_length_encode object.text)
  have hfield := h.le_length_nameField
  refine ⟨_, _, decode_eq hroom, ?_, ?_⟩
  · rw [encode_text]
    show Text.trim (Utf8.lossy ((nameField object.name ++ _).take nameWidth)) = _
    rw [List.take_append_of_le_length hfield]
  · rw [encode_text]
    show ((nameField object.name ++ flag object.live :: _).getD nameWidth 0 == 0x2A) = _
    have hplace : nameWidth < (nameField object.name ++ [flag object.live]).length := by
      rw [List.length_append]
      exact Nat.lt_succ_of_le hfield
    rw [List.append_cons, List.getD_eq_getElem?_getD, List.getElem?_append_left hplace,
      List.getElem?_eq_getElem hplace]
    rfl

/-- **The name and the flag of an object come through its text** exactly if the name is ASCII, or the object
is not live and its name is found again in a field that is too wide. -/
theorem reread_name_iff (h : decode payload destination now = .ok (object, cursor))
    (destination' : Callsign) (now' : Instant) :
    ((nameField object.name).length = nameWidth ↔ ∀ c ∈ object.name, c.toNat < 0x80) ∧
      ∃ (again : Object α) (cursor' : Nat),
        decode (Utf8.encode object.text) destination' now' = .ok (again, cursor') ∧
        (again.name = object.name ↔ IsFoundAgain object.name) ∧
        (again.name = object.name ∧ again.live = object.live ↔ ComesThrough object) := by
  have hread := isRead_of_decode h
  obtain ⟨again, cursor', hagain, hname, hlive⟩ := exists_decode_text hread destination' now'
  have hfound : again.name = object.name ↔ IsFoundAgain object.name :=
    hname ▸ hread.trim_lossy_take_iff
  refine ⟨hread.length_nameField_iff, again, cursor', hagain, hfound, ?_⟩
  rw [hfound]
  by_cases hascii : ∀ c ∈ object.name, c.toNat < 0x80
  · have hwidth := hread.length_nameField_iff.mpr hascii
    have hfits : IsFoundAgain object.name :=
      Or.inl (Utf8.length_encode_ascii hascii ▸ hread.length_le)
    have hsame : again.live = object.live := by
      rw [hlive, ← hwidth, List.getElem?_concat_length]
      exact flag_beq object.live
    exact iff_of_true ⟨hfits, hsame⟩ (Or.inl hascii)
  · have hwide : nameWidth < (nameField object.name).length :=
      Nat.lt_of_le_of_ne hread.le_length_nameField fun hwidth =>
        hascii (hread.length_nameField_iff.mp hwidth.symm)
    rw [List.getElem?_append_left hwide] at hlive
    unfold ComesThrough
    rw [or_iff_right hascii, and_comm (a := object.live = false)]
    refine and_congr_right fun hagain => ?_
    rw [hlive, beq_false_of_ne hagain.octet_ne]
    exact eq_comm

/-- An object that is not live comes through with a name that takes ten octets: what is taken for its flag is
a blank of the padding. -/
theorem reread_name_not_live :
    let payload := Utf8.encode ";\u00e9       _092345z4903.50N/07201.75W>".toList
    let aprs := Callsign.parse "APRS".toList
    ∃ (object : Object Exact) (cursor : Nat), decode payload aprs .epoch = .ok (object, cursor) ∧
      (nameField object.name).length = 10 ∧ ComesThrough object ∧
      ((nameField object.name).length = nameWidth ↔ ∀ c ∈ object.name, c.toNat < 0x80) ∧
      ∃ (again : Object Exact) (cursor' : Nat),
        decode (Utf8.encode object.text) aprs .epoch = .ok (again, cursor') ∧
        (again.name = object.name ↔ IsFoundAgain object.name) ∧
        (again.name = object.name ∧ again.live = object.live ↔ ComesThrough object) := by
  intro payload aprs
  have hroom : minLength ≤ payload.length := by decide
  refine ⟨_, _, decode_eq hroom, by decide +kernel, ?_, ?_⟩
  · exact Or.inr ⟨by decide +kernel, Or.inl (by decide +kernel)⟩
  · exact reread_name_iff (decode_eq hroom) aprs .epoch

/-- A live object with the same name is read from its text as one that is not live, and without a timestamp:
the name has nine characters with its padding, and ten octets. -/
theorem reread_name_shifted :
    let payload := Utf8.encode ";\u00e9       *092345z4903.50N/07201.75W>".toList
    let aprs := Callsign.parse "APRS".toList
    ∃ (object : Object Exact) (cursor : Nat), decode payload aprs .epoch = .ok (object, cursor) ∧
      object.time.fault = none ∧ object.report.fault = none ∧ object.report.source = .uncompressed ∧
      object.live = true ∧ (nameField object.name).length = 10 ∧
      ∃ (again : Object Exact) (cursor' : Nat),
        decode (Utf8.encode object.text) aprs .epoch = .ok (again, cursor') ∧
        again.name = object.name ∧ again.live = false ∧ again.time.fault ≠ none := by
  intro payload aprs
  have hroom : minLength ≤ payload.length := by decide
  refine ⟨_, _, decode_eq hroom, by decide +kernel, by decide +kernel, by decide +kernel,
    by decide +kernel, by decide +kernel, ?_⟩
  exact ⟨_, _, decode_eq (by decide +kernel), by decide +kernel, by decide +kernel, by decide +kernel⟩

end Object

end Aprs
