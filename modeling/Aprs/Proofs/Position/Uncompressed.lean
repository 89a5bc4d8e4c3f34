import Aprs.Position.Decode
import Aprs.Proofs.Position.Angle
import Aprs.Proofs.Position.Text
import Aprs.Text.Utf8.RoundTrip

/-!
# Uncompressed positions are read as they are written

Reading puts zeros where the text of a position has blanks, so what is read is no more than what was
written (`angle_coordinateText`) and stays within the limits of a coordinate. Its digits are those that
the blanks left, its sign is that of the letter even at zero, and so it is written alike again
(`coordinateText_kept`):

> `text_roundTrip`: the text of a position on the earth is read without fault as a position with the same
> text, and an ambiguity does no more to the text than to blank the last digits of the minutes.

Specification: 4.3 (Position Decoder) and 12.2 (Position rendering and geometry).
-/

namespace Aprs

namespace Position

/-- What an ambiguity leaves of a coordinate: the digits that it blanks are zero. -/
def kept {α : Type} [Scalar α] (ambiguity : Nat) (x : α) : Angle where
  degrees := hundredths x / 6000
  hundredths := Angle.truncate ambiguity (hundredths x % 6000)
  negative := Scalar.isNegative x

section

variable {α : Type} [Scalar α]

theorem hundredths_kept_lt (ambiguity : Nat) (x : α) : (kept ambiguity x).hundredths < 6000 :=
  Nat.lt_of_le_of_lt (Angle.truncate_le _ _) (Nat.mod_lt _ (by decide))

/-- What is left is no more than the coordinate was. -/
theorem kept_le (ambiguity : Nat) (x : α) :
    (kept ambiguity x).degrees * 6000 + (kept ambiguity x).hundredths ≤ hundredths x := by
  have hdegrees : (kept ambiguity x).degrees = hundredths x / 6000 := rfl
  have hminutes : (kept ambiguity x).hundredths ≤ hundredths x % 6000 := Angle.truncate_le _ _
  omega

end

/-- What is left of a coordinate is found again in its value. -/
theorem hundredths_value_kept {axis : Axis} {x : Exact} (h : hundredths x ≤ axis.limit * 6000)
    (ambiguity : Nat) :
    hundredths (roundPlaces ((kept ambiguity x).value : Exact)) =
      (kept ambiguity x).degrees * 6000 + (kept ambiguity x).hundredths := by
  have hlimit : axis.limit * 6000 ≤ Scalar.word32 := by cases axis <;> decide
  exact hundredths_roundPlaces_eq (kept ambiguity x).abs_value
    (Nat.le_trans (kept_le ambiguity x) (Nat.le_trans h hlimit))

/-- Digits that are disregarded have no part in what is written if they are blanked. -/
theorem blankedDigits_truncate {disregarded ambiguity : Nat} (hdisregarded : disregarded ≤ ambiguity)
    (h : ambiguity ≤ 4) (minutes : Nat) :
    blankedDigits ambiguity (Angle.truncate disregarded minutes) = blankedDigits ambiguity minutes := by
  have hpow : Nat.pow 10 ambiguity = Nat.pow 10 disregarded * Nat.pow 10 (ambiguity - disregarded) := by
    have hsplit := Nat.pow_add 10 disregarded (ambiguity - disregarded)
    rw [Nat.add_sub_cancel' hdisregarded] at hsplit
    exact hsplit
  have hcancel : minutes / Nat.pow 10 disregarded * Nat.pow 10 disregarded / Nat.pow 10 ambiguity =
      minutes / Nat.pow 10 ambiguity := by
    have hpos : 0 < Nat.pow 10 disregarded := Nat.pow_pos (by decide)
    rw [hpow, ← Nat.div_div_eq_div_mul, ← Nat.div_div_eq_div_mul, Nat.mul_div_cancel _ hpos]
  rw [blankedDigits_eq h, blankedDigits_eq h, Angle.truncate_eq (Nat.le_trans hdisregarded h), hcancel]

/-- **What is left of a coordinate is written as the coordinate is.** -/
theorem coordinateText_kept {axis : Axis} {ambiguity : Nat} {x : Exact} (hambiguity : ambiguity ≤ 4)
    (h : hundredths x ≤ axis.limit * 6000) :
    coordinateText axis ambiguity (roundPlaces ((kept ambiguity x).value : Exact)) =
      coordinateText axis ambiguity x := by
  have hwritten := hundredths_value_kept h ambiguity
  have hle := kept_le ambiguity x
  have hlt := hundredths_kept_lt ambiguity x
  have hdegrees : hundredths (roundPlaces ((kept ambiguity x).value : Exact)) / 6000 =
      (kept ambiguity x).degrees := by omega
  have hminutes : hundredths (roundPlaces ((kept ambiguity x).value : Exact)) % 6000 =
      (kept ambiguity x).hundredths := by omega
  have hsign : Scalar.isNegative (roundPlaces ((kept ambiguity x).value : Exact)) =
      Scalar.isNegative x := (negative_roundPlaces _).trans (Angle.negative_value _)
  rw [coordinateText_eq hambiguity (by omega), coordinateText_eq hambiguity h, hdegrees, hminutes, hsign]
  show coordinate _ (blankedDigits ambiguity (Angle.truncate ambiguity _)) _ = _
  rw [blankedDigits_truncate (Nat.le_refl _) hambiguity]
  rfl

end Position

namespace Uncompressed

variable {α : Type} [Scalar α]

/-! ## Coordinates -/

/-- **Digits are read with zeros for the blanks behind them**, which are counted, and nothing else is. -/
theorem unblank_eq_ok_iff {field minutes : Bytes} {blanks : Nat} :
    unblank field = .ok (minutes, blanks) ↔
      ∃ digits, field = digits ++ List.replicate blanks 0x20 ∧ (∀ b ∈ digits, b ≠ 0x20) ∧
        minutes = digits ++ List.replicate blanks 0x30 := by
  have htrailing (count : Nat) := @Angle.trailing_iff _ (fun b : UInt8 => b = 0x20) field count
  have hcontains (kept : Bytes) : kept.contains 0x20 = kept.any fun b : UInt8 => b = 0x20 := by
    rw [Bool.eq_iff_iff, List.contains_iff_mem, List.any_eq_true]
    exact ⟨fun h => ⟨_, h, decide_eq_true rfl⟩, fun ⟨_, hb, h⟩ => of_decide_eq_true h ▸ hb⟩
  unfold unblank
  dsimp only
  rw [hcontains]
  constructor
  · intro h
    split at h
    · contradiction
    next hgap =>
      obtain ⟨hminutes, hblanks⟩ := Prod.mk.inj (Except.ok.inj h)
      rw [hblanks] at hgap hminutes
      obtain ⟨digits, back, rfl, hcount, hdigits, hback⟩ :=
        (htrailing blanks).mp ⟨hblanks, Bool.eq_false_iff.mpr hgap⟩
      have hblank : back = List.replicate blanks 0x20 :=
        List.eq_replicate_iff.mpr ⟨hcount, fun b hb => of_decide_eq_true (hback b hb)⟩
      refine ⟨digits, by rw [hblank], fun b hb => of_decide_eq_false (hdigits b hb), ?_⟩
      rw [← hminutes, List.length_append, hcount, Nat.add_sub_cancel, List.take_left' rfl]
  · rintro ⟨digits, rfl, hdigits, rfl⟩
    obtain ⟨hcount, hgap⟩ := (htrailing blanks).mpr ⟨digits, _, rfl, List.length_replicate,
      fun b hb => decide_eq_false (hdigits b hb),
      fun b hb => decide_eq_true (List.eq_of_mem_replicate hb)⟩
    rw [hcount, hgap, List.length_append, List.length_replicate, Nat.add_sub_cancel,
      List.take_left' rfl]
    rfl

/-- The minutes with blanks for their last digits are read as those with zeros. -/
theorem unblank_blankedDigits {ambiguity : Nat} (h : ambiguity ≤ 4) (minutes : Nat) :
    unblank (Utf8.encode (Position.blankedDigits ambiguity minutes)) =
      .ok (Utf8.encode (Decimal.lowDigits 4 (Angle.truncate ambiguity minutes)), ambiguity) := by
  have hreplicate (c : Char) (hc : c.toNat < 0x80) : Utf8.encode (List.replicate ambiguity c) =
      List.replicate ambiguity (UInt8.ofNat c.toNat) := by
    rw [Utf8.encode_ascii, List.map_replicate]
    intro x hx
    rw [List.eq_of_mem_replicate hx]
    exact hc
  have hzeros : Decimal.lowDigits 4 (Angle.truncate ambiguity minutes) =
      Decimal.lowDigits (4 - ambiguity) (minutes / Nat.pow 10 ambiguity) ++
        List.replicate ambiguity '0' := by
    rw [Angle.truncate_eq h, ← Decimal.lowDigits_mul_pow, Nat.sub_add_cancel h]
  rw [Position.blankedDigits_eq h, hzeros, Utf8.encode_append, Utf8.encode_append,
    hreplicate ' ' (by decide), hreplicate '0' (by decide)]
  refine unblank_eq_ok_iff.mpr ⟨_, rfl, ?_, rfl⟩
  rintro b hb rfl
  exact absurd (Decimal.digit_of_mem_encode_lowDigits _ _ _ hb).1 (by decide)

/-- A coordinate whose parts can be read and lie within the limits is read. -/
theorem angle_eq_ok {axis : Axis} {blanks whole hundredths : Nat} {negative : Bool}
    {degrees minutes : Bytes} {a b c d letter : UInt8} (disregarded : Nat)
    (hlength : degrees.length = axis.degreeDigits) (hdegrees : Decimal.field? degrees = some whole)
    (hunblank : unblank [a, b, c, d] = .ok (minutes, blanks))
    (hminutes : Decimal.field? minutes = some hundredths)
    (hlimit : ¬(axis.limit < whole ∨ Angle.perDegree ≤ Angle.truncate disregarded hundredths ∨
      axis.limit * Angle.perDegree < whole * Angle.perDegree + Angle.truncate disregarded hundredths))
    (hletter : axis.negative? letter = some negative) :
    angle axis disregarded (degrees ++ [a, b, 0x2E, c, d, letter]) =
      .ok (⟨whole, Angle.truncate disregarded hundredths, negative⟩, blanks) := by
  have hnumber {field : Bytes} {n : Nat} (h : Decimal.field? field = some n) :
      number field = .ok n := by
    unfold number
    rw [h]
  unfold angle
  rw [List.take_left' hlength, List.drop_left' hlength]
  simp only [hunblank, hnumber hdegrees, hnumber hminutes, hletter, bind, Except.bind]
  rw [if_neg hlimit]
  rfl

/-- The octets of a coordinate: those of its degrees, of its minutes with a point in the middle, and
of its letter. -/
theorem encode_coordinateText {axis : Axis} {ambiguity : Nat} {x : α} (hambiguity : ambiguity ≤ 4)
    (h : Position.hundredths x ≤ axis.limit * 6000) :
    ∃ a b c d letter : UInt8, axis.negative? letter = some (Scalar.isNegative x) ∧
      Utf8.encode (Position.blankedDigits ambiguity (Position.hundredths x % 6000)) = [a, b, c, d] ∧
      Utf8.encode (Position.coordinateText axis ambiguity x) =
        Utf8.encode (Decimal.lowDigits axis.degreeDigits (Position.hundredths x / 6000)) ++
          [a, b, 0x2E, c, d, letter] := by
  have hletter : (axis.letter (Scalar.isNegative x)).toNat < 0x80 ∧
      axis.negative? (UInt8.ofNat (axis.letter (Scalar.isNegative x)).toNat) = some (Scalar.isNegative x) := by
    cases axis <;> cases Scalar.isNegative x <;> decide
  rw [Position.coordinateText_eq hambiguity h]
  generalize Decimal.lowDigits axis.degreeDigits (Position.hundredths x / 6000) = degrees
  have hlength := Position.length_blankedDigits hambiguity (Position.hundredths x % 6000)
  have hascii := Position.blankedDigits_ascii ambiguity (Position.hundredths x % 6000)
  match Position.blankedDigits ambiguity (Position.hundredths x % 6000), hlength, hascii with
  | [a, b, c, d], _, hascii =>
    have hbehind : ∀ y ∈ [a, b, '.', c, d, axis.letter (Scalar.isNegative x)], y.toNat < 0x80 := by
      simp only [List.forall_mem_cons] at hascii ⊢
      obtain ⟨ha, hb, hc, hd, -⟩ := hascii
      exact ⟨ha, hb, by decide, hc, hd, hletter.1, fun y hy => absurd hy List.not_mem_nil⟩
    refine ⟨_, _, _, _, _, hletter.2, Utf8.encode_ascii hascii, ?_⟩
    rw [Position.coordinate_four, Utf8.encode_append, Utf8.encode_ascii hbehind]
    rfl

/-- **A coordinate is read as it is written**, with zeros for the digits that its ambiguity blanks. -/
theorem angle_coordinateText {axis : Axis} {ambiguity disregarded : Nat} {x : α}
    (hambiguity : ambiguity ≤ 4) (hdisregarded : disregarded ≤ ambiguity)
    (h : Position.hundredths x ≤ axis.limit * 6000) :
    angle axis disregarded (Utf8.encode (Position.coordinateText axis ambiguity x)) =
      .ok (Position.kept ambiguity x, ambiguity) := by
  obtain ⟨a, b, c, d, letter, hletter, hfour, hfield⟩ := encode_coordinateText hambiguity h
  have hunblank := unblank_blankedDigits hambiguity (Position.hundredths x % 6000)
  rw [hfour] at hunblank
  have hfew : 0 < axis.degreeDigits ∧ axis.degreeDigits ≤ 9 := by cases axis <;> decide
  have hlt := Position.hundredths_kept_lt ambiguity x
  have hle := Position.kept_le ambiguity x
  have hdegrees := Decimal.field?_lowDigits hfew.1 hfew.2 (Position.degrees_lt h)
  have hminutes := Decimal.field?_lowDigits (n := (Position.kept ambiguity x).hundredths)
    (show 0 < 4 by decide) (by decide) (Nat.lt_trans hlt (by decide))
  -- the digits that are disregarded are zero already
  have hzero : Angle.truncate disregarded (Position.kept ambiguity x).hundredths =
      (Position.kept ambiguity x).hundredths := Angle.truncate_truncate hdisregarded _
  have hlimit : ¬(axis.limit < (Position.kept ambiguity x).degrees ∨
      6000 ≤ Angle.truncate disregarded (Position.kept ambiguity x).hundredths ∨
      axis.limit * 6000 < (Position.kept ambiguity x).degrees * 6000 +
        Angle.truncate disregarded (Position.kept ambiguity x).hundredths) := by
    rw [hzero]
    omega
  rw [hfield, angle_eq_ok disregarded (Decimal.length_encode_lowDigits _ _) hdegrees hunblank hminutes
    hlimit hletter, hzero]
  rfl

theorem length_encode_coordinateText {axis : Axis} {ambiguity : Nat} {x : α}
    (hambiguity : ambiguity ≤ 4) (h : Position.hundredths x ≤ axis.limit * 6000) :
    (Utf8.encode (Position.coordinateText axis ambiguity x)).length = axis.degreeDigits + 6 := by
  obtain ⟨a, b, c, d, letter, -, -, hfield⟩ := encode_coordinateText hambiguity h
  rw [hfield, List.length_append, Decimal.length_encode_lowDigits]
  rfl

/-- A coordinate begins with a digit. -/
theorem exists_digit_encode_coordinateText {axis : Axis} {ambiguity : Nat} {x : α}
    (hambiguity : ambiguity ≤ 4) (h : Position.hundredths x ≤ axis.limit * 6000) :
    ∃ (b : UInt8) (rest : Bytes), Utf8.encode (Position.coordinateText axis ambiguity x) = b :: rest ∧
      0x30 ≤ b.toNat ∧ b.toNat ≤ 0x39 := by
  obtain ⟨_, _, _, _, _, -, -, hfield⟩ := encode_coordinateText hambiguity h
  have hlength := Decimal.length_encode_lowDigits axis.degreeDigits (Position.hundredths x / 6000)
  have hdigits :=
    Decimal.digit_of_mem_encode_lowDigits axis.degreeDigits (Position.hundredths x / 6000)
  rw [hfield]
  cases hdegrees : Utf8.encode (Decimal.lowDigits axis.degreeDigits (Position.hundredths x / 6000)) with
  | nil =>
    rw [hdegrees] at hlength
    cases axis <;> exact absurd hlength (by decide)
  | cons b rest =>
    rw [hdegrees] at hdigits
    exact ⟨b, _, rfl, hdigits b List.mem_cons_self⟩

/-! ## Positions -/

/-- What is read where both coordinates can be: the position, with the extension and the altitude behind
it. -/
def readBehind (payload : Bytes) (start : Nat) (symbol : UInt8) (position : Position α) :
    PositionReport α × Nat :=
  let extension := Extension.ofUncompressed? payload (start + width) symbol
  let cursor := start + width + if extension.isSome then Extension.width else 0
  let altitude :=
    if symbol = Extension.weatherSymbol then none else Altitude.ofComment? (payload.drop cursor)
  let report := PositionReport.plain { position with altitude } .uncompressed
  ({ report with extension }, cursor)

/-- Two coordinates that can be read are a position, whatever stands behind them. -/
theorem decode_eq_ok {payload first second rest : Bytes} {table code : UInt8}
    {start ambiguity blanks : Nat} {latitude longitude : Angle}
    (hpayload : payload.drop start = first ++ table :: second ++ code :: rest)
    (hfirst : first.length = 8) (hsecond : second.length = 9)
    (hlatitude : angle .latitude 0 first = .ok (latitude, ambiguity))
    (hlongitude : angle .longitude ambiguity second = .ok (longitude, blanks))
    (instant : Instant) :
    decode (α := α) payload start instant =
      readBehind payload start code (Position.make latitude.value longitude.value ambiguity
        (charOfByte table) (charOfByte code) instant) := by
  have hlength : (first ++ table :: second ++ [code]).length = 19 := by
    simp only [List.length_append, List.length_cons, List.length_nil, hfirst, hsecond]
  have hfield : (payload.drop start).take width = first ++ table :: second ++ [code] := by
    have hsplit : first ++ table :: second ++ code :: rest =
        (first ++ table :: second ++ [code]) ++ rest := by
      rw [List.append_assoc _ [code] rest]
      rfl
    rw [hpayload, hsplit]
    exact List.take_left' hlength
  have hroom : ¬(first ++ table :: second ++ [code]).length < width :=
    hlength ▸ Nat.lt_irrefl 19
  have htable : (first ++ table :: second ++ [code]).getD 8 0 = table := by
    simp [List.getD_eq_getElem?_getD, hfirst]
  have hcode : (first ++ table :: second ++ [code]).getD 18 0 = code := by
    simp [List.getD_eq_getElem?_getD, hfirst, hsecond]
  have htake : (first ++ table :: second ++ [code]).take 8 = first := by
    rw [List.append_assoc]
    exact List.take_left' hfirst
  have hdrop : ((first ++ table :: second ++ [code]).drop 9).take 9 = second := by
    have hsplit : first ++ table :: second ++ [code] = (first ++ [table]) ++ (second ++ [code]) := by
      simp only [List.append_assoc, List.cons_append, List.nil_append]
    have hlength : (first ++ [table]).length = 9 := by
      rw [List.length_append, hfirst]
      rfl
    rw [hsplit, List.drop_left' hlength, List.take_left' hsecond]
  unfold decode
  dsimp only
  rw [hfield, if_neg hroom, htable, hcode, htake, hdrop, hlatitude]
  dsimp only [ambiguityOrZero]
  rw [hlongitude]
  rfl

/-- The octets of the text of a position: those of its latitude, its symbol table, its longitude and its symbol
code. -/
theorem encode_text {p : Position α} (htable : p.table.toNat < 0x80) (hcode : p.code.toNat < 0x80) :
    Utf8.encode p.text = Utf8.encode p.latitudeText ++ UInt8.ofNat p.table.toNat ::
      Utf8.encode p.longitudeText ++ [UInt8.ofNat p.code.toNat] := by
  unfold Position.text
  rw [Utf8.encode_append, Utf8.encode_append, Utf8.encode_cons_ascii htable,
    Utf8.encode_cons_ascii hcode]
  rfl

theorem length_encode_text {p : Position α} (h : p.Writable) (htable : p.table.toNat < 0x80)
    (hcode : p.code.toNat < 0x80) : (Utf8.encode p.text).length = width := by
  have hlatitude : (Utf8.encode p.latitudeText).length = 8 :=
    length_encode_coordinateText h.ambiguity h.latitude
  have hlongitude : (Utf8.encode p.longitudeText).length = 9 :=
    length_encode_coordinateText h.ambiguity h.longitude
  rw [encode_text htable hcode, List.length_append, List.length_append, List.length_cons, hlatitude,
    hlongitude]
  rfl

/-- **A position within its limits is read from its text** as what its ambiguity leaves of it. -/
theorem decode_text {payload rest : Bytes} {start : Nat} {p : Position α} (h : p.Writable)
    (htable : p.table.toNat < 0x80) (hcode : p.code.toNat < 0x80)
    (hpayload : payload.drop start = Utf8.encode p.text ++ rest) (instant : Instant) :
    decode (α := α) payload start instant =
      readBehind payload start (UInt8.ofNat p.code.toNat)
        (Position.make (Position.kept p.ambiguity p.latitude).value
          (Position.kept p.ambiguity p.longitude).value p.ambiguity p.table p.code instant) := by
  have hoctets : payload.drop start = Utf8.encode p.latitudeText ++ UInt8.ofNat p.table.toNat ::
      Utf8.encode p.longitudeText ++ UInt8.ofNat p.code.toNat :: rest := by
    rw [hpayload, encode_text htable hcode, List.append_assoc _ [_] rest]
    rfl
  have hread := decode_eq_ok (α := α) hoctets (length_encode_coordinateText h.ambiguity h.latitude)
    (length_encode_coordinateText h.ambiguity h.longitude)
    (angle_coordinateText h.ambiguity (Nat.zero_le _) h.latitude)
    (angle_coordinateText h.ambiguity (Nat.le_refl _) h.longitude) instant
  rw [Utf8.charOfByte_ofNat htable, Utf8.charOfByte_ofNat hcode] at hread
  exact hread

end Uncompressed

namespace PositionReport

/-- A digit begins an uncompressed position. -/
theorem decodePlain_digit {α : Type} [Scalar α] {payload : Bytes} {start : Nat} {b : UInt8}
    (hplace : payload[start]? = some b) (hdigit : 0x30 ≤ b.toNat ∧ b.toNat ≤ 0x39) (instant : Instant) :
    decodePlain (α := α) payload start instant = Uncompressed.decode payload start instant := by
  have hcompressed : opensCompressed b = false := by
    unfold opensCompressed
    simp only [Bool.or_eq_false_iff, Bool.and_eq_false_iff, decide_eq_false_iff_not]
    omega
  have hisDigit : Decimal.isDigit b = true := by
    unfold Decimal.isDigit Decimal.digit?
    rw [if_pos hdigit]
    rfl
  unfold decodePlain
  rw [hplace]
  dsimp only
  rw [hcompressed, hisDigit]
  rfl

/-- The text of a position within its limits begins with a digit. -/
theorem decodePlain_text {α : Type} [Scalar α] {payload rest : Bytes} {start : Nat} {p : Position α}
    (h : p.Writable) (hpayload : payload.drop start = Utf8.encode p.text ++ rest) (instant : Instant) :
    decodePlain (α := α) payload start instant = Uncompressed.decode payload start instant := by
  obtain ⟨b, more, hopening, hdigit⟩ :=
    Uncompressed.exists_digit_encode_coordinateText (α := α) h.ambiguity h.latitude
  refine decodePlain_digit ?_ hdigit instant
  have hfirst : (payload.drop start)[0]? = some b := by
    rw [hpayload]
    unfold Position.text Position.latitudeText
    rw [Utf8.encode_append, Utf8.encode_append, hopening]
    rfl
  rw [List.getElem?_drop] at hfirst
  exact hfirst

end PositionReport

namespace Position

/-- A report gives a position back if it is without fault, has the symbol of the position, and is
written alike. -/
structure GivenBack (p : Position Exact) (report : PositionReport Exact) : Prop where
  fault : report.fault = none
  source : report.source = .uncompressed
  ambiguity : report.position.ambiguity = p.ambiguity
  table : report.position.table = p.table
  code : report.position.code = p.code
  text : report.position.text = p.text

/-- The text of a position is read as a position that is written alike. -/
theorem givenBack_decode {p : Position Exact} (h : p.Writable) (htable : p.table.toNat < 0x80)
    (hcode : p.code.toNat < 0x80) (rest : Bytes) (destination : Callsign) (instant : Instant) :
    p.GivenBack
      (PositionReport.decode (Utf8.encode ('!' :: p.text) ++ rest) 1 destination instant).1 := by
  have hpayload : Utf8.encode ('!' :: p.text) ++ rest = 0x21 :: (Utf8.encode p.text ++ rest) := by
    rw [Utf8.encode_cons_ascii (by decide)]
    rfl
  have hread : (PositionReport.decode (Utf8.encode ('!' :: p.text) ++ rest) 1 destination instant).1 =
      (Uncompressed.decode (α := Exact) (0x21 :: (Utf8.encode p.text ++ rest)) 1 instant).1 := by
    rw [hpayload]
    exact congrArg Prod.fst (PositionReport.decodePlain_text h rfl instant)
  rw [hread, Uncompressed.decode_text h htable hcode rfl]
  have hgreatest : min p.ambiguity Angle.maxAmbiguity = p.ambiguity := Nat.min_eq_left h.ambiguity
  refine ⟨rfl, rfl, hgreatest, rfl, rfl, ?_⟩
  show coordinateText .latitude (min p.ambiguity Angle.maxAmbiguity) (roundPlaces _) ++
    p.table :: coordinateText .longitude (min p.ambiguity Angle.maxAmbiguity) (roundPlaces _) ++
      [p.code] = p.text
  rw [hgreatest, coordinateText_kept h.ambiguity h.latitude,
    coordinateText_kept h.ambiguity h.longitude]
  rfl

/-- **A position is read from its text as one that is written alike**, wherever on the earth it was
made, how exactly it is told, and whatever stands behind it. The text is the one without ambiguity in
which the last digits of the minutes, as many of either coordinate as the ambiguity says, are blank. -/
theorem text_roundTrip {latitude longitude : Exact} {ambiguity : Nat} {table code : Char}
    (hlatitude : -90 ≤ latitude.value ∧ latitude.value ≤ 90)
    (hlongitude : -180 ≤ longitude.value ∧ longitude.value ≤ 180) (hambiguity : ambiguity ≤ 4)
    (htable : table.toNat < 0x80) (hcode : code.toNat < 0x80) (made received : Instant)
    (destination : Callsign) (rest : Bytes) :
    let p : Position Exact := make latitude longitude ambiguity table code made
    let plain : Position Exact := make latitude longitude 0 table code made
    let report : PositionReport Exact :=
      (PositionReport.decode (Utf8.encode ('!' :: p.text) ++ rest) 1 destination received).1
    (report.fault = none ∧ report.source = .uncompressed ∧ report.position.ambiguity = ambiguity ∧
        report.position.table = table ∧ report.position.code = code ∧
        report.position.text = p.text) ∧
      plain.text.length = 19 ∧
      (∀ place ∈ blankedPlaces 4, ∃ c, plain.text[place]? = some c ∧ c.isDigit) ∧
      ∀ place, p.text[place]? =
        if place ∈ blankedPlaces ambiguity then some ' ' else plain.text[place]? := by
  intro p plain report
  have hsmall : Exact.abs latitude.value ≤ 90 := Exact.abs_le hlatitude.1 hlatitude.2
  have hwide : Exact.abs longitude.value ≤ 180 := Exact.abs_le hlongitude.1 hlongitude.2
  have hp : p.Writable := make_writable hsmall hwide ambiguity table code made
  have hplain : plain.Writable := make_writable hsmall hwide 0 table code made
  have hkept : p.ambiguity = ambiguity := Nat.min_eq_left hambiguity
  have hgiven := givenBack_decode hp htable hcode rest destination received
  refine ⟨⟨hgiven.fault, hgiven.source, hgiven.ambiguity.trans hkept, hgiven.table, hgiven.code,
    hgiven.text⟩, length_text hplain, fun place => digit_of_mem_blankedPlaces hp, fun place => ?_⟩
  have hblanked : p.text = blank (blankedPlaces ambiguity) plain.text := hkept ▸ text_eq_blanked hp
  have hin : ∀ place ∈ blankedPlaces ambiguity, place < plain.text.length := by
    rw [length_text hplain]
    exact fun place => lt_of_mem_blankedPlaces
  rw [hblanked, getElem?_blank hin]

/-- A latitude of negative zero is in the south, and a longitude just short of the date line is told to
be on it. -/
theorem text_roundTrip_dateLine :
    let report : PositionReport Exact :=
      (PositionReport.decode (Utf8.encode "!000 .  S\\1800 .  W_".toList ++ [0x2F, 0x41]) 1
        (Callsign.parse "APRS".toList) .epoch).1
    report.fault = none ∧ report.position.ambiguity = 3 ∧
      report.position.text = "000 .  S\\1800 .  W_".toList := by
  have htext : (make (.signed true 0) (.ofRat (-179999999 / 1000000)) 3 '\\' '_' .epoch :
      Position Exact).text = "000 .  S\\1800 .  W_".toList := by
    decide +kernel
  have hlatitude : -90 ≤ (Exact.signed true 0).value ∧ (Exact.signed true 0).value ≤ 90 := by decide
  have hlongitude : -180 ≤ (Exact.ofRat (-179999999 / 1000000)).value ∧
      (Exact.ofRat (-179999999 / 1000000)).value ≤ 180 := by
    decide +kernel
  have hgiven := (text_roundTrip hlatitude hlongitude (show 3 ≤ 4 by decide)
    (show '\\'.toNat < 0x80 by decide) (show '_'.toNat < 0x80 by decide) .epoch .epoch
    (Callsign.parse "APRS".toList) [0x2F, 0x41]).1
  rw [htext] at hgiven
  obtain ⟨hfault, -, hambiguity, -, -, hwritten⟩ := hgiven
  exact ⟨hfault, hambiguity, hwritten⟩

end Position

end Aprs
