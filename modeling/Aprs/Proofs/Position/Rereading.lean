import Aprs.Proofs.Position.Layout

/-!
# Uncompressed positions that are sent on

An uncompressed position that was read without a fault has two angles within their limits, and of the
minutes of each the digits are zero that the ambiguity of the latitude blanks (`Readable`). In an accurate
arithmetic such an angle is found again in the degrees that it was turned into (`kept_roundPlaces`). The
position is therefore written with the same digits and blanks, and

> `PositionReport.settled_of_decode`: a position that was read without a fault is read from its text as it was
> (`Position.Settled.decode_text`), but for the altitude, which came from the comment.

Specification: 4.3 (Position Decoder) and 12.2 (Position rendering and geometry).
-/

namespace Aprs

variable {α : Type} [Scalar α]

/-- A position without its altitude, which is not written with it. -/
def Position.withoutAltitude (p : Position α) : Position α := { p with altitude := none }

/-! ## Angles -/

/-- Digits that are zero stay so when they are disregarded. -/
theorem Angle.truncate_eq_self {ambiguity n : Nat} (hambiguity : ambiguity ≤ 4)
    (h : Nat.pow 10 ambiguity ∣ n) : truncate ambiguity n = n := by
  rw [truncate_eq hambiguity]
  exact Nat.div_mul_cancel h

/-- An angle that a field can hold along an axis, of whose minutes an ambiguity blanks only zeros. -/
structure Angle.Readable (axis : Axis) (ambiguity : Nat) (a : Angle) : Prop where
  within : a.Within axis
  hundredths_lt : a.hundredths < 6000
  truncate_eq : truncate ambiguity a.hundredths = a.hundredths

namespace Uncompressed.Coordinate

variable {axis : Axis} {w : Coordinate axis}

/-- A coordinate blanks zeros with its own blanks. -/
theorem readable_told_blanks (h : w.InRange 0) : (w.told 0).Readable axis w.blanks where
  within := h.within
  hundredths_lt := h.hundredths_lt
  truncate_eq := by
    have hzeros : (w.told 0).hundredths = Decimal.value w.minutes * Nat.pow 10 w.blanks :=
      (Angle.truncate_zero _).trans (Decimal.value_zeros _ _)
    rw [hzeros]
    exact Angle.truncate_eq_self w.blanks_le (Nat.dvd_mul_left _ _)

/-- It blanks zeros with an ambiguity by which its digits were disregarded. -/
theorem readable_told {ambiguity : Nat} (h : w.InRange ambiguity) :
    (w.told ambiguity).Readable axis ambiguity where
  within := h.within
  hundredths_lt := h.hundredths_lt
  truncate_eq := Angle.truncate_truncate (Nat.le_refl _) _

end Uncompressed.Coordinate

/-- **An angle that was read is found again** in the degrees that it was turned into. -/
theorem Angle.Readable.kept_roundPlaces [Scalar.Accurate α] {axis : Axis} {ambiguity : Nat} {a : Angle}
    (h : a.Readable axis ambiguity) :
    Position.hundredths (Position.roundPlaces (a.value : α)) ≤ axis.limit * 6000 ∧
      Position.kept ambiguity (Position.roundPlaces (a.value : α)) = a := by
  have hlt := h.hundredths_lt
  obtain ⟨hhundredths, hlimit, hsign⟩ := Uncompressed.hundredths_of_within (α := α) h.within
  refine ⟨hlimit, ?_⟩
  unfold Position.kept
  have hdegrees : (a.degrees * 6000 + a.hundredths) / 6000 = a.degrees := by omega
  have hminutes : (a.degrees * 6000 + a.hundredths) % 6000 = a.hundredths := by omega
  rw [hhundredths, hsign, hdegrees, hminutes, h.truncate_eq]

/-! ## Positions -/

variable {payload : Bytes} {start : Nat} {instant : Instant}

namespace Uncompressed

/-- Where nothing stands behind a position it has no extension and no altitude. -/
theorem readBehind_end (h : payload.length = start + width) (symbol : UInt8) (position : Position α) :
    readBehind payload start symbol position =
      (PositionReport.plain position.withoutAltitude .uncompressed, payload.length) := by
  have hnothing : payload.drop (start + width) = [] := List.drop_eq_nil_of_le (Nat.le_of_eq h)
  have hextension : Extension.ofUncompressed? payload (start + width) symbol = none := by
    unfold Extension.ofUncompressed?
    rw [hnothing]
    split <;> rfl
  have haltitude : (if symbol = Extension.weatherSymbol then none
      else Altitude.ofComment? (payload.drop (start + width))) = (none : Option α) := by
    rw [hnothing]
    split <;> rfl
  simp only [readBehind, hextension, Option.isSome_none, Bool.false_eq_true, if_false, Nat.add_zero,
    haltitude]
  rw [h]
  rfl

/-- A position made of angles that fields can hold is made of them again when it is written and read. -/
theorem make_kept [Scalar.Accurate α] {latitude longitude : Angle} {ambiguity : Nat}
    (hlatitude : latitude.Readable .latitude ambiguity)
    (hlongitude : longitude.Readable .longitude ambiguity) (hambiguity : ambiguity ≤ 4) {p : Position α}
    {table code : Char} (hp : p = Position.make latitude.value longitude.value ambiguity table code instant) :
    p.Writable ∧ Position.make (Position.kept p.ambiguity p.latitude).value
      (Position.kept p.ambiguity p.longitude).value p.ambiguity p.table p.code instant = p := by
  obtain ⟨hlimit, hkept⟩ := hlatitude.kept_roundPlaces (α := α)
  obtain ⟨hlimit', hkept'⟩ := hlongitude.kept_roundPlaces (α := α)
  have hgreatest : p.ambiguity = ambiguity := by
    rw [hp]
    exact Nat.min_eq_left hambiguity
  rw [hgreatest]
  subst hp
  refine ⟨⟨hlimit, hlimit', Nat.min_le_right _ _⟩, ?_⟩
  show Position.make (Position.kept ambiguity (Position.roundPlaces _)).value
    (Position.kept ambiguity (Position.roundPlaces _)).value ambiguity table code instant = _
  rw [hkept, hkept']

end Uncompressed

/-- A position that is read from its text as it is. -/
structure Position.Settled (p : Position α) : Prop where
  writable : p.Writable
  table_ascii : p.table.toNat < 0x80
  code_ascii : p.code.toNat < 0x80
  make_eq : make (kept p.ambiguity p.latitude).value (kept p.ambiguity p.longitude).value p.ambiguity
    p.table p.code p.instant = p

/-- A position that was read from octets of ASCII is one, but for what the comment behind it told. -/
theorem Uncompressed.settled_of_decode [Scalar.Accurate α] (hascii : ∀ b ∈ payload, b.toNat < 0x80)
    (h : (decode (α := α) payload start instant).1.fault = none) :
    (decode (α := α) payload start instant).1.position.withoutAltitude.Settled ∧
      (decode (α := α) payload start instant).1.position.instant = instant := by
  obtain ⟨l, hoctets, hrange⟩ := exists_layout h
  have hsymbol {b : UInt8} (hb : b ∈ l.octets) : (charOfByte b).toNat < 0x80 := by
    rw [Utf8.toNat_charOfByte]
    exact hascii b (List.mem_of_mem_drop (List.mem_of_mem_take (hoctets ▸ hb)))
  have htable : l.table ∈ l.octets := by simp [Layout.octets]
  have hcode : l.code ∈ l.octets := by simp [Layout.octets]
  obtain ⟨hwritable, hsame⟩ := make_kept (α := α) (Coordinate.readable_told_blanks hrange.latitude)
    (Coordinate.readable_told hrange.longitude) l.latitude.blanks_le rfl
  rw [decode_layout hoctets hrange]
  exact ⟨⟨hwritable, hsymbol htable, hsymbol hcode, hsame⟩, rfl⟩

theorem Position.Settled.length_encode_text {p : Position α} (h : p.Settled) :
    (Utf8.encode p.text).length = 19 :=
  Uncompressed.length_encode_text h.writable h.table_ascii h.code_ascii

/-- **A settled position is read from its text as it is.** -/
theorem Position.Settled.decode_text {p : Position α} (h : p.Settled)
    (htext : payload.drop start = Utf8.encode p.text) :
    PositionReport.decodePlain payload start p.instant = (.plain p .uncompressed, payload.length) := by
  have hpayload : payload.drop start = Utf8.encode p.text ++ [] := htext.trans (List.append_nil _).symm
  have hlength := congrArg List.length htext
  rw [List.length_drop, h.length_encode_text] at hlength
  have hend : payload.length = start + 19 := by omega
  have hplain : p.withoutAltitude = p := by
    rw [← h.make_eq]
    rfl
  rw [PositionReport.decodePlain_text h.writable hpayload,
    Uncompressed.decode_text h.writable h.table_ascii h.code_ascii hpayload, h.make_eq,
    Uncompressed.readBehind_end hend, hplain]

/-! ## Encodings -/

variable {destination : Callsign}

/-- A decoder says where a position came from, read or refused. -/
theorem MicE.decode_source : (decode (α := α) payload destination instant).1.source = .micE := by
  unfold decode
  split
  · next result hread =>
    unfold read at hread
    obtain ⟨d, -, hread⟩ := bind_eq_ok_iff.mp hread
    split at hread
    · obtain ⟨longitude, -, hread⟩ := bind_eq_ok_iff.mp hread
      rw [← Except.ok.inj hread]
    · contradiction
  · rfl

theorem Nmea.decode_source : (decode (α := α) payload instant).1.source = .nmea := by
  unfold decode
  split
  · rfl
  · split <;> rfl

theorem Compressed.decode_source : (decode (α := α) payload start instant).1.source = .compressed := by
  unfold decode
  dsimp only
  split
  · rfl
  split
  · rfl
  · split <;> rfl

namespace PositionReport

/-- A plain position that came uncompressed was read by that decoder. -/
theorem decodePlain_of_uncompressed
    (hfault : (decodePlain (α := α) payload start instant).1.fault = none)
    (hsource : (decodePlain (α := α) payload start instant).1.source = .uncompressed) :
    decodePlain (α := α) payload start instant = Uncompressed.decode payload start instant := by
  revert hfault hsource
  unfold decodePlain
  split
  · intro hfault
    contradiction
  split
  · intro _ hsource
    rw [Compressed.decode_source] at hsource
    contradiction
  split
  · intro _ _
    rfl
  · intro hfault
    contradiction

/-- An uncompressed position without a fault is what the octets where it begins are read as. -/
theorem decode_of_uncompressed
    (hfault : (decode (α := α) payload start destination instant).1.fault = none)
    (hsource : (decode (α := α) payload start destination instant).1.source = .uncompressed) :
    decode (α := α) payload start destination instant = Uncompressed.decode payload start instant := by
  revert hfault hsource
  unfold decode
  split
  · split
    · intro _ hsource
      rw [MicE.decode_source] at hsource
      contradiction
    split
    · intro _ hsource
      rw [Nmea.decode_source] at hsource
      contradiction
    · exact decodePlain_of_uncompressed
  · exact decodePlain_of_uncompressed

/-- **An uncompressed position that was read is settled**, but for what the comment told, and was given the
instant of its report. -/
theorem settled_of_decode [Scalar.Accurate α] (hascii : ∀ b ∈ payload, b.toNat < 0x80)
    {report : PositionReport α} (hreport : (decode payload start destination instant).1 = report)
    (hfault : report.fault = none) (hsource : report.source = .uncompressed) :
    report.position.withoutAltitude.Settled ∧ report.position.instant = instant := by
  subst hreport
  have hread := decode_of_uncompressed hfault hsource
  rw [hread] at hfault ⊢
  exact Uncompressed.settled_of_decode hascii hfault

end PositionReport

end Aprs
