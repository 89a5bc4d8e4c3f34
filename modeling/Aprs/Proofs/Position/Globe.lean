import Aprs.Proofs.Position.Acceptance
import Aprs.Proofs.Position.Layout
import Aprs.Proofs.Position.Nmea

/-!
# Which positions lie on the globe

Three of the encodings hold their coordinates against the poles and the date line before they give a
position (`Surveyed`): angles are compared in hundredths of minutes, compressed distances in degrees, and no
rounding on the way to five places leads beyond a limit (`Axis.Spans.roundPlaces`).

The sentence of a receiver writes a number with a letter, and two things are left open there. The size of
the number is compared with the limit from above only; and the limit is that of the letter, of whichever
axis it is. What holds, with every operation rounded as binary floating point rounds it, is

> `onGlobe_iff`: a position that is read without fault is on the globe and has its proper hemispheres,
> unless it came in a sentence with a letter of the other axis or a number below the limit, and exactly
> then.

Specification: 4.3 (Position Decoder) and 3 (Data Model).
-/

namespace Aprs

variable {payload : Bytes} {start : Nat} {instant : Instant}

/-- A position at a latitude and a longitude that the globe has. -/
structure Position.OnGlobe (p : Position Float) : Prop where
  latitude : -90.0 ≤ p.latitude ∧ p.latitude ≤ 90.0
  longitude : -180.0 ≤ p.longitude ∧ p.longitude ≤ 180.0

/-- Being on the globe is being within the limit of either axis. -/
theorem Position.onGlobe_iff_spans {p : Position Float} :
    p.OnGlobe ↔ Axis.latitude.Spans p.latitude ∧ Axis.longitude.Spans p.longitude := by
  have hnorth : (90.0 : Float) = Float.ofNat Axis.latitude.limit := by decide +kernel
  have heast : (180.0 : Float) = Float.ofNat Axis.longitude.limit := by decide +kernel
  constructor
  · intro h
    have hlatitude := h.latitude
    have hlongitude := h.longitude
    rw [hnorth] at hlatitude
    rw [heast] at hlongitude
    exact ⟨hlatitude, hlongitude⟩
  · intro h
    refine ⟨?_, ?_⟩
    · rw [hnorth]
      exact h.1
    · rw [heast]
      exact h.2

/-- A report of a place on the globe that did not come from a receiver. -/
def PositionReport.Surveyed (r : PositionReport Float) : Prop := r.source ≠ .nmea ∧ r.position.OnGlobe

/-! ## Uncompressed positions -/

namespace Uncompressed

/-- An uncompressed position is made of angles within their limits. -/
theorem decode_surveyed (h : (decode (α := Float) payload start instant).1.fault = none) :
    (decode (α := Float) payload start instant).1.Surveyed := by
  obtain ⟨l, hoctets, hrange⟩ := exists_layout h
  rw [decode_layout hoctets hrange]
  exact ⟨nofun, Position.onGlobe_iff_spans.mpr
    ⟨hrange.latitude.within.spans.roundPlaces, hrange.longitude.within.spans.roundPlaces⟩⟩

end Uncompressed

/-! ## Compressed positions -/

namespace Compressed

/-- A compressed position is compared with its limits as it was computed. -/
theorem decode_surveyed (h : (decode (α := Float) payload start instant).1.fault = none) :
    (decode (α := Float) payload start instant).1.Surveyed := by
  unfold decode at h ⊢
  dsimp only at h ⊢
  split at h
  · contradiction
  next hroom =>
    rw [if_neg hroom]
    split at h
    · contradiction
    next north east hread =>
      split at h
      · next hrange =>
        rw [if_pos hrange]
        obtain ⟨hlatitude, hlongitude⟩ := Bool.and_eq_true_iff.mp hrange
        exact ⟨nofun, Position.onGlobe_iff_spans.mpr
          ⟨(inRange_iff_spans.mp hlatitude).roundPlaces, (inRange_iff_spans.mp hlongitude).roundPlaces⟩⟩
      · contradiction

end Compressed

/-! ## Mic-E -/

namespace MicE

/-- The latitude of a destination is below ninety degrees. -/
theorem within_of_destination {call : Bytes} {d : Destination} (h : destination call = .ok d) :
    d.latitude.Within .latitude := by
  obtain ⟨hlegible, rfl⟩ := destination_eq_ok_iff.mp h
  have hdegrees := hlegible.degrees_le
  have hhundredths := hlegible.hundredths_lt
  show degreesOf call * 6000 + hundredthsOf call ≤ 90 * 6000
  omega

/-- The longitude of a Mic-E report is below a hundred and eighty degrees. -/
theorem within_of_longitude {d : Destination} {degrees minutes hundredths : UInt8} {a : Angle}
    (h : longitude d degrees minutes hundredths = .ok a) : a.Within .longitude := by
  unfold longitude at h
  dsimp only at h
  split at h
  · next hrange =>
    obtain rfl := Except.ok.inj h
    have hless := Angle.truncate_le d.ambiguity
      (longitudeMinutes minutes * 100 + ((hundredths.toNat : Int) - 28)).toNat
    show (longitudeDegrees degrees d.offset).toNat * 6000 + Angle.truncate d.ambiguity _ ≤ 180 * 6000
    omega
  · contradiction

theorem read_surveyed {call : Bytes} {report : PositionReport Float} {cursor : Nat}
    (h : read payload call instant = .ok (report, cursor)) : report.Surveyed := by
  unfold read at h
  obtain ⟨d, hdestination, h⟩ := bind_eq_ok_iff.mp h
  split at h
  · obtain ⟨lon, hlongitude, h⟩ := bind_eq_ok_iff.mp h
    obtain ⟨rfl, -⟩ := Prod.mk.inj (Except.ok.inj h)
    exact ⟨nofun, Position.onGlobe_iff_spans.mpr
      ⟨(within_of_destination hdestination).spans.roundPlaces, (within_of_longitude hlongitude).spans.roundPlaces⟩⟩
  · contradiction

/-- A Mic-E report that is read is surveyed. -/
theorem decode_surveyed {destination : Callsign}
    (h : (decode (α := Float) payload destination instant).1.fault = none) :
    (decode (α := Float) payload destination instant).1.Surveyed := by
  unfold decode at h ⊢
  split at h
  · next hread => exact read_surveyed hread
  · contradiction

end MicE

/-! ## Sentences of a receiver -/

namespace Nmea

/-- The letters of the hemispheres stand with the coordinates that they belong to. -/
structure PlaceFields.Hemispheres (c : PlaceFields) : Prop where
  northSouth : ∃ negative, c.northSouth = [Axis.latitude.letter negative]
  eastWest : ∃ negative, c.eastWest = [Axis.longitude.letter negative]

/-- The numbers, in which a degree counts a hundred, are not read as less than the limits. -/
structure PlaceFields.NotBelow (c : PlaceFields) : Prop where
  latitude : ∀ numeral ∈ Numeral.parse? c.latitude, -9000.0 ≤ (Scalar.ofNumeral numeral : Float)
  longitude : ∀ numeral ∈ Numeral.parse? c.longitude, -18000.0 ≤ (Scalar.ofNumeral numeral : Float)

/-- The place in a sentence with proper letters is on the globe unless one of its numbers is below the
limit. -/
theorem decode_onGlobe_iff (h : (decode (α := Float) payload instant).1.fault = none) :
    (decode (α := Float) payload instant).1.source = .nmea ∧ ∃ c, placeFields? payload = some c ∧
      (c.Hemispheres → ((decode (α := Float) payload instant).1.position.OnGlobe ↔ c.NotBelow)) := by
  unfold decode at h ⊢
  split at h
  · contradiction
  next hroom =>
    rw [if_neg hroom]
    split at h
    · contradiction
    next f hfix =>
      obtain ⟨c, hfields, hlatitude, hlongitude⟩ := fix_eq_ok hfix
      refine ⟨rfl, c, hfields, fun hproper => ?_⟩
      obtain ⟨south, hsouth⟩ := hproper.northSouth
      obtain ⟨west, hwest⟩ := hproper.eastWest
      have hnorth := coordinate_spans_iff hlatitude hsouth
      have heast := coordinate_spans_iff hlongitude hwest
      rw [show Float.ofNat (100 * Axis.latitude.limit) = 9000.0 by decide +kernel] at hnorth
      rw [show Float.ofNat (100 * Axis.longitude.limit) = 18000.0 by decide +kernel] at heast
      rw [Position.onGlobe_iff_spans]
      constructor
      · intro hspans
        exact ⟨hnorth.mp hspans.1, heast.mp hspans.2⟩
      · intro hnumbers
        exact ⟨hnorth.mpr hnumbers.latitude, heast.mpr hnumbers.longitude⟩

end Nmea

/-! ## All of them -/

namespace PositionReport

/-- Either plain form is surveyed. -/
theorem decodePlain_surveyed (h : (decodePlain (α := Float) payload start instant).1.fault = none) :
    (decodePlain (α := Float) payload start instant).1.Surveyed := by
  unfold decodePlain at h ⊢
  split at h
  · contradiction
  split at h
  · next hopens =>
    rw [if_pos hopens]
    exact Compressed.decode_surveyed h
  next hopens =>
    rw [if_neg hopens]
    split at h
    · next hdigit =>
      rw [if_pos hdigit]
      exact Uncompressed.decode_surveyed h
    · contradiction

/-- A position that is read without fault is surveyed, or it is in a sentence of a receiver. -/
theorem decode_surveyed_or {destination : Callsign}
    (h : (decode (α := Float) payload start destination instant).1.fault = none) :
    (decode (α := Float) payload start destination instant).1.Surveyed ∨
      (decode (α := Float) payload start destination instant).1 = (Nmea.decode payload instant).1 := by
  unfold decode at h ⊢
  split at h
  · split at h
    · next hmic =>
      rw [if_pos hmic]
      exact Or.inl (MicE.decode_surveyed h)
    next hmic =>
      rw [if_neg hmic]
      split at h
      · next hdollar =>
        rw [if_pos hdollar]
        exact Or.inr rfl
      · next hdollar =>
        rw [if_neg hdollar]
        exact Or.inl (decodePlain_surveyed h)
  · exact Or.inl (decodePlain_surveyed h)

/-- **A position that is read without fault is on the globe**, with its hemispheres in their places, if
it did not come in a sentence of a receiver; if it did, exactly then if the letters of the sentence stand
with the coordinates they belong to and neither of its numbers is below the limit. -/
theorem onGlobe_iff {destination : Callsign}
    (h : (decode (α := Float) payload start destination instant).1.fault = none) :
    let read : PositionReport Float := (decode payload start destination instant).1
    read.position.OnGlobe ∧
        (read.source = .nmea → ∃ c, Nmea.placeFields? payload = some c ∧ c.Hemispheres) ↔
      (read.source = .nmea → ∃ c, Nmea.placeFields? payload = some c ∧ c.Hemispheres ∧ c.NotBelow) := by
  intro read
  rcases decode_surveyed_or h with ⟨hsource, hglobe⟩ | hnmea
  · exact iff_of_true ⟨hglobe, fun hcontrary => absurd hcontrary hsource⟩
      fun hcontrary => absurd hcontrary hsource
  · obtain ⟨hsource, c, hfields, hplace⟩ := Nmea.decode_onGlobe_iff (hnmea ▸ h)
    have hread : read = (Nmea.decode payload instant).1 := hnmea
    rw [hread, hsource]
    constructor
    · intro hboth _
      obtain ⟨hglobe, hletters⟩ := hboth
      obtain ⟨c', hfields', hproper⟩ := hletters rfl
      obtain rfl := Option.some.inj (hfields.symm.trans hfields')
      exact ⟨c, hfields, hproper, (hplace hproper).mp hglobe⟩
    · intro hall
      obtain ⟨c', hfields', hproper, hnumbers⟩ := hall rfl
      obtain rfl := Option.some.inj (hfields.symm.trans hfields')
      exact ⟨(hplace hproper).mpr hnumbers, fun _ => ⟨c, hfields, hproper⟩⟩

/-- A sentence of a receiver on the coast of Canada. -/
theorem onGlobe_geographicPosition :
    let payload := Utf8.encode "$GNGLL,4916.45,N,12311.12,W,225444,A".toList
    let read : PositionReport Float :=
      (decode payload 1 (Callsign.parse "APRS".toList) .epoch).1
    read.fault = none ∧ read.position.OnGlobe := by
  intro payload read
  have hfault : read.fault = none := by decide +kernel
  have hfields : Nmea.placeFields? payload =
      some ⟨"4916.45".toList, "N".toList, "12311.12".toList, "W".toList⟩ := by
    decide +kernel
  refine ⟨hfault, ((onGlobe_iff hfault).mpr fun _ => ⟨_, hfields, ⟨⟨false, rfl⟩, true, rfl⟩, ?_, ?_⟩).1⟩
  · decide +kernel
  · decide +kernel

/-- The limit is one of the number as it is read into floating point, where a little less than the limit is the
limit itself. -/
example :
    let payload := Utf8.encode "$GPGLL,-9000.0000000000000001,N,00000,E".toList
    let read : PositionReport Float := (decode payload 1 (Callsign.parse "APRS".toList) .epoch).1
    read.fault = none ∧ read.position.latitude = -90.0 := by
  decide +kernel

/-- Twenty thousand below zero is read without fault as two hundred degrees south, and a latitude is read
without fault with the letter of an eastern longitude. -/
theorem offGlobe_belowLimit :
    let below : PositionReport Float :=
      (decode (Utf8.encode "$GPGLL,-20000,N,00000,E".toList) 1 (Callsign.parse "APRS".toList) .epoch).1
    let payload := Utf8.encode "$GPGLL,4000,E,00500,N".toList
    let swapped : PositionReport Float := (decode payload 1 (Callsign.parse "APRS".toList) .epoch).1
    (below.fault = none ∧ below.position.latitude = -200.0 ∧ ¬below.position.OnGlobe) ∧
      swapped.fault = none ∧ swapped.source = .nmea ∧
        ∃ c, Nmea.placeFields? payload = some c ∧ ¬c.Hemispheres := by
  intro below payload swapped
  have hbelow : below.fault = none ∧ below.position.latitude = -200.0 := by decide +kernel
  have hswapped : swapped.fault = none ∧ swapped.source = .nmea := by decide +kernel
  have hfields : Nmea.placeFields? payload = some ⟨"4000".toList, ['E'], "00500".toList, ['N']⟩ := by
    decide +kernel
  refine ⟨⟨hbelow.1, hbelow.2, fun hglobe => ?_⟩, hswapped.1, hswapped.2, _, hfields, fun hletters => ?_⟩
  · have hlow := hglobe.latitude.1
    rw [hbelow.2] at hlow
    exact absurd hlow (by decide +kernel)
  · obtain ⟨negative, hletter⟩ := hletters.northSouth
    cases negative <;> exact absurd hletter (by decide)

end PositionReport

end Aprs
