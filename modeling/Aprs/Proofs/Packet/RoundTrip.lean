import Aprs.Packet
import Aprs.Proofs.Frame.Encoding

/-!
# Sending a packet as a frame

A packet keeps its callsigns as free text, a frame does not, so sending a packet as a frame may fail,
and what comes out at the other end has the normal forms of the callsigns. The information goes through
as it is. It is decoded anew at the other end, though, and a Mic-E report carries its latitude in the
call of the destination: what it means can change if that call is not in upper case.

> `decode_congr`: what information means depends on the call of the destination alone, and on that
> only if the information is a Mic-E report.

Specification: 8 (Testable Properties).
-/

namespace Aprs

variable {α : Type} [Scalar α]

/-! ## What the destination matters for -/

/-- Information for which the destination makes no difference: both have the same call, or the
information is no Mic-E report. -/
def SameReading (raw : Bytes) (destination destination' : Callsign) : Prop :=
  destination.call = destination'.call ∨ raw.headD 0 ≠ 0x60 ∧ raw.headD 0 ≠ 0x27

variable {raw : Bytes} {destination destination' : Callsign} {now : Instant}

/-- A Mic-E report depends on the call of its destination only. -/
theorem MicE.decode_congr (h : destination.call = destination'.call) (instant : Instant) :
    MicE.decode (α := α) raw destination instant = MicE.decode raw destination' instant := by
  unfold MicE.decode
  rw [h]

/-- No other position depends on its destination. -/
theorem PositionReport.decode_congr (h : SameReading raw destination destination') (start : Nat)
    (instant : Instant) :
    PositionReport.decode (α := α) raw start destination instant =
      PositionReport.decode raw start destination' instant := by
  cases raw with
  | nil => rfl
  | cons identifier rest =>
    unfold PositionReport.decode
    dsimp only [List.head?_cons]
    rcases h with hcall | ⟨hgrave, hquote⟩
    · rw [MicE.decode_congr hcall]
    · have hother : ¬ (identifier = 0x27 ∨ identifier = 0x60) :=
        not_or.mpr ⟨hquote, hgrave⟩
      rw [if_neg hother, if_neg hother]

/-- Destinations that read alike give a position and its weather alike. -/
theorem Payload.positionContents_congr (h : SameReading raw destination destination')
    (instant : Instant) (pieces : Pieces α) (start : Nat) :
    Payload.positionContents raw destination instant pieces start =
      Payload.positionContents raw destination' instant pieces start := by
  unfold Payload.positionContents
  rw [PositionReport.decode_congr h]

theorem Payload.timedPosition_congr (h : SameReading raw destination destination') :
    Payload.timedPosition (α := α) raw destination now =
      Payload.timedPosition raw destination' now := by
  unfold Payload.timedPosition
  dsimp only
  rw [Payload.positionContents_congr h]

theorem Payload.objectContents_congr (h : SameReading raw destination destination') :
    Payload.objectContents (α := α) raw destination now =
      Payload.objectContents raw destination' now := by
  unfold Payload.objectContents Object.decode
  dsimp only
  rw [PositionReport.decode_congr h]

theorem Payload.itemContents_congr (h : SameReading raw destination destination') :
    Payload.itemContents (α := α) raw destination now =
      Payload.itemContents raw destination' now := by
  unfold Payload.itemContents Item.decode
  simp only [PositionReport.decode_congr h]

/-- **What information means depends on the call of the destination alone**, and on that only if the
information is a Mic-E report. -/
theorem Payload.decode_congr (h : SameReading raw destination destination') :
    Payload.decode (α := α) raw destination now = Payload.decode raw destination' now := by
  unfold Payload.decode Payload.contents
  cases raw with
  | nil => rfl
  | cons identifier rest =>
    dsimp only
    rw [Payload.timedPosition_congr h, Payload.positionContents_congr h,
      Payload.objectContents_congr h, Payload.itemContents_congr h]

/-! ## There and back -/

/-- **What becomes of a packet that is sent as a frame.** It can be sent exactly if it has at most
eight hops and all its callsigns fit in an address. At the other end a packet comes out with the
normal forms of these callsigns, the marks of its hops and its information as they were; and the
information is decoded as it would be for the destination as it was, if that was in upper case or the
information is no Mic-E report. -/
theorem Packet.frame_roundTrip (p : Packet α) (now : Instant) :
    ((∃ bytes, p.frame.toBytes = .ok bytes) ↔
      p.header.path.length ≤ 8 ∧ p.header.destination.Encodable ∧ p.header.source.Encodable ∧
        ∀ hop ∈ p.header.path, hop.callsign.Encodable) ∧
    ∀ bytes, p.frame.toBytes = .ok bytes →
      ∃ q : Packet α, Packet.ofFrame bytes now = .ok q ∧
        q.header.source = p.header.source.normal ∧
        q.header.destination = p.header.destination.normal ∧
        q.header.path = p.header.path.map (fun hop => ⟨hop.callsign.normal, hop.used⟩) ∧
        q.payload.raw = p.payload.raw ∧
        (Text.upperAscii p.header.destination.call = p.header.destination.call ∨
            p.payload.identifier ≠ 0x60 ∧ p.payload.identifier ≠ 0x27 →
          q.payload = Payload.decode p.payload.raw p.header.destination now) := by
  constructor
  · constructor
    · rintro ⟨bytes, hbytes⟩
      obtain ⟨⟨hdestination, hsource, hlength, hhops⟩, -⟩ := Frame.toBytes_eq_ok_iff.mp hbytes
      exact ⟨hlength, hdestination, hsource, hhops⟩
    · rintro ⟨hlength, hdestination, hsource, hhops⟩
      exact ⟨_, Frame.toBytes_eq_ok_iff.mpr ⟨⟨hdestination, hsource, hlength, hhops⟩, rfl⟩⟩
  · intro bytes hbytes
    -- what was written are the octets of the frame, which are read as its normal form
    obtain ⟨hencodable, rfl⟩ := Frame.toBytes_eq_ok_iff.mp hbytes
    refine ⟨{ Packet.ofParts ⟨p.header.source.normal, p.header.destination.normal,
        p.header.path.map fun hop => ⟨hop.callsign.normal, hop.used⟩⟩ p.payload.raw now with
        asReceived := some p.frame.octets }, ?_, rfl, rfl, rfl, rfl, fun h => ?_⟩
    · unfold Packet.ofFrame
      rw [Frame.decode_octets hencodable]
      rfl
    · exact Payload.decode_congr h

/-- A packet whose callsigns are not in their normal form. -/
theorem Packet.frame_roundTrip_lowerCase :
    ∃ q : Packet Float,
      Packet.ofFrame [0x82, 0xA0, 0xA4, 0xA6, 0x40, 0x40, 0xE0, 0x9C, 0x60, 0x86, 0x82, 0x98, 0x98,
        0x6E, 0xAE, 0x92, 0x88, 0x8A, 0x62, 0x40, 0xE3, 0x03, 0xF0, 0x3E] .epoch = .ok q ∧
        q.header.source = ⟨"N0CALL".toList, "7".toList⟩ ∧
        q.header.destination = ⟨"APRS".toList, []⟩ ∧
        q.header.path = [⟨⟨"WIDE1".toList, "1".toList⟩, true⟩] ∧
        q.payload = Payload.decode [0x3E] ⟨"aprs".toList, []⟩ .epoch := by
  have hwritten : Frame.toBytes (Packet.frame (α := Float) (Packet.ofParts
      ⟨⟨"n0call".toList, "07".toList⟩, ⟨"aprs".toList, []⟩, [⟨⟨"wide1".toList, "1".toList⟩, true⟩]⟩
      [0x3E] .epoch)) = .ok [0x82, 0xA0, 0xA4, 0xA6, 0x40, 0x40, 0xE0, 0x9C, 0x60, 0x86,
        0x82, 0x98, 0x98, 0x6E, 0xAE, 0x92, 0x88, 0x8A, 0x62, 0x40, 0xE3, 0x03, 0xF0, 0x3E] := by
    rfl
  obtain ⟨q, hread, hsource, hdestination, hpath, -, hpayload⟩ :=
    (Packet.frame_roundTrip _ .epoch).2 _ hwritten
  exact ⟨q, hread, hsource, hdestination, hpath, hpayload (Or.inr (by decide))⟩

end Aprs
