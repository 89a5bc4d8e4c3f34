import Aprs.Proofs.Payload.Contents

/-!
# Where the pieces of a field come from

Every piece of an information field was made by one of its decoders from the octets of the field: a
timestamp and a position from the octets at some place, a message from the whole (`Piece.ReadFrom`). Behind
a position stands the cursor, unless it is that of a weather station, whose report follows. What a decoder is
known to keep to is so known of the field (`Payload.decode_readFrom`).

Specification: 4.6 (Packet Framer/Dispatcher).
-/

namespace Aprs

open Payload (OfWeatherStation)

variable {α : Type} [Scalar α]

/-- A Mic-E report that is read has its extension and its symbol in the octets behind the longitude. -/
theorem MicE.decode_cases (raw : Bytes) (destination : Callsign) (instant : Instant) :
    let read : PositionReport α × Nat := decode raw destination instant
    (∃ cause, read = PositionReport.failed 1 .micE instant (.micE cause)) ∨
      read.1.source = .micE ∧ read.1.fault = none ∧
        read.1.extension = Extension.ofMicE? (raw.getD 4 0) (raw.getD 5 0) (raw.getD 6 0) ∧
        read.1.position.code = charOfByte (raw.getD 7 0) ∧
        read.1.position.table = charOfByte (raw.getD 8 0) := by
  unfold decode
  dsimp only
  split
  · next report hread =>
    unfold MicE.read at hread
    obtain ⟨d, -, hread⟩ := bind_eq_ok_iff.mp hread
    split at hread
    · obtain ⟨lon, -, hread⟩ := bind_eq_ok_iff.mp hread
      obtain rfl := Except.ok.inj hread
      exact .inr ⟨rfl, rfl, rfl, rfl, rfl⟩
    · cases hread
  · next cause _ => exact .inl ⟨cause, rfl⟩

/-- A position is read in one of the four encodings, or it is none of them: there is no octet where it begins,
or the one there begins none. -/
theorem PositionReport.decode_cases {motive : PositionReport α × Nat → Prop} {raw : Bytes} {start : Nat}
    {destination : Callsign} {instant : Instant}
    (micE : motive (MicE.decode raw destination instant)) (nmea : motive (Nmea.decode raw instant))
    (compressed : motive (Compressed.decode raw start instant))
    (uncompressed : motive (Uncompressed.decode raw start instant))
    (tooShort : motive (failed start .uncompressed instant .tooShort))
    (unsupported : ∀ b ∈ raw,
      motive (failed start .uncompressed instant (.unsupportedFormat (charOfByte b)))) :
    motive (decode raw start destination instant) := by
  have hplain : motive (decodePlain raw start instant) := by
    unfold decodePlain
    split
    · exact tooShort
    next b hb =>
      split
      · exact compressed
      split
      · exact uncompressed
      · exact unsupported b (List.mem_of_getElem? hb)
  unfold decode
  split
  · split
    · exact micE
    split
    · exact nmea
    · exact hplain
  · exact hplain

/-- A timestamp is what the octets at a place are read as. -/
def Timestamp.ReadFrom (raw : Bytes) (t : Timestamp) : Prop :=
  ∃ start now, (decode raw start now).1 = t

/-- A position is what the octets at a place are read as, and the cursor stands behind them unless a weather
report follows. -/
def PositionReport.ReadFrom (raw : Bytes) (destination : Callsign) (cursor : Nat)
    (report : PositionReport α) : Prop :=
  ∃ start instant, (decode raw start destination instant).1 = report ∧
    (¬OfWeatherStation report → cursor = (decode (α := α) raw start destination instant).2)

/-- A piece is what a decoder makes of the octets of a field. -/
def Piece.ReadFrom (raw : Bytes) (destination : Callsign) (cursor : Nat) : Piece α → Prop
  | time t => t.ReadFrom raw
  | position r => r.ReadFrom raw destination cursor
  | message m => m = (Message.decode raw).1
  | object o => o.time.ReadFrom raw ∧ o.report.ReadFrom raw destination cursor
  | item i => i.report.ReadFrom raw destination cursor
  | weather _ => True
  | fault _ => True

theorem Piece.ReadFrom.positionReport {raw : Bytes} {destination : Callsign} {cursor : Nat}
    {piece : Piece α} {report : PositionReport α} (h : piece.ReadFrom raw destination cursor)
    (hreport : piece.positionReport? = some report) : report.ReadFrom raw destination cursor := by
  cases piece with
  | position r =>
    obtain rfl := Option.some.inj hreport
    exact h
  | object o =>
    obtain rfl := Option.some.inj hreport
    exact h.2
  | item i =>
    obtain rfl := Option.some.inj hreport
    exact h
  | _ => exact nomatch hreport

namespace Payload

variable {raw : Bytes} {destination : Callsign} {now instant : Instant} {start : Nat}

/-- The pieces of contents are what decoders make of the octets. -/
def Contents.ReadFrom (raw : Bytes) (destination : Callsign) (c : Contents α) : Prop :=
  ∀ entry ∈ c.pieces, entry.2.ReadFrom raw destination c.cursor

theorem readFrom_singleton {kind place : Kind} {piece : Piece α} {cursor : Nat}
    (h : piece.ReadFrom raw destination cursor) :
    Contents.ReadFrom raw destination ⟨kind, [(place, piece)], cursor⟩ := by
  intro entry hentry
  rw [List.mem_singleton.mp hentry]
  exact h

/-- A position is read and put among pieces that may stand at any cursor, with the weather report behind
it. -/
theorem readFrom_put {kind place : Kind} {piece : Piece α} {pieces : Pieces α}
    (hpieces : ∀ entry ∈ pieces, ∀ cursor, entry.2.ReadFrom raw destination cursor) :
    let read := PositionReport.decode raw start destination instant
    let added := addWeather raw read.1 read.2 pieces
    (∀ cursor, read.1.ReadFrom raw destination cursor → piece.ReadFrom raw destination cursor) →
      Contents.ReadFrom raw destination ⟨kind, added.1.put place piece, added.2⟩ := by
  intro read added hpiece entry hentry
  rcases Pieces.mem_put hentry with rfl | hentry
  · refine hpiece added.2 ⟨start, instant, rfl, fun hstation => ?_⟩
    exact congrArg Prod.snd (addWeather_of_not_station hstation raw read.2 pieces)
  · rcases mem_addWeather hentry with ⟨w, hweather⟩ | hentry
    · rw [hweather]
      trivial
    · exact hpieces entry hentry _

theorem contents_readFrom (raw : Bytes) (destination : Callsign) :
    ∀ now, (contents (α := α) raw destination now).ReadFrom raw destination := by
  refine contents_cases (motive := fun f => ∀ now, (f now).ReadFrom raw destination) raw destination
    ?timed ?plain ?message ?object ?item ?weather ?none ?fault
  case timed =>
    intro _ now
    refine readFrom_put ?_ fun _ h => h
    intro entry hentry cursor
    rw [List.mem_singleton.mp hentry]
    exact ⟨1, now, rfl⟩
  case plain =>
    intro _ _ now
    exact readFrom_put (fun _ hentry => absurd hentry List.not_mem_nil) fun _ h => h
  case message =>
    intro _ now
    exact readFrom_singleton rfl
  case object =>
    intro _ now
    by_cases hlength : Object.minLength ≤ raw.length
    · rw [objectContents_eq hlength]
      exact readFrom_put (fun _ hentry => absurd hentry List.not_mem_nil) fun _ h => ⟨⟨11, now, rfl⟩, h⟩
    · rw [objectContents_eq_broken (Nat.not_le.mp hlength)]
      exact readFrom_singleton trivial
  case item =>
    intro _ now
    unfold itemContents
    rw [Item.decode_eq]
    cases Item.named raw with
    | error cause => exact readFrom_singleton trivial
    | ok named =>
      exact readFrom_put (fun _ hentry => absurd hentry List.not_mem_nil) fun _ h => h
  case weather =>
    intro _ now entry hentry
    rcases List.mem_cons.mp hentry with rfl | hentry
    · exact ⟨1, now, rfl⟩
    · rw [List.mem_singleton.mp hentry]
      trivial
  case none => exact fun _ kind now _ hentry => absurd hentry List.not_mem_nil
  case fault => exact fun _ kind _ cursor cause now => readFrom_singleton trivial

/-- **Every piece of a field is what a decoder makes of its octets.** -/
theorem decode_readFrom {entry : Kind × Piece α}
    (h : entry ∈ (decode raw destination now).pieces) :
    entry.2.ReadFrom raw destination (decode (α := α) raw destination now).cursor :=
  contents_readFrom raw destination now entry h

/-- The position of a field is what the octets are read as. -/
theorem position?_readFrom {report : PositionReport α}
    (h : (decode raw destination now).position? = some report) :
    report.ReadFrom raw destination (decode (α := α) raw destination now).cursor := by
  obtain ⟨entry, hentry, hreport⟩ := List.exists_of_findSome?_eq_some h
  exact (decode_readFrom hentry).positionReport hreport

/-- The message of a field is what the octets are read as. -/
theorem message?_readFrom {m : Message} (h : (decode (α := α) raw destination now).message? = some m) :
    m = (Message.decode raw).1 := by
  unfold message? at h
  split at h
  · next message hget =>
    obtain rfl := Option.some.inj h
    obtain ⟨front, back, hpieces, -⟩ := List.lookup_eq_some_iff.mp hget
    have hentry : (Kind.message, Piece.message message) ∈ (decode (α := α) raw destination now).pieces :=
      hpieces ▸ List.mem_append_right front List.mem_cons_self
    exact decode_readFrom hentry
  · cases h

end Payload

end Aprs
