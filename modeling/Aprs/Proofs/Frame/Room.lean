import Aprs.Proofs.Frame.Encoding

/-!
# Frames in too little room

A frame is written field by field, and a field is written as a whole or not at all. Writing stops behind some
fields (`Buffer.StopsBehind`) when the next one is an address that cannot be written or is longer than what
is left of the room. What has been written by then are the octets of the fields in front of it, and the room
behind these is as it was (`Buffer.StopsBehind.writeFields`). If writing stops nowhere, all fields are octets
and fit (`Buffer.exists_pieces`).

> `encode_characterized`: this is what becomes of a buffer, whatever its size and whatever it holds.

No field is wider than it is counted in the length of its frame (`totalWidth_fields_le`), so a buffer of that length
is never too small, also for a frame that is refused.

Specification: 4.7 (Frame Encoder).
-/

namespace Aprs

namespace Buffer

/-! ## Where writing stops -/

/-- Why a field is not written where so much room is left: it is none, or else it does not fit. -/
def obstacle? (room : Nat) : Except Address.Error Bytes → Option EncodeError
  | .error cause => some (.address cause)
  | .ok octets => if octets.length ≤ room then none else some .bufferTooSmall

/-- Fields that are written into so much room stop behind some of them, which fit. The next one is not
written into what these leave. -/
structure StopsBehind (fields : List (Except Address.Error Bytes)) (room : Nat) (before : List Bytes)
    (cause : EncodeError) : Prop where
  fits : before.flatten.length ≤ room
  next : ∃ field behind, fields = before.map .ok ++ field :: behind ∧
    obstacle? (room - before.flatten.length) field = some cause

variable {fields : List (Except Address.Error Bytes)} {field : Except Address.Error Bytes}
  {before : List Bytes} {cause : EncodeError} {room : Nat}

/-- Nothing is in the way of a field exactly if it is there and has room. -/
theorem obstacle?_eq_none_iff :
    obstacle? room field = none ↔ ∃ octets, field = .ok octets ∧ octets.length ≤ room := by
  cases field with
  | error cause => exact iff_of_false nofun fun ⟨_, h, _⟩ => nomatch h
  | ok octets =>
    show (if octets.length ≤ room then none else some _) = none ↔ _
    by_cases hfits : octets.length ≤ room
    · rw [if_pos hfits]
      exact iff_of_true rfl ⟨octets, rfl, hfits⟩
    · rw [if_neg hfits]
      exact iff_of_false nofun fun ⟨_, heq, h⟩ => hfits (Except.ok.inj heq ▸ h)

/-- A field that is not written leaves the buffer as it is. -/
theorem writeField_of_obstacle {b : Buffer} (h : obstacle? b.room.length field = some cause) :
    b.writeField field = (.error cause, b) := by
  cases field with
  | error why =>
    obtain rfl := Option.some.inj h
    rfl
  | ok octets =>
    have h : (if octets.length ≤ b.room.length then none else some .bufferTooSmall) = some cause := h
    by_cases hfits : octets.length ≤ b.room.length
    · rw [if_pos hfits] at h
      contradiction
    · rw [if_neg hfits] at h
      obtain rfl := Option.some.inj h
      exact if_neg hfits

/-- **The fields in front of the place where writing stops are written, and nothing else.** -/
theorem StopsBehind.writeFields {b : Buffer} (h : StopsBehind fields b.room.length before cause) :
    b.writeFields fields =
      (.error cause, ⟨b.written ++ before.flatten, b.room.drop before.flatten.length⟩) := by
  obtain ⟨field, behind, rfl, hobstacle⟩ := h.next
  rw [← List.length_drop] at hobstacle
  rw [writeFields_append h.fits, Buffer.writeFields,
    writeField_of_obstacle (b := ⟨b.written ++ before.flatten, b.room.drop before.flatten.length⟩) hobstacle]

/-- A field that fits is one more of those behind which the others stop. -/
theorem StopsBehind.cons {octets : Bytes} (hfits : octets.length ≤ room)
    (h : StopsBehind fields (room - octets.length) before cause) :
    StopsBehind (.ok octets :: fields) room (octets :: before) cause := by
  have hlength : (octets :: before).flatten.length = octets.length + before.flatten.length := by
    rw [List.flatten_cons, List.length_append]
  obtain ⟨field, behind, rfl, hobstacle⟩ := h.next
  refine ⟨?_, field, behind, rfl, ?_⟩
  · rw [hlength]
    exact Nat.add_le_of_le_sub' hfits h.fits
  · rw [hlength, ← Nat.sub_sub]
    exact hobstacle

/-- **Fields that stop nowhere are octets and fit.** -/
theorem exists_pieces (fields : List (Except Address.Error Bytes)) :
    ∀ room : Nat, (∀ before cause, ¬StopsBehind fields room before cause) →
      ∃ pieces : List Bytes, fields = pieces.map .ok ∧ pieces.flatten.length ≤ room := by
  induction fields with
  | nil => intro room _; exact ⟨[], rfl, Nat.zero_le room⟩
  | cons field fields ih =>
    intro room h
    cases hobstacle : obstacle? room field with
    | some cause => exact absurd ⟨Nat.zero_le room, field, fields, rfl, hobstacle⟩ (h [] cause)
    | none =>
      obtain ⟨octets, rfl, hfits⟩ := obstacle?_eq_none_iff.mp hobstacle
      obtain ⟨pieces, rfl, hrest⟩ := ih (room - octets.length) fun before cause hstops =>
        h (octets :: before) cause (hstops.cons hfits)
      refine ⟨octets :: pieces, rfl, ?_⟩
      rw [List.flatten_cons, List.length_append]
      exact Nat.add_le_of_le_sub' hfits hrest

end Buffer

namespace Frame

open Buffer (StopsBehind obstacle?)

variable {f : Frame} {before : List Bytes} {cause : EncodeError} {slots : Bytes}

/-! ## The length of a frame -/

/-- How many octets a field takes, none if it is refused. -/
def width : Except Address.Error Bytes → Nat
  | .error _ => 0
  | .ok octets => octets.length

/-- How many octets fields take together. -/
def totalWidth : List (Except Address.Error Bytes) → Nat
  | [] => 0
  | field :: fields => width field + totalWidth fields

theorem totalWidth_append (fields more : List (Except Address.Error Bytes)) :
    totalWidth (fields ++ more) = totalWidth fields + totalWidth more := by
  induction fields with
  | nil => exact (Nat.zero_add _).symm
  | cons field fields ih =>
    show width field + totalWidth (fields ++ more) = width field + totalWidth fields + totalWidth more
    omega

theorem totalWidth_map_ok (pieces : List Bytes) :
    totalWidth (pieces.map .ok) = pieces.flatten.length := by
  induction pieces with
  | nil => rfl
  | cons octets pieces ih =>
    rw [List.flatten_cons, List.length_append, ← ih]
    rfl

/-- An address takes seven octets at most. -/
theorem width_encode_le (a : Address) : width a.encode ≤ Address.length := by
  cases h : a.encode with
  | error cause => exact Nat.zero_le _
  | ok octets =>
    obtain ⟨hencodable, rfl⟩ := Address.encode_eq_ok_iff.mp h
    exact Nat.le_of_eq (Address.octets_length hencodable)

/-- Every field is counted in the length of its frame. -/
theorem totalWidth_fields_le (f : Frame) : totalWidth f.fields ≤ f.encodedLength := by
  have hrow (row : List Address) : totalWidth (row.map Address.encode) ≤ Address.length * row.length := by
    induction row with
    | nil => exact Nat.le_refl _
    | cons a row ih =>
      have ha := width_encode_le a
      show width a.encode + totalWidth (row.map Address.encode) ≤ Address.length * (row.length + 1)
      rw [Nat.mul_succ]
      omega
  have haddresses := hrow f.addresses
  rw [addresses_length] at haddresses
  have hinformation : totalWidth [.ok [control], .ok [protocol], .ok f.information] =
      1 + (1 + (f.information.length + 0)) := rfl
  unfold fields encodedLength
  rw [totalWidth_append, hinformation]
  omega

/-- Room for all fields is too small for none of them. -/
theorem cause_ne_bufferTooSmall (h : StopsBehind f.fields f.encodedLength before cause) :
    cause ≠ .bufferTooSmall := by
  rintro rfl
  obtain ⟨field, behind, hfields, hobstacle⟩ := h.next
  cases field with
  | error why => exact nomatch Option.some.inj hobstacle
  | ok octets =>
    have hlong : ¬octets.length ≤ f.encodedLength - before.flatten.length := fun hfits =>
      nomatch hobstacle.symm.trans (if_pos hfits)
    have htotal := totalWidth_fields_le f
    rw [hfields, totalWidth_append, totalWidth_map_ok] at htotal
    have hnext : totalWidth (.ok octets :: behind) = octets.length + totalWidth behind := rfl
    omega

/-! ## Writing a frame -/

/-- A frame with few enough hops is written field by field. -/
theorem encode_eq_writeFields (h : f.hops.length ≤ maxHops) (b : Buffer) :
    f.encode b = b.writeFields f.fields :=
  if_neg (Nat.not_lt.mpr h)

/-- A frame that stops nowhere is written as all its octets, which fit. -/
theorem encode_of_not_stops (hlength : f.hops.length ≤ maxHops)
    (h : ∀ before cause, ¬StopsBehind f.fields slots.length before cause) :
    f.Encodable ∧ f.encode (.fresh slots) = (.ok (), ⟨f.octets, slots.drop f.octets.length⟩) := by
  obtain ⟨pieces, hfields, hfits⟩ := Buffer.exists_pieces f.fields slots.length h
  have hencodable : f.Encodable := by
    refine encodable_of_fields hlength fun field hmem => ?_
    rw [hfields] at hmem
    obtain ⟨octets, -, rfl⟩ := List.mem_map.mp hmem
    exact ⟨octets, rfl⟩
  have hpieces : pieces = f.pieces :=
    (List.map_inj_right fun _ _ => Except.ok.inj).mp (hfields.symm.trans hencodable.fields_eq)
  rw [hpieces] at hfits
  refine ⟨hencodable, ?_⟩
  rw [encode_eq_writeFields hlength, hencodable.fields_eq,
    Buffer.writeFields_ok (b := .fresh slots) hfits, flatten_pieces]
  rfl

/-- **A buffer that is as large as its frame is never too small.** -/
theorem toBytes_ne_bufferTooSmall (f : Frame) : f.toBytes ≠ .error .bufferTooSmall := by
  intro h
  unfold toBytes at h
  by_cases hlong : maxHops < f.hops.length
  · rw [show f.encode _ = _ from if_pos hlong] at h
    exact nomatch Except.error.inj h
  rw [encode_eq_writeFields (Nat.not_lt.mp hlong)] at h
  have hroom : (Buffer.ofSize f.encodedLength).room.length = f.encodedLength := List.length_replicate
  by_cases hstops : ∃ before cause, StopsBehind f.fields f.encodedLength before cause
  · obtain ⟨before, cause, hstops⟩ := hstops
    rw [(hroom.symm ▸ hstops : StopsBehind _ _ _ _).writeFields] at h
    exact cause_ne_bufferTooSmall hstops (Except.error.inj h)
  · obtain ⟨pieces, hfields, hfits⟩ := Buffer.exists_pieces f.fields f.encodedLength
      fun before cause hcause => hstops ⟨before, cause, hcause⟩
    rw [hfields, Buffer.writeFields_ok (hroom.symm ▸ hfits)] at h
    contradiction

/-- **What becomes of a buffer into which a frame is written**, whatever the octets in it. A frame with too
many hops leaves it alone. Of any other frame the destination, the source, each hop, the two octets of its
kind and the information are written in turn, up to the first of them that is an address which cannot be
written, and is refused for that reason, or that does not fit. The octets of the fields in front of it are
then at the front of the buffer, and those behind are as they were. A frame that stops nowhere is written as
its octets, as many as its length tells and the same as in a buffer of that length. Such a buffer is never too
small. -/
theorem encode_characterized (f : Frame) (slots : Bytes) :
    let addresses : List Address :=
      ⟨f.destination, true, false⟩ :: ⟨f.source, false, decide (f.hops.length = 0)⟩ ::
        f.hops.mapIdx fun i hop => ⟨hop.callsign, hop.used, decide (i + 1 = f.hops.length)⟩
    let fields := addresses.map Address.encode ++ [.ok [0x03], .ok [0xF0], .ok f.information]
    (8 < f.hops.length → f.encode (.fresh slots) = (.error (.tooManyHops f.hops.length), .fresh slots)) ∧
    (f.hops.length ≤ 8 →
      (∀ before cause, StopsBehind fields slots.length before cause →
        f.encode (.fresh slots) = (.error cause, ⟨before.flatten, slots.drop before.flatten.length⟩)) ∧
      ((∀ before cause, ¬StopsBehind fields slots.length before cause) →
        ∃ pieces : List Bytes, fields = pieces.map .ok ∧ pieces.flatten.length = f.encodedLength ∧
          f.toBytes = .ok pieces.flatten ∧
          f.encode (.fresh slots) = (.ok (), ⟨pieces.flatten, slots.drop pieces.flatten.length⟩))) ∧
    f.toBytes ≠ .error .bufferTooSmall := by
  intro addresses fields
  have hfields : fields = f.fields := by
    unfold Frame.fields
    rw [addresses_eq]
    rfl
  rw [hfields]
  refine ⟨fun hlong => if_pos hlong, fun hlength => ⟨fun before cause hstops => ?_, fun hnone => ?_⟩,
    toBytes_ne_bufferTooSmall f⟩
  · rw [encode_eq_writeFields hlength]
    exact StopsBehind.writeFields (b := .fresh slots) hstops
  · obtain ⟨hencodable, hwritten⟩ := encode_of_not_stops hlength hnone
    refine ⟨f.pieces, hencodable.fields_eq, ?_, ?_, ?_⟩
    · rw [flatten_pieces, octets_length hencodable]
    · rw [flatten_pieces]
      exact toBytes_eq_ok_iff.mpr ⟨hencodable, rfl⟩
    · rw [flatten_pieces]
      exact hwritten

/-- Of a buffer with room for one address and a half, the half is left as it was. -/
example : encode ⟨⟨"APRS".toList, []⟩, ⟨"N0CALL".toList, "9".toList⟩, [], [0x3E]⟩
    (.fresh (List.replicate 10 0xAA)) =
      (.error .bufferTooSmall, ⟨[0x82, 0xA0, 0xA4, 0xA6, 0x40, 0x40, 0xE0], [0xAA, 0xAA, 0xAA]⟩) :=
  rfl

end Frame

end Aprs
