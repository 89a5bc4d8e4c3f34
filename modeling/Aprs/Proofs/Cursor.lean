import Aprs.Payload.Decode

/-!
# The cursor stays behind the identifier and inside the field

The decoders of an information field hand a cursor on, each beginning where the one before it stopped.
Every one of them returns a place that is a cursor if it was given one, and so does any row of them.

> `contents_isCursor`: the cursor at which the comment is cut off lies behind the identifier and has
> not passed the end.

Specification: 8 (Testable Properties).
-/

namespace Aprs

/-- A place behind the identifier that has not passed the end. -/
def IsCursor (payload : Bytes) (place : Nat) : Prop := 1 ≤ place ∧ place ≤ payload.length

namespace IsCursor

variable {payload : Bytes} {place place' : Nat}

/-- The place behind the identifier. -/
theorem one (h : payload ≠ []) : IsCursor payload 1 :=
  ⟨Nat.le_refl 1, List.length_pos_iff.mpr h⟩

/-- The end. -/
theorem length (h : payload ≠ []) : IsCursor payload payload.length :=
  ⟨List.length_pos_iff.mpr h, Nat.le_refl _⟩

/-- A later place is a cursor as long as it has not passed the end. -/
theorem mono (h : IsCursor payload place) (hplace : place ≤ place')
    (hend : place' ≤ payload.length) : IsCursor payload place' :=
  ⟨Nat.le_trans h.1 hplace, hend⟩

theorem ne_nil (h : IsCursor payload place) : payload ≠ [] :=
  List.length_pos_iff.mp (Nat.le_trans h.1 h.2)

end IsCursor

variable {payload : Bytes} {start : Nat}

/-! ## Timestamps -/

/-- A timestamp that is cut short takes what is left. -/
theorem Timestamp.decode_isCursor (h : IsCursor payload start) (now : Instant) :
    IsCursor payload (Timestamp.decode payload start now).2 := by
  -- a timestamp that is cut short takes all that is left
  have hbehind (width : Nat) : IsCursor payload (min (start + width) payload.length) :=
    h.mono (Nat.le_min.mpr ⟨Nat.le_add_right _ _, h.2⟩) (Nat.min_le_right _ _)
  unfold Timestamp.decode
  split
  · exact hbehind _
  split
  · exact hbehind _
  dsimp only
  split <;> exact hbehind _

/-! ## Positions -/

variable {α : Type} [Scalar α]

/-- An uncompressed position takes nothing if it is faulty, and else its field and the extension behind it.
-/
theorem Uncompressed.decode_isCursor (h : IsCursor payload start) (instant : Instant) :
    IsCursor payload (Uncompressed.decode (α := α) payload start instant).2 := by
  have hwidth : Uncompressed.width = 19 := rfl
  unfold Uncompressed.decode
  dsimp only
  split
  · exact h
  next hroom =>
  rw [List.length_take, List.length_drop] at hroom
  split
  · exact h
  · refine h.mono (Nat.le_trans (Nat.le_add_right _ _) (Nat.le_add_right _ _)) ?_
    dsimp only
    split
    · next hsome => exact Extension.room_of_ofUncompressed? hsome
    · omega

/-- A compressed position takes nothing if it is faulty, and else its field. -/
theorem Compressed.decode_isCursor (h : IsCursor payload start) (instant : Instant) :
    IsCursor payload (Compressed.decode (α := α) payload start instant).2 := by
  have hwidth : Compressed.width = 13 := rfl
  unfold Compressed.decode
  dsimp only
  split
  · exact h
  next hroom =>
  rw [List.length_take, List.length_drop] at hroom
  split
  · exact h
  split
  · exact h.mono (Nat.le_add_right _ _) (by omega)
  · exact h

/-- An altitude stands in four octets. -/
theorem MicE.room_of_altitude? {octets : Bytes} (h : (MicE.altitude? (α := α) octets).isSome) :
    4 ≤ octets.length := by
  unfold MicE.altitude? at h
  split at h
  · simp only [List.length_cons]
    omega
  · simp at h

/-- A Mic-E report takes its nine octets, and an octet for the device and an altitude where they are there.
-/
theorem MicE.read_isCursor {call : Bytes} {instant : Instant} {report : PositionReport α}
    {cursor : Nat} (h : MicE.read payload call instant = .ok (report, cursor)) :
    IsCursor payload cursor := by
  have hwidth : MicE.width = 9 := rfl
  unfold MicE.read at h
  cases hd : MicE.destination call with
  | error cause => rw [hd] at h; exact absurd h (by simp [bind, Except.bind])
  | ok d =>
    rw [hd] at h
    dsimp only [bind, Except.bind] at h
    split at h
    · next kind deg min hun sp dc se code table rest =>
      split at h
      · simp at h
      obtain ⟨-, rfl⟩ := Prod.mk.inj (Except.ok.inj h)
      -- the kind of device and the altitude take octets of `rest`
      have hdevice : (if rest.head?.any MicE.isDeviceType then 1 else 0) ≤ rest.length := by
        cases rest with
        | nil => simp
        | cons b more => split <;> simp
      generalize (if rest.head?.any MicE.isDeviceType then 1 else 0) = device at hdevice ⊢
      refine ⟨by omega, ?_⟩
      simp only [List.length_cons]
      split
      · next hsome =>
        have hfour := MicE.room_of_altitude? hsome
        rw [List.length_drop] at hfour
        omega
      · omega
    · simp [throw, throwThe, MonadExceptOf.throw] at h

theorem MicE.decode_isCursor (h : payload ≠ []) (destination : Callsign) (instant : Instant) :
    IsCursor payload (MicE.decode (α := α) payload destination instant).2 := by
  unfold MicE.decode
  split
  · next hread => exact MicE.read_isCursor hread
  · exact IsCursor.one h

/-- A sentence takes all of the payload, or nothing behind the identifier. -/
theorem Nmea.decode_isCursor (h : payload ≠ []) (instant : Instant) :
    IsCursor payload (Nmea.decode (α := α) payload instant).2 := by
  unfold Nmea.decode
  split
  · exact IsCursor.one h
  split
  · exact IsCursor.one h
  · exact IsCursor.length h

/-- **The cursor behind a position** is one if the position was looked for at one. -/
theorem PositionReport.decode_isCursor (h : IsCursor payload start) (destination : Callsign)
    (instant : Instant) :
    IsCursor payload (PositionReport.decode (α := α) payload start destination instant).2 := by
  have hplain : IsCursor payload (PositionReport.decodePlain (α := α) payload start instant).2 := by
    unfold PositionReport.decodePlain
    split
    · exact h
    split
    · exact Compressed.decode_isCursor h instant
    split
    · exact Uncompressed.decode_isCursor h instant
    · exact h
  unfold PositionReport.decode
  split
  · split
    · exact MicE.decode_isCursor h.ne_nil destination instant
    split
    · exact Nmea.decode_isCursor h.ne_nil instant
    · exact hplain
  · exact hplain

/-! ## Weather reports -/

theorem Weather.readFrom_suffix (bytes : Bytes) (held : Weather) (rest : Bytes) :
    (Weather.readFrom bytes held rest).2 <:+ rest := by
  have htokens := Weather.tokens_suffix rest
  unfold Weather.readFrom
  generalize Weather.tokens rest = row at htokens ⊢
  obtain ⟨row, behind⟩ := row
  dsimp only
  split <;> exact htokens

theorem Weather.read_suffix (bytes : Bytes) : (Weather.read bytes).2 <:+ bytes := by
  unfold Weather.read
  split
  · next fields rest hblock =>
    exact (Weather.readFrom_suffix _ _ _).trans (Weather.block?_suffix hblock)
  · exact Weather.readFrom_suffix _ _ _

/-- A weather report ends no earlier than where it was looked for. -/
theorem Weather.le_decode_snd (h : start ≤ payload.length) :
    start ≤ (Weather.decode payload start).2 := by
  have hlength := (Weather.read_suffix (payload.drop start)).length_le
  rw [List.length_drop] at hlength
  -- what is left are the last of the octets from `start` on, so they begin no earlier
  show start ≤ payload.length - (Weather.read (payload.drop start)).2.length
  omega

/-- Weather takes the octets that were read, so it ends within the payload. -/
theorem Weather.decode_isCursor (h : IsCursor payload start) :
    IsCursor payload (Weather.decode payload start).2 :=
  h.mono (Weather.le_decode_snd h.2) (Nat.sub_le _ _)

/-! ## Messages, objects and items -/

/-- A message takes all of the payload. One that is refused leaves the cursor within it. -/
theorem Message.decode_isCursor (h : payload ≠ []) :
    IsCursor payload (Message.decode payload).2 := by
  have hfailed (fault : Message.Fault) : IsCursor payload (Message.failed payload fault).2 :=
    ⟨Nat.le_min.mpr ⟨Nat.le_refl 1, List.length_pos_iff.mpr h⟩, Nat.min_le_right _ _⟩
  unfold Message.decode
  split
  · split
    · exact hfailed _
    · exact IsCursor.length h
  · exact hfailed _

variable {destination : Callsign} {now : Instant}

/-- An object ends with its position. -/
theorem Object.decode_isCursor {object : Object α} {cursor : Nat}
    (h : Object.decode payload destination now = .ok (object, cursor)) :
    IsCursor payload cursor := by
  unfold Object.decode at h
  split at h
  · simp at h
  · next hlength =>
    have hminimum : Object.minLength = 30 := rfl
    obtain ⟨-, rfl⟩ := Prod.mk.inj (Except.ok.inj h)
    refine PositionReport.decode_isCursor (Timestamp.decode_isCursor ?_ now) _ _
    exact ⟨by decide, Nat.le_trans (by decide : Object.flagPlace + 1 ≤ 30) (by omega)⟩

/-- So does an item. -/
theorem Item.decode_isCursor {item : Item α} {cursor : Nat}
    (h : Item.decode payload destination now = .ok (item, cursor)) : IsCursor payload cursor := by
  unfold Item.decode at h
  split at h
  · simp at h
  next hlength =>
  dsimp only at h
  split at h
  · simp at h
  next flag rest hflag =>
  split at h
  · simp at h
  obtain ⟨-, rfl⟩ := Prod.mk.inj (Except.ok.inj h)
  refine PositionReport.decode_isCursor ⟨Nat.succ_pos _, ?_⟩ _ _
  -- the flag stands behind the name in the octets that are searched
  have hroom := congrArg List.length hflag
  rw [List.length_drop, List.length_take, List.length_drop, List.length_cons] at hroom
  omega

/-! ## The information field -/

omit [Scalar α] in
theorem Payload.addWeather_isCursor (h : IsCursor payload start) (report : PositionReport α)
    (pieces : Pieces α) :
    IsCursor payload (Payload.addWeather payload report start pieces).2 := by
  unfold Payload.addWeather
  split
  · exact h
  · exact Weather.decode_isCursor h

/-- **Whatever a payload holds, its comment begins at a cursor.** With a position it is the place behind the
position and its weather. -/
theorem Payload.positionContents_isCursor (h : IsCursor payload start) (instant : Instant)
    (pieces : Pieces α) :
    IsCursor payload
      (Payload.positionContents payload destination instant pieces start).cursor :=
  Payload.addWeather_isCursor (PositionReport.decode_isCursor h destination instant) _ _

theorem Payload.objectContents_isCursor (h : payload ≠ []) :
    IsCursor payload
      (Payload.objectContents (α := α) payload destination now).cursor := by
  unfold Payload.objectContents
  split
  · exact IsCursor.one h
  · next hobject => exact Payload.addWeather_isCursor (Object.decode_isCursor hobject) _ _

theorem Payload.itemContents_isCursor (h : payload ≠ []) :
    IsCursor payload (Payload.itemContents (α := α) payload destination now).cursor := by
  unfold Payload.itemContents
  split
  · exact IsCursor.one h
  · next hitem => exact Payload.addWeather_isCursor (Item.decode_isCursor hitem) _ _

omit [Scalar α] in
/-- The cursor of contents that a condition chooses. -/
theorem Payload.isCursor_ite {p : Prop} [Decidable p] {a b : Payload.Contents α}
    (ha : IsCursor payload a.cursor) (hb : IsCursor payload b.cursor) :
    IsCursor payload (if p then a else b).cursor := by
  split
  · exact ha
  · exact hb

/-- **The cursor at which the comment is cut off** lies behind the identifier and has not passed the
end. -/
theorem Payload.contents_isCursor (h : payload ≠ []) (destination : Callsign) (now : Instant) :
    IsCursor payload (Payload.contents (α := α) payload destination now).cursor := by
  have hone := IsCursor.one h
  have htime := Timestamp.decode_isCursor hone now
  unfold Payload.contents
  split
  · exact absurd rfl h
  dsimp only
  refine isCursor_ite (Payload.positionContents_isCursor htime _ _) ?_
  refine isCursor_ite hone ?_
  refine isCursor_ite (Payload.positionContents_isCursor hone _ _) ?_
  refine isCursor_ite (Message.decode_isCursor h) ?_
  refine isCursor_ite (Payload.objectContents_isCursor h) ?_
  refine isCursor_ite (Payload.itemContents_isCursor h) ?_
  refine isCursor_ite (Weather.decode_isCursor htime) ?_
  -- every other field is left to the comment behind its identifier
  refine isCursor_ite hone (isCursor_ite hone (isCursor_ite hone (isCursor_ite hone ?_)))
  exact isCursor_ite (isCursor_ite hone hone) (isCursor_ite hone (isCursor_ite hone hone))

end Aprs
