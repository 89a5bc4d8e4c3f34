import Aprs.Checked.Payload
import Aprs.Proofs.Checked.Position
import Aprs.Proofs.Checked.Weather
import Aprs.Proofs.Cursor
import Aprs.Text.Utf8.RoundTrip

/-!
# No check of an information field fails

What is asked of a field of at most half as many octets as a word counts lies in the words: a decoder
looks less than half a hundred octets ahead of its cursor, which has not passed the end.

Specification: 4.6 (Packet Framer/Dispatcher) and 9 (Design Notes).
-/

namespace Aprs.Checked

variable {limit : Nat} {payload : Bytes}

/-! ## Messages -/

/-- The word of an answer ends behind three octets, which are its three letters. -/
theorem cutText_answer {body number : Text} {answer : Message.Answer}
    (h : Message.answer? body = some (answer, number)) :
    cutText 3 body = .ok (body.take 3) := by
  unfold Message.answer? at h
  obtain ⟨⟨word, rest⟩, hcut, h⟩ := Option.bind_eq_some_iff.mp h
  obtain ⟨hbody, hsize⟩ := Utf8.splitAt?_eq_some hcut
  have hletters {t : Text} (ht : Text.lowerAscii word = t) : word.length = t.length := by
    rw [← ht]
    exact (List.length_map _).symm
  -- both words of an answer have three letters, in either case
  have hlength : word.length = 3 := by
    dsimp only at h
    split at h
    · simp at h
    split at h
    · next hack => exact hletters hack
    split at h
    · next hrej => exact hletters hrej
    · simp at h
  have hlong : ¬ Utf8.size body < 3 := by
    rw [hbody]
    unfold Utf8.size at hsize ⊢
    rw [Utf8.encode_append, List.length_append]
    omega
  unfold cutText
  rw [if_neg hlong, hcut, hbody, ← hlength, List.take_left]

/-- The parts of a message are cut at places that were found in it. -/
theorem messageOfText_eq (addressee t : Text) :
    messageOfText addressee t = .ok (Message.ofText addressee t) := by
  unfold messageOfText Message.ofText
  generalize Message.parts t = found
  obtain ⟨body, number, replyAck⟩ := found
  dsimp only
  cases hanswer : Message.answer? body with
  | none => rfl
  | some found =>
    obtain ⟨answer, ackNumber⟩ := found
    dsimp only
    rw [cutText_answer hanswer]
    rfl

/-- **A message is decoded without an abort.** -/
theorem decodeMessage_eq (h : payload.length + 2 ≤ limit) :
    decodeMessage limit payload = .ok (Message.decode payload) := by
  unfold decodeMessage Message.decode
  match payload, h with
  | [], _ => rfl
  | [_], _ => rfl
  | identifier :: a :: rest, h =>
    rw [if_neg (by simp), behind_eq (by simp), ok_bind]
    dsimp only [List.drop]
    rw [cutFirst_eq_findIdx?]
    cases hfind : rest.findIdx? (· = 0x3A) with
    | none => rfl
    | some i =>
      have hi := (List.findIdx?_eq_some_iff_findIdx_eq.mp hfind).1
      simp only [List.length_cons] at h
      dsimp only [Option.map_some]
      rw [add_eq (by omega), ok_bind, piece_eq (by omega) (by simp only [List.length_cons]; omega),
        ok_bind, add_eq (by omega), ok_bind, behind_eq (by simp only [List.length_cons]; omega),
        ok_bind, messageOfText_eq]
      rfl

/-! ## Objects and items -/

variable {α : Type} [Scalar α]

/-- A cursor leaves room in a word for as many octets as any decoder looks ahead. -/
theorem room_of_isCursor {start : Nat} (hword : 0xFFFF ≤ limit) (hlimit : 2 * payload.length ≤ limit)
    (h : IsCursor payload start) : start + 26 ≤ limit := by
  have := h.2
  omega

/-- **An object is decoded without an abort.** Its name and flag are looked at only where there are thirty
octets. -/
theorem decodeObject_eq (hword : 0xFFFF ≤ limit) (hlimit : 2 * payload.length ≤ limit)
    (destination : Callsign) (now : Instant) :
    decodeObject (α := α) limit payload destination now =
      .ok (Object.decode payload destination now) := by
  unfold decodeObject Object.decode
  split
  · rfl
  next hlength =>
  have hminimum : Object.minLength = 30 := rfl
  have hflag : Object.flagPlace = 10 := rfl
  have hstart : IsCursor payload (Object.flagPlace + 1) := ⟨by omega, by omega⟩
  have htime := Timestamp.decode_isCursor hstart now
  rw [piece_eq (by decide) (by omega), ok_bind, octet_eq (by omega), ok_bind,
    decodeTimestamp_eq (by omega), ok_bind]
  dsimp only
  rw [decodePosition_eq (room_of_isCursor hword hlimit htime), ok_bind]
  rfl

/-- A name ends where a search for what ends it does. -/
theorem takeWhile_not_eq_take (p : UInt8 → Bool) (octets : Bytes) :
    octets.takeWhile (fun b => !p b) = octets.take (octets.findIdx p) := by
  rw [List.takeWhile_eq_take_findIdx_not]
  simp only [Bool.not_not]

/-- **An item is decoded without an abort.** Its name ends before the flag that was found. -/
theorem decodeItem_eq (hword : 0xFFFF ≤ limit) (hlimit : 2 * payload.length ≤ limit)
    (destination : Callsign) (now : Instant) :
    decodeItem (α := α) limit payload destination now =
      .ok (Item.decode payload destination now) := by
  unfold decodeItem Item.decode
  split
  · rfl
  next hlength =>
  have hminimum : Item.minLength = 19 := rfl
  have hsearched : Item.maxName + 1 = 10 := rfl
  -- an item is longer than its name may be, so the search is never cut short
  have hstop : min payload.length (Item.maxName + 2) = 11 := by omega
  rw [hstop, piece_eq (by decide) (by omega), ok_bind]
  have hsearch : ((payload.drop 1).take 10).length = 10 := by
    rw [List.length_take, List.length_drop]
    omega
  dsimp only
  rw [takeWhile_not_eq_take, hsearched]
  cases hfind : ((payload.drop 1).take 10).findIdx? Item.isFlag with
  | none =>
    rw [List.findIdx?_eq_none_iff_findIdx_eq.mp hfind, List.take_length, List.drop_length]
    rfl
  | some length =>
    obtain ⟨hlt, hindex⟩ := List.findIdx?_eq_some_iff_findIdx_eq.mp hfind
    have hflag : ((payload.drop 1).take 10).drop length =
        payload.getD (1 + length) 0 :: ((payload.drop 1).take 10).drop (length + 1) := by
      rw [List.drop_eq_getElem_cons hlt, List.getElem_take, List.getElem_drop,
        List.getD_eq_getElem?_getD, List.getElem?_eq_getElem (by omega)]
      rfl
    have htake : ((payload.drop 1).take 10).take length = (payload.drop 1).take length := by
      rw [List.take_take, Nat.min_eq_left (by omega)]
    have hwritten : ((payload.drop 1).take length).length = length := by
      rw [List.length_take, List.length_drop]
      omega
    rw [hindex, htake, hwritten, hflag]
    -- a flag without a name before it is as bad as no flag
    cases length with
    | zero => rfl
    | succ n =>
      have hcursor : IsCursor payload (1 + (n + 1) + 1) := ⟨by omega, by omega⟩
      have hnonempty : ((payload.drop 1).take (n + 1)).isEmpty = false := by
        rw [List.isEmpty_eq_false_iff, ← List.length_pos_iff, hwritten]
        exact Nat.succ_pos n
      dsimp only
      rw [if_neg (Nat.succ_ne_zero n), add_eq (by omega), ok_bind,
        piece_eq (by omega) (by omega), ok_bind, octet_eq (by omega), ok_bind, add_eq (by omega), ok_bind,
        decodePosition_eq (room_of_isCursor hword hlimit hcursor), ok_bind,
        Nat.add_sub_cancel_left, hnonempty, Nat.add_comm 1 (n + 1)]
      rfl

/-! ## The information field -/

omit [Scalar α] in
/-- Weather is read from a place within the payload, and moves it no further than the end. -/
theorem addWeather_eq (hlimit : payload.length ≤ limit) (report : PositionReport α) (cursor : Nat)
    (pieces : Pieces α) :
    addWeather limit payload report cursor pieces =
      .ok (Payload.addWeather payload report cursor pieces) := by
  unfold addWeather Payload.addWeather
  split
  · rfl
  · rw [decodeWeather_eq hlimit, ok_bind]
    rfl

section

variable (hword : 0xFFFF ≤ limit) (hlimit : 2 * payload.length ≤ limit) (destination : Callsign)
  (now : Instant)

include hword hlimit

/-- A position is decoded from a cursor, and so is the weather behind it. -/
theorem positionContents_eq {start : Nat} (h : IsCursor payload start) (instant : Instant)
    (pieces : Pieces α) :
    positionContents limit payload destination instant pieces start =
      .ok (Payload.positionContents payload destination instant pieces start) := by
  unfold positionContents Payload.positionContents
  rw [decodePosition_eq (room_of_isCursor hword hlimit h), ok_bind]
  dsimp only
  rw [addWeather_eq (by omega), ok_bind]
  rfl

theorem timedPosition_eq (h : payload ≠ []) :
    timedPosition (α := α) limit payload destination now =
      .ok (Payload.timedPosition payload destination now) := by
  have htime := Timestamp.decode_isCursor (IsCursor.one h) now
  unfold timedPosition Payload.timedPosition
  rw [decodeTimestamp_eq (by omega), ok_bind]
  exact positionContents_eq hword hlimit destination htime _ _

omit [Scalar α] in
theorem messageContents_eq :
    messageContents (α := α) limit payload = .ok (Payload.messageContents payload) := by
  unfold messageContents Payload.messageContents
  rw [decodeMessage_eq (by omega), ok_bind]
  rfl

theorem objectContents_eq :
    objectContents (α := α) limit payload destination now =
      .ok (Payload.objectContents payload destination now) := by
  unfold objectContents Payload.objectContents
  rw [decodeObject_eq hword hlimit, ok_bind]
  cases Object.decode (α := α) payload destination now with
  | error cause => rfl
  | ok found =>
    dsimp only
    rw [addWeather_eq (by omega), ok_bind]
    rfl

theorem itemContents_eq :
    itemContents (α := α) limit payload destination now =
      .ok (Payload.itemContents payload destination now) := by
  unfold itemContents Payload.itemContents
  rw [decodeItem_eq hword hlimit, ok_bind]
  cases Item.decode (α := α) payload destination now with
  | error cause => rfl
  | ok found =>
    dsimp only
    rw [addWeather_eq (by omega), ok_bind]
    rfl

omit [Scalar α] in
theorem weatherContents_eq :
    weatherContents (α := α) limit payload now = .ok (Payload.weatherContents payload now) := by
  unfold weatherContents Payload.weatherContents
  rw [decodeTimestamp_eq (by omega), ok_bind]
  dsimp only
  rw [decodeWeather_eq (by omega), ok_bind]
  rfl

/-- **No identifier leads to an abort.** -/
theorem contents_eq :
    contents (α := α) limit payload destination now =
      .ok (Payload.contents payload destination now) := by
  cases payload with
  | nil => rfl
  | cons identifier rest =>
    have hnil : identifier :: rest ≠ [] := List.cons_ne_nil _ _
    unfold contents
    rw [Payload.contents]
    dsimp only
    refine ite_ok (timedPosition_eq hword hlimit destination now hnil) fun h₁ => ?_
    refine ite_ok rfl fun h₂ => ?_
    refine ite_ok (positionContents_eq hword hlimit destination (IsCursor.one hnil) now []) fun h₃ => ?_
    refine ite_ok (messageContents_eq hword hlimit) fun h₄ => ?_
    refine ite_ok (objectContents_eq hword hlimit destination now) fun h₅ => ?_
    refine ite_ok (itemContents_eq hword hlimit destination now) fun h₆ => ?_
    refine ite_ok (weatherContents_eq hword hlimit now) fun h₇ => ?_
    rw [if_neg h₁, if_neg h₂, if_neg h₃, if_neg h₄, if_neg h₅, if_neg h₆, if_neg h₇]
    rfl

end

variable (α) in
/-- **No check of an information field fails.** Whatever octets come in, for whatever destination and
at whatever instant, the checked decoding is not aborted and gives what the total one does; its cursor
lies behind the identifier and has not passed the end, and the comment is the text of the octets from
there on. A machine is only asked for what all of them have: places are words of at least 16 bits, and
no string has more octets than half of the places count. -/
theorem decodePayload_not_aborted (hword : 0xFFFF ≤ limit) {raw : Bytes}
    (hlimit : 2 * raw.length ≤ limit) (destination : Callsign) (now : Instant) :
    ∃ payload : Payload α,
      decodePayload limit raw destination now = .ok payload ∧
        payload = Payload.decode raw destination now ∧
        payload.cursor ≤ raw.length ∧ (raw ≠ [] → 1 ≤ payload.cursor) ∧
        payload.comment = Utf8.lossy (raw.drop payload.cursor) := by
  have hcursor : (Payload.contents (α := α) raw destination now).cursor ≤ raw.length ∧
      (raw ≠ [] → 1 ≤ (Payload.contents (α := α) raw destination now).cursor) := by
    -- an empty field has no identifier that the cursor could lie behind
    cases raw with
    | nil => exact ⟨Nat.le_refl 0, fun h => absurd rfl h⟩
    | cons identifier rest =>
      have h := Payload.contents_isCursor (α := α) (List.cons_ne_nil identifier rest) destination now
      exact ⟨h.2, fun _ => h.1⟩
  refine ⟨Payload.decode raw destination now, ?_, rfl, hcursor.1, hcursor.2, rfl⟩
  unfold decodePayload Payload.decode
  rw [contents_eq hword hlimit, ok_bind]
  dsimp only
  rw [behind_eq hcursor.1]
  rfl

/-- A report of a weather station on a machine with words of 64 bits. -/
theorem decodePayload_not_aborted_weather :
    ∃ payload : Payload Float,
      decodePayload 0xFFFFFFFFFFFFFFFF
          (Utf8.encode "@120845z4903.50N/07201.75W_220/004g005t077".toList)
          ⟨"APRS".toList, []⟩ .epoch = .ok payload ∧
        payload = Payload.decode (Utf8.encode "@120845z4903.50N/07201.75W_220/004g005t077".toList)
          ⟨"APRS".toList, []⟩ .epoch ∧
        payload.cursor ≤ 42 ∧ 1 ≤ payload.cursor := by
  obtain ⟨payload, hrun, hdecode, hend, hbegin, -⟩ :=
    decodePayload_not_aborted Float (show 0xFFFF ≤ 0xFFFFFFFFFFFFFFFF by decide)
      (show 2 * (Utf8.encode "@120845z4903.50N/07201.75W_220/004g005t077".toList).length ≤ _ by decide)
      ⟨"APRS".toList, []⟩ .epoch
  exact ⟨payload, hrun, hdecode, hend, hbegin (by decide)⟩

end Aprs.Checked
