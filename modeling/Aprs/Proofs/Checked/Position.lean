import Aprs.Checked.Position
import Aprs.Proofs.Checked.Extension

/-!
# No check of a position fails

Each encoding takes a piece of fixed width, and looks at its octets only if all of it is there. The
numbers in it have few digits. What is then asked for behind the piece begins at a cursor that has
not passed the end.

Specification: 4.3 (Position Decoder).
-/

namespace Aprs.Checked

open Position (UncompressedFault MicEFault NmeaFault)

variable {α : Type} [Scalar α]

/-- Truncating does not overflow within 32 bits. -/
theorem truncate_eq {hundredths : Nat} (ambiguity : Nat) (h : hundredths ≤ Scalar.word32) :
    truncate ambiguity hundredths = .ok (Angle.truncate ambiguity hundredths) := by
  have hpow : Nat.pow 10 (min ambiguity Angle.maxAmbiguity) ≤ Nat.pow 10 4 :=
    Nat.pow_le_pow_right (by decide) (Nat.min_le_right _ _)
  have hpos : 0 < Nat.pow 10 (min ambiguity Angle.maxAmbiguity) := Nat.pow_pos (by decide)
  have hword : Nat.pow 10 4 ≤ Scalar.word32 := by decide
  unfold truncate Angle.truncate
  rw [pow_eq (Nat.le_trans hpow hword), ok_bind, div_eq (Nat.pos_iff_ne_zero.mp hpos), ok_bind,
    mul_eq (Nat.le_trans (Nat.div_mul_le_self _ _) h)]

/-- As many elements as hold at the end of a list are no more than all. -/
theorem length_trailing_le {β : Type} (p : β → Bool) (xs : List β) :
    (xs.reverse.takeWhile p).length ≤ xs.length := by
  have hall := (List.takeWhile_prefix p (l := xs.reverse)).length_le
  rw [List.length_reverse] at hall
  exact hall

/-! ## Uncompressed -/

/-- The blanks behind the digits are cut off within the field. -/
theorem unblank_gives (field : Bytes) : Gives (unblank field) (Uncompressed.unblank field) := by
  have hblanks := length_trailing_le (fun b : UInt8 => decide (b = 0x20)) field
  unfold unblank Uncompressed.unblank
  refine Gives.check (sub_eq hblanks) ?_
  refine Gives.check (before_eq (Nat.sub_le _ _)) ?_
  dsimp only
  split
  · exact Gives.throw _
  · refine Gives.check (behind_eq (Nat.sub_le _ _)) ?_
    rw [List.length_drop, Nat.sub_sub_self hblanks]
    exact Gives.pure _

theorem uncompressedNumber_gives (field : Bytes) :
    Gives (uncompressedNumber field) (Uncompressed.number field) := by
  unfold uncompressedNumber Uncompressed.number
  refine Gives.check (field?_eq field) ?_
  cases Decimal.field? field with
  | none => exact Gives.throw _
  | some n => exact Gives.pure n

/-- A number that is read is within 32 bits, so that it can be truncated. -/
theorem uncompressedNumber_bound {field : Bytes} {n : Nat} (h : Uncompressed.number field = .ok n) :
    n ≤ Scalar.word32 := by
  unfold Uncompressed.number at h
  split at h
  · next m hfield =>
    have hword : 1000000000 ≤ Scalar.word32 := by decide
    have := field?_bound hfield
    rw [← Except.ok.inj h]
    omega
  · simp at h

/-- Every octet that is looked at in a coordinate is there. -/
theorem angle_gives {axis : Axis} {field : Bytes} (disregarded : Nat)
    (h : field.length = axis.degreeDigits + 6) :
    Gives (angle axis disregarded field) (Uncompressed.angle axis disregarded field) := by
  have hbehind : (field.drop axis.degreeDigits).length = 6 := by
    rw [List.length_drop, h, Nat.add_sub_cancel_left]
  have hbefore : before field axis.degreeDigits = .ok (field.take axis.degreeDigits) :=
    before_eq (by rw [h]; exact Nat.le_add_right _ _)
  have hfirst : octet field axis.degreeDigits = octet (field.drop axis.degreeDigits) 0 :=
    octet_drop field axis.degreeDigits 0
  unfold angle Uncompressed.angle
  dsimp only
  -- every octet is asked for behind the degrees, where exactly six are left
  rw [octet_drop, octet_drop, octet_drop, octet_drop, octet_drop, hfirst, hbefore]
  match field.drop axis.degreeDigits, hbehind with
  | [a, b, point, c, d, letter], _ =>
    refine Gives.check (x := point) rfl ?_
    dsimp only
    split
    · exact Gives.throw _
    refine Gives.check (x := a) rfl ?_
    refine Gives.check (x := b) rfl ?_
    refine Gives.check (x := c) rfl ?_
    refine Gives.check (x := d) rfl ?_
    refine Gives.bind (unblank_gives [a, b, c, d]) fun minutes _ => ?_
    refine Gives.check rfl ?_
    refine Gives.bind (uncompressedNumber_gives _) fun degrees _ => ?_
    refine Gives.bind (uncompressedNumber_gives _) fun hundredths hnumber => ?_
    refine Gives.check (truncate_eq disregarded (uncompressedNumber_bound hnumber)) ?_
    split
    · exact Gives.throw _
    refine Gives.check (x := letter) rfl ?_
    cases axis.negative? letter with
    | none => exact Gives.throw _
    | some negative => exact Gives.pure _

variable {limit start : Nat} {payload : Bytes}

/-- A piece of fixed width, if it is there, is what is left of so many octets. -/
theorem piece?_width {width : Nat} (hroom : start + width ≤ payload.length) :
    piece? payload start (start + width) = some ((payload.drop start).take width) ∧
      ((payload.drop start).take width).length = width := by
  constructor
  · rw [piece?_eq (Nat.le_add_right _ _) hroom, Nat.add_sub_cancel_left]
  · rw [List.length_take, List.length_drop]
    omega

theorem length_take_drop_lt {width : Nat} (hroom : ¬ start + width ≤ payload.length)
    (hwidth : 0 < width) : ((payload.drop start).take width).length < width := by
  rw [List.length_take, List.length_drop]
  omega

omit [Scalar α] in
/-- The cursor behind an extension that was found has not passed the end. -/
theorem cursor_behind_extension (symbol : UInt8) (h : start ≤ payload.length) :
    start + (if (Extension.ofUncompressed? payload start symbol).isSome then Extension.width else 0)
      ≤ payload.length := by
  split
  · next hsome => exact Extension.room_of_ofUncompressed? hsome
  · exact h

/-- The comment begins at a place within the payload. -/
theorem commentAltitude?_eq (symbol : UInt8) (h : start ≤ payload.length) :
    commentAltitude? (α := α) payload start symbol =
      .ok (if symbol = Extension.weatherSymbol then none
        else Altitude.ofComment? (payload.drop start)) := by
  unfold commentAltitude?
  split
  · rfl
  · rw [behind_eq h]
    rfl

/-- **The uncompressed form is decoded without an abort**, whatever follows the place it starts at, as long
as places are within the limit. -/
theorem decodeUncompressed_eq (h : start + 26 ≤ limit) (instant : Instant) :
    decodeUncompressed (α := α) limit payload start instant =
      .ok (Uncompressed.decode payload start instant) := by
  have hwidth : Uncompressed.width = 19 := rfl
  have hextension : Extension.width = 7 := rfl
  unfold decodeUncompressed Uncompressed.decode
  rw [add_eq (by omega), ok_bind]
  by_cases hroom : start + Uncompressed.width ≤ payload.length
  · obtain ⟨hpiece, hlength⟩ := piece?_width hroom
    rw [hpiece]
    dsimp only
    rw [if_neg (Nat.not_lt.mpr (Nat.le_of_eq hlength.symm))]
    revert hlength
    generalize (payload.drop start).take Uncompressed.width = field
    intro hlength
    -- nineteen octets are there: eight of the latitude, nine of the longitude and two of the symbol
    have hlatitude : Gives (angle .latitude 0 (field.take 8)) _ :=
      angle_gives 0 (by rw [List.length_take, hlength]; rfl)
    have hlongitude (ambiguity : Nat) :
        Gives (angle .longitude ambiguity ((field.drop 9).take 9)) _ :=
      angle_gives ambiguity (by rw [List.length_take, List.length_drop, hlength]; rfl)
    unfold Gives at hlatitude hlongitude
    rw [octet_eq (by omega), ok_bind, before_eq (by omega), ok_bind, hlatitude, ok_bind,
      piece_eq (by decide) (by omega), ok_bind, hlongitude, ok_bind, octet_eq (by omega), ok_bind]
    cases Uncompressed.fault? (Uncompressed.angle .latitude 0 (field.take 8))
        (Uncompressed.angle .longitude
          (Uncompressed.ambiguityOrZero (Uncompressed.angle .latitude 0 (field.take 8)))
          ((field.drop 9).take 9)) with
    | some cause => rfl
    | none =>
      -- the extension, if one was found, lies inside the payload, and the comment begins behind it
      have hcursor := cursor_behind_extension (field.getD 18 0) hroom
      dsimp only
      rw [ok_bind, extensionOfUncompressed?_eq (by omega), ok_bind,
        add_eq (by split <;> omega), ok_bind, commentAltitude?_eq _ hcursor, ok_bind]
      rfl
  · rw [piece?_eq_none (Nat.lt_of_not_le hroom)]
    dsimp only
    rw [if_pos (length_take_drop_lt hroom (by decide))]
    rfl

/-! ## Compressed -/

/-- A letter for an overlay is moved to its digit within eight bits. -/
theorem table_eq (b : UInt8) : table b = .ok (Compressed.table b) := by
  unfold table Compressed.table
  split
  · next h =>
    have hword : word8 = 255 := rfl
    rw [sub_eq h.1, ok_bind, add_eq (by omega), ok_bind,
      show 0x30 + (b.toNat - 0x61) = b.toNat - 0x31 by omega]
    rfl
  · rfl

/-- What base-91 digits write is below the power of the radix that they reach. -/
theorem decodeFrom_ne_overflow {digits : Bytes} :
    ∀ {n : Nat}, (n + 1) * Nat.pow Base91.radix digits.length ≤ Base91.wordBound →
      Base91.decodeFrom n digits ≠ .error .overflow := by
  induction digits with
  | nil => intro n _; simp [Base91.decodeFrom]
  | cons b rest ih =>
    intro n h
    unfold Base91.decodeFrom
    cases hdigit : Base91.digit? b with
    | none => simp
    | some d =>
      have hd : d < Base91.radix := by
        unfold Base91.digit? at hdigit
        split at hdigit
        · next hb =>
          have hb : 33 ≤ b.toNat ∧ b.toNat < 33 + 91 := hb
          have hd : b.toNat - 33 = d := Option.some.inj hdigit
          show d < 91
          omega
        · simp at hdigit
      -- the digit uses up one of those to come, and the bound stays as it is
      have hstep : (Base91.radix * n + d + 1) * Nat.pow Base91.radix rest.length ≤
          Base91.wordBound := Nat.le_trans (digit_step hd n rest.length) h
      have hpos : 1 ≤ Nat.pow Base91.radix rest.length := Nat.pow_pos (by decide)
      have hsum : Base91.radix * n + d + 1 ≤ Base91.wordBound :=
        Nat.le_trans (Nat.le_mul_of_pos_right _ hpos) hstep
      dsimp only
      rw [if_pos (by omega)]
      exact ih hstep

theorem base91_eq {digits : Bytes} (h : digits.length ≤ 4) :
    base91 digits = .ok (Base91.decode digits) := by
  have hpow : Nat.pow Base91.radix digits.length ≤ Nat.pow Base91.radix 4 :=
    Nat.pow_le_pow_right (by decide) h
  have hword : Nat.pow Base91.radix 4 ≤ Base91.wordBound := by decide
  have hfit : Base91.decodeFrom 0 digits ≠ .error .overflow := decodeFrom_ne_overflow (by omega)
  unfold base91
  split
  · next hover => exact absurd hover hfit
  · rfl

/-- Both distances are four digits within the field. -/
theorem distances_gives {field : Bytes} (h : field.length = Compressed.width) :
    Gives (distances field) (Compressed.distances ((field.drop 1).take 8)) := by
  have hwidth : Compressed.width = 13 := rfl
  have hlatitude : ((field.drop 1).take 8).take 4 = (field.drop 1).take (5 - 1) := by
    rw [List.take_take]
    rfl
  have hlongitude : ((field.drop 1).take 8).drop 4 = (field.drop 5).take (9 - 5) := by
    rw [List.drop_take, List.drop_drop]
  have hfour (digits : Bytes) : base91 (digits.take 4) = .ok (Base91.decode (digits.take 4)) :=
    base91_eq (by rw [List.length_take]; exact Nat.min_le_left _ _)
  unfold distances Compressed.distances
  rw [hlatitude, hlongitude]
  refine Gives.check (piece_eq (by decide) (by omega)) ?_
  refine Gives.bind (hfour _) fun latitude _ => ?_
  refine Gives.check (piece_eq (by decide) (by omega)) ?_
  refine Gives.bind (hfour _) fun longitude _ => ?_
  exact Gives.pure _

/-- Neither the test of the type nor the two digits of an altitude overflow. -/
theorem altitude?_eq (c s t : UInt8) :
    altitude? (α := α) c s t = .ok (Compressed.altitude? c s t) := by
  unfold altitude? Compressed.altitude?
  rw [isAltitudeType_eq, base91_eq (show [c, s].length ≤ 4 by simp)]
  by_cases hc : c = 0x20
  · rw [if_pos hc, if_pos (Or.inl hc)]
    rfl
  rw [if_neg hc, ok_bind]
  cases Extension.isAltitudeType t with
  | false =>
    rw [if_pos (Or.inr rfl)]
    rfl
  | true =>
    rw [if_neg (by simp), if_neg (by simp [hc]), ok_bind]
    cases Base91.decode [c, s] <;> rfl

theorem orComment?_eq (feet : Option α) (symbol : UInt8) (h : start ≤ payload.length) :
    orComment? feet payload start symbol =
      .ok (match feet with
        | some feet => some feet
        | none =>
          if symbol = Extension.weatherSymbol then none
          else Altitude.ofComment? (payload.drop start)) := by
  cases feet with
  | none => exact commentAltitude?_eq symbol h
  | some feet => rfl

/-- **The compressed form is decoded without an abort.** -/
theorem decodeCompressed_eq (h : start + 13 ≤ limit) (instant : Instant) :
    decodeCompressed (α := α) limit payload start instant =
      .ok (Compressed.decode payload start instant) := by
  have hwidth : Compressed.width = 13 := rfl
  unfold decodeCompressed Compressed.decode
  rw [add_eq (by omega), ok_bind]
  by_cases hroom : start + Compressed.width ≤ payload.length
  · obtain ⟨hpiece, hlength⟩ := piece?_width hroom
    rw [hpiece]
    dsimp only
    rw [if_neg (Nat.not_lt.mpr (Nat.le_of_eq hlength.symm))]
    revert hlength
    generalize (payload.drop start).take Compressed.width = field
    intro hlength
    have hdistances := distances_gives hlength
    unfold Gives at hdistances
    rw [octet_eq (by omega), ok_bind, table_eq, ok_bind, octet_eq (by omega), ok_bind,
      octet_eq (by omega), ok_bind, octet_eq (by omega), ok_bind, octet_eq (by omega), ok_bind,
      hdistances, ok_bind]
    cases Compressed.distances ((field.drop 1).take 8) with
    | error cause => rfl
    | ok pair =>
      dsimp only
      split
      · rw [altitude?_eq, ok_bind, ok_bind, orComment?_eq _ _ hroom, ok_bind,
          extensionOfCompressed?_eq]
        rfl
      · rfl
  · rw [piece?_eq_none (Nat.lt_of_not_le hroom)]
    dsimp only
    rw [if_pos (length_take_drop_lt hroom (by decide))]
    rfl

/-! ## Mic-E -/

/-- The number of a custom status does not go below zero. -/
theorem status_eq (a b c : MicE.StatusBit) : status a b c = .ok (MicE.status a b c) := by
  cases a <;> cases b <;> cases c <;> rfl

theorem digit_le {b : UInt8} {c : MicE.DestinationCharacter}
    (h : MicE.destinationCharacter b = .ok c) : digit c ≤ 9 := by
  unfold MicE.destinationCharacter at h
  unfold digit
  dsimp only at h
  repeat' split at h
  all_goals first
    | contradiction
    | (rw [← Except.ok.inj h]; simp only [Option.getD_some, Option.getD_none]; omega)

/-- Each octet of the destination gives one character, whose digit is one. -/
theorem characters_bound {octets : Bytes} :
    ∀ {chars : List MicE.DestinationCharacter},
      octets.mapM MicE.destinationCharacter = .ok chars →
        chars.length = octets.length ∧ ∀ c ∈ chars, digit c ≤ 9 := by
  induction octets with
  | nil =>
    intro chars h
    rw [List.mapM_nil] at h
    rw [← Except.ok.inj h]
    exact ⟨rfl, fun c hc => absurd hc List.not_mem_nil⟩
  | cons b rest ih =>
    intro chars h
    rw [List.mapM_cons] at h
    cases hfirst : MicE.destinationCharacter b with
    | error cause => rw [hfirst] at h; exact absurd h (by simp [bind, Except.bind])
    | ok first =>
      cases hrest : rest.mapM MicE.destinationCharacter with
      | error cause => rw [hfirst, hrest] at h; exact absurd h (by simp [bind, Except.bind])
      | ok others =>
        rw [hfirst, hrest] at h
        rw [← Except.ok.inj h]
        obtain ⟨hlength, hdigits⟩ := ih hrest
        refine ⟨by rw [List.length_cons, List.length_cons, hlength], fun c hc => ?_⟩
        rcases List.mem_cons.mp hc with rfl | hc
        · exact digit_le hfirst
        · exact hdigits c hc

/-- The six characters of the destination are read within their call. -/
theorem destination_gives (call : Bytes) : Gives (destination call) (MicE.destination call) := by
  have hword : Scalar.word32 = 4294967295 := rfl
  unfold destination MicE.destination
  split
  · exact Gives.throw _
  next hcall =>
  refine Gives.bind (Gives.found _) fun chars hchars => ?_
  -- six characters are left, each of which gives at most nine
  obtain ⟨hlength, hdigits⟩ := characters_bound hchars
  have hsix : chars.length = 6 := by
    have : MicE.destinationLength = 6 := rfl
    rw [hlength, List.length_take]
    omega
  have hblanks : (chars.reverse.takeWhile fun c => c.digit.isNone).length ≤
      MicE.destinationLength :=
    Nat.le_trans (length_trailing_le _ chars) (Nat.le_of_eq hsix)
  dsimp only
  refine Gives.check (sub_eq hblanks) ?_
  refine Gives.check (before_eq (by rw [hsix]; exact Nat.sub_le _ _)) ?_
  split
  · exact Gives.throw _
  match chars, hsix, hdigits with
  | [a, b, c, d, e, f], _, hdigits =>
    have ha := hdigits a (by simp)
    have hb := hdigits b (by simp)
    have hc := hdigits c (by simp)
    have hd := hdigits d (by simp)
    have he := hdigits e (by simp)
    have hf := hdigits f (by simp)
    refine Gives.check (x := a) rfl ?_
    refine Gives.check (x := b) rfl ?_
    refine Gives.check (x := c) rfl ?_
    refine Gives.check (x := d) rfl ?_
    refine Gives.check (x := e) rfl ?_
    refine Gives.check (x := f) rfl ?_
    refine Gives.check (mul_eq (by omega)) ?_
    refine Gives.check (add_eq (by omega)) ?_
    refine Gives.check (mul_eq (by omega)) ?_
    refine Gives.check (mul_eq (by omega)) ?_
    refine Gives.check (add_eq (by omega)) ?_
    refine Gives.check (mul_eq (by omega)) ?_
    refine Gives.check (add_eq (by omega)) ?_
    refine Gives.check (add_eq (by omega)) ?_
    dsimp only
    -- all sums lie far inside their word; what is left is whether they are a latitude
    by_cases hrange : 89 < digit a * 10 + digit b ∨
        Angle.perDegree ≤ digit c * 1000 + digit d * 100 + digit e * 10 + digit f
    · rw [if_pos hrange]
      unfold digit at hrange
      rw [if_pos hrange]
      exact Gives.throw _
    · rw [if_neg hrange]
      unfold digit at hrange
      rw [if_neg hrange]
      exact Gives.check (status_eq a.bit b.bit c.bit) (Gives.pure _)

/-- The degrees of a longitude are corrected within signed words. -/
theorem longitudeDegrees_eq (b : UInt8) (offset : Bool) :
    longitudeDegrees b offset = .ok (MicE.longitudeDegrees b offset) := by
  have hb := b.toNat_lt
  unfold longitudeDegrees MicE.longitudeDegrees
  rw [signed_eq (by omega) (by omega), ok_bind]
  -- an octet less 28 lies between -28 and 227, with the offset between 72 and 327
  cases offset with
  | false =>
    rw [if_neg Bool.false_ne_true]
    show (if _ then _ else _) = _
    rw [signed_eq (by omega) (by omega), signed_eq (by omega) (by omega), if_neg Bool.false_ne_true,
      Int.add_zero]
    dsimp only
    split
    · rfl
    split <;> rfl
  | true =>
    rw [if_pos rfl, if_pos rfl, signed_eq (by omega) (by omega), ok_bind]
    dsimp only
    rw [signed_eq (by omega) (by omega), signed_eq (by omega) (by omega)]
    split
    · rfl
    split <;> rfl

/-- So are its minutes. -/
theorem longitudeMinutes_eq (b : UInt8) : longitudeMinutes b = .ok (MicE.longitudeMinutes b) := by
  have hb := b.toNat_lt
  unfold longitudeMinutes MicE.longitudeMinutes
  rw [signed_eq (by omega) (by omega), ok_bind, signed_eq (by omega) (by omega)]
  dsimp only
  split <;> rfl

/-- A longitude is added up within signed words, and truncated only where it is in range. -/
theorem longitude_gives (d : MicE.Destination) (degrees minutes hundredths : UInt8) :
    Gives (longitude d degrees minutes hundredths)
      (MicE.longitude d degrees minutes hundredths) := by
  have hword : Scalar.word32 = 4294967295 := rfl
  have hhundredths := hundredths.toNat_lt
  unfold longitude MicE.longitude
  refine Gives.check (longitudeDegrees_eq degrees d.offset) ?_
  refine Gives.check (longitudeMinutes_eq minutes) ?_
  refine Gives.check (signed_eq (by omega) (by omega)) ?_
  dsimp only
  split
  · refine Gives.check (signed_eq (by omega) (by omega)) ?_
    refine Gives.check (signed_eq (by omega) (by omega)) ?_
    refine Gives.check (truncate_eq d.ambiguity (by omega)) ?_
    exact Gives.pure _
  · exact Gives.throw _

/-- An altitude is read only where the brace behind it is found. -/
theorem micEAltitude?_eq (h : start + 3 ≤ limit) :
    micEAltitude? (α := α) limit payload start = .ok (MicE.altitude? (payload.drop start)) := by
  unfold micEAltitude?
  rw [add_eq h, ok_bind, ← List.getElem?_drop]
  by_cases hbrace : (payload.drop start)[3]? = some 0x7D
  · have hroom : start + 3 < payload.length := by
      have hlt := (List.getElem?_eq_some_iff.mp hbrace).1
      rw [List.length_drop] at hlt
      omega
    rw [if_pos hbrace, piece_eq (Nat.le_add_right _ _) (Nat.le_of_lt hroom), ok_bind,
      Nat.add_sub_cancel_left, base91_eq (by rw [List.length_take]; omega), ok_bind]
    match payload.drop start, hbrace with
    | a :: b :: c :: brace :: rest, hbrace =>
      obtain rfl : brace = 0x7D := Option.some.inj hbrace
      have hdigits : (a :: b :: c :: 0x7D :: rest).take 3 = [a, b, c] := rfl
      rw [MicE.altitude?, hdigits]
      cases Base91.decode [a, b, c] <;> rfl
  · rw [if_neg hbrace]
    unfold MicE.altitude?
    split
    · next hfour => rw [hfour] at hbrace; exact absurd rfl hbrace
    · rfl

theorem readMicE_gives (h : 14 ≤ limit) (call : Bytes) (instant : Instant) :
    Gives (readMicE (α := α) limit payload call instant) (MicE.read payload call instant) := by
  have hwidth : MicE.width = 9 := rfl
  unfold readMicE MicE.read
  refine Gives.bind (destination_gives call) fun d _ => ?_
  by_cases hroom : MicE.width ≤ payload.length
  · rw [piece?_eq (Nat.zero_le _) hroom]
    match payload, hroom with
    | kind :: deg :: min :: hun :: sp :: dc :: se :: code :: table :: rest, _ =>
      have hnext : (kind :: deg :: min :: hun :: sp :: dc :: se :: code :: table :: rest)[9]? =
          rest.head? := List.head?_eq_getElem?.symm
      have hrest (n : Nat) :
          (kind :: deg :: min :: hun :: sp :: dc :: se :: code :: table :: rest).drop (9 + n) =
            rest.drop n := by
        rw [← List.drop_drop]
        rfl
      -- the type of the device takes at most one octet, the altitude at most four
      have hdevice : (if rest.head?.any MicE.isDeviceType then 1 else 0) ≤ 1 := by
        split <;> decide
      have haltitude (found : Option α) : (if found.isSome then 4 else 0) ≤ 4 := by
        split <;> decide
      refine Gives.check (x := deg) rfl ?_
      refine Gives.check (x := min) rfl ?_
      refine Gives.check (x := hun) rfl ?_
      refine Gives.bind (longitude_gives d deg min hun) fun lon _ => ?_
      refine Gives.check (x := table) rfl ?_
      refine Gives.check (x := code) rfl ?_
      rw [hwidth, hnext]
      dsimp only
      refine Gives.check (add_eq (by omega)) ?_
      refine Gives.check (micEAltitude?_eq (by omega)) ?_
      rw [hrest]
      refine Gives.check (add_eq (Nat.le_trans (Nat.add_le_add_left (haltitude _) _) (by omega))) ?_
      refine Gives.check (x := sp) rfl ?_
      refine Gives.check (x := dc) rfl ?_
      refine Gives.check (x := se) rfl ?_
      refine Gives.check (extensionOfMicE?_eq sp dc se) ?_
      exact Gives.pure _
  · rw [piece?_eq_none (Nat.lt_of_not_le hroom)]
    dsimp only
    split
    · simp only [List.length_cons] at hroom
      omega
    · exact Gives.throw _

/-- **The Mic-E form is decoded without an abort.** -/
theorem decodeMicE_eq (h : 14 ≤ limit) (destination : Callsign) (instant : Instant) :
    decodeMicE (α := α) limit payload destination instant =
      .ok (MicE.decode payload destination instant) := by
  have hread : Gives (readMicE (α := α) limit payload (Utf8.encode destination.call) instant) _ :=
    readMicE_gives h (Utf8.encode destination.call) instant
  unfold Gives at hread
  unfold decodeMicE MicE.decode
  rw [hread, ok_bind]
  cases MicE.read (α := α) payload (Utf8.encode destination.call) instant <;> rfl

/-! ## Sentences of a receiver -/

/-- A sentence has a first field, whatever it holds. -/
theorem fix_gives (payload : Bytes) : Gives (fix (α := α) payload) (Nmea.fix payload) := by
  unfold fix Nmea.fix
  cases Utf8.decode? payload with
  | none => exact Gives.throw _
  | some sentence =>
    have hfirst : (element (Nmea.fields sentence) 0) = .ok ((Nmea.fields sentence).headD []) := by
      have hfields : Nmea.fields sentence ≠ [] := pieces_ne_nil
      rw [element_eq (List.length_pos_iff.mpr hfields) []]
      cases Nmea.fields sentence <;> rfl
    dsimp only
    refine Gives.check hfirst ?_
    cases Utf8.splitAt? 3 ((Nmea.fields sentence).headD []) with
    | none => exact Gives.throw _
    | some parts =>
      dsimp only
      split
      · exact Gives.found _
      split
      · exact Gives.found _
      split
      · exact Gives.found _
      · exact Gives.throw _

theorem decodeNmea_eq (payload : Bytes) (instant : Instant) :
    decodeNmea (α := α) payload instant = .ok (Nmea.decode payload instant) := by
  have hfix := fix_gives (α := α) payload
  unfold Gives at hfix
  unfold decodeNmea Nmea.decode
  split
  · rfl
  · rw [hfix, ok_bind]
    cases Nmea.fix (α := α) payload <;> rfl

/-! ## All of them -/

/-- **Either plain form is decoded without an abort**, whichever the payload opens. -/
theorem decodePlain_eq (h : start + 26 ≤ limit) (instant : Instant) :
    decodePlain (α := α) limit payload start instant =
      .ok (PositionReport.decodePlain payload start instant) := by
  unfold decodePlain PositionReport.decodePlain
  cases payload[start]? with
  | none => rfl
  | some b =>
    dsimp only
    split
    · exact decodeCompressed_eq (by omega) instant
    split
    · exact decodeUncompressed_eq h instant
    · rfl

/-- **The checked reading of a position is never aborted** and agrees with the total one. -/
theorem decodePosition_eq (h : start + 26 ≤ limit) (destination : Callsign) (instant : Instant) :
    decodePosition (α := α) limit payload start destination instant =
      .ok (PositionReport.decode payload start destination instant) := by
  unfold decodePosition PositionReport.decode
  cases payload.head? with
  | none => exact decodePlain_eq h instant
  | some b =>
    dsimp only
    split
    · exact decodeMicE_eq (by omega) destination instant
    split
    · exact decodeNmea_eq payload instant
    · exact decodePlain_eq h instant

end Aprs.Checked
