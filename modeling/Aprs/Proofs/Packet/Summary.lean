import Aprs.Packet.Summary
import Aprs.Proofs.Text.SingleLine

/-!
# Summaries on a single line

A summary is put together from what a packet says. Numbers end no line, and neither do the comment and the
fields that a fault quotes, since they are escaped. All else is put in as it came: the callsigns, the two
characters of the symbol, the parts of a message, and the character that two faults name.

> `summary_singleLine_iff`: a summary is on a single line **exactly if** all of these are
> (`Packet.Unbroken`).

Specification: 13 (Tools).
-/

namespace Aprs

open Text (SingleLine isBreak singleLine_append singleLine_cons singleLine_digits singleLine_quote)

variable {α : Type}

/-! ## Wordings -/

theorem Kind.singleLine_name (kind : Kind) : SingleLine kind.name := by
  cases kind <;> rfl

theorem Extension.singleLine_antennaText (feet gain degrees : Nat) :
    SingleLine (antennaText feet gain degrees) := by
  unfold antennaText
  simp only [singleLine_append, singleLine_digits, and_true]
  exact ⟨⟨⟨rfl, rfl⟩, rfl⟩, rfl⟩

/-- An extension in words, all of whose values are numbers. -/
theorem Extension.singleLine_text (e : Extension) : SingleLine e.text := by
  unfold text
  cases e with
  | courseSpeed course speed =>
    simp only [singleLine_append, singleLine_digits, and_true]
    exact ⟨⟨rfl, rfl⟩, rfl⟩
  | phg antenna =>
    simp only [singleLine_append, singleLine_digits, singleLine_antennaText, and_true, true_and]
    rfl
  | range miles =>
    simp only [singleLine_append, singleLine_digits, and_true]
    exact ⟨rfl, rfl⟩
  | dfStrength signal =>
    simp only [singleLine_append, singleLine_digits, singleLine_antennaText, and_true]
    rfl

/-- The error of a read is one line, since the text that was to be a number is quoted. -/
theorem ReadError.singleLine_message (cause : ReadError) : SingleLine cause.message := by
  cases cause with
  | invalidNumber field => exact singleLine_append.mpr ⟨rfl, singleLine_quote field⟩
  | _ => rfl

theorem Base91.Error.singleLine_message (cause : Base91.Error) : SingleLine cause.message := by
  cases cause <;> rfl

theorem Position.UncompressedFault.singleLine_reason (cause : UncompressedFault) :
    SingleLine cause.reason := by
  cases cause with
  | missingPoint axis => cases axis <;> rfl
  | gap => rfl
  | number cause => exact cause.singleLine_message
  | outOfRange axis => cases axis <;> rfl
  | hemisphere axis => cases axis <;> rfl

theorem Position.MicEFault.singleLine_reason (cause : MicEFault) : SingleLine cause.reason := by
  cases cause <;> rfl

theorem Position.NmeaFault.singleLine_reason (cause : NmeaFault) : SingleLine cause.reason := by
  cases cause with
  | number field => exact ReadError.singleLine_message (.invalidNumber field)
  | _ => rfl

theorem Object.Fault.singleLine_reason (cause : Fault) : SingleLine cause.reason := by
  cases cause with
  | tooShort length => exact (singleLine_digits length).between rfl rfl

theorem Item.Fault.singleLine_reason (cause : Fault) : SingleLine cause.reason := by
  cases cause with
  | tooShort length => exact (singleLine_digits length).between rfl rfl
  | notTerminated => rfl

/-- What is wrong with a payload as a whole is told on one line, since what it quotes is escaped. -/
theorem PieceFault.singleLine_reason (cause : PieceFault) : SingleLine cause.reason := by
  cases cause with
  | emptyInformation => rfl
  | unsupportedIdentifier identifier =>
    exact (Text.singleLine_asciiEscape _).between rfl rfl
  | shortTelemetry length =>
    exact (singleLine_digits length).between rfl rfl
  | object cause => exact cause.singleLine_reason
  | item cause => exact cause.singleLine_reason

/-! ## Faults -/

/-- The characters that a fault names as they came. -/
def Timestamp.Fault.named : Fault → Text
  | .unsupportedIndicator indicator => [indicator]
  | _ => []

/-- The reason of a timestamp's fault is one line exactly if what it names is. -/
theorem Timestamp.Fault.singleLine_reason_iff (cause : Fault) :
    SingleLine cause.reason ↔ SingleLine cause.named := by
  cases cause with
  | unsupportedIndicator indicator =>
    unfold reason named
    simp only [singleLine_append, singleLine_cons]
    exact ⟨fun h => ⟨h.2.1, rfl⟩, fun h => ⟨rfl, h.1, rfl, rfl⟩⟩
  | number cause => exact iff_of_true cause.singleLine_message rfl
  | _ => exact iff_of_true rfl rfl

/-- The characters that a fault names as they came. -/
def Position.Fault.named : Fault → Text
  | .unsupportedFormat first => [first]
  | _ => []

theorem Position.Fault.singleLine_reason_iff (cause : Fault) :
    SingleLine cause.reason ↔ SingleLine cause.named := by
  cases cause with
  | unsupportedFormat first =>
    unfold reason named
    simp only [singleLine_append, singleLine_cons]
    exact ⟨fun h => ⟨h.2.1, rfl⟩, fun h => ⟨rfl, h.1, rfl, rfl⟩⟩
  | uncompressed cause => exact iff_of_true cause.singleLine_reason rfl
  | compressedDigits cause =>
    exact iff_of_true (singleLine_append.mpr ⟨rfl, cause.singleLine_message⟩) rfl
  | micE cause => exact iff_of_true (singleLine_append.mpr ⟨rfl, cause.singleLine_reason⟩) rfl
  | nmea cause => exact iff_of_true (singleLine_append.mpr ⟨rfl, cause.singleLine_reason⟩) rfl
  | _ => exact iff_of_true rfl rfl

/-- The characters that the faults of a piece name as they came. -/
def Piece.named : Piece α → Text
  | time t => (t.fault.map Timestamp.Fault.named).getD []
  | position r => (r.fault.map Position.Fault.named).getD []
  | object o =>
    (o.time.fault.map Timestamp.Fault.named).getD [] ++
      (o.report.fault.map Position.Fault.named).getD []
  | item i => (i.report.fault.map Position.Fault.named).getD []
  | _ => []

/-- The wording of a fault, if there is one, and the characters that it names. -/
theorem singleLine_reasons_iff {β : Type} {reason named : β → Text}
    (h : ∀ cause, SingleLine (reason cause) ↔ SingleLine (named cause)) (fault : Option β) :
    (∀ t ∈ (fault.map reason).toList, SingleLine t) ↔ SingleLine ((fault.map named).getD []) := by
  cases fault with
  | none => exact iff_of_true (List.forall_mem_nil _) rfl
  | some cause => exact List.forall_mem_singleton.trans (h cause)

/-- A piece tells its faults on one line each exactly if it names nothing with a line end. -/
theorem Piece.singleLine_faults_iff (piece : Piece α) :
    (∀ t ∈ piece.faults, SingleLine t) ↔ SingleLine piece.named := by
  cases piece with
  | time t => exact singleLine_reasons_iff Timestamp.Fault.singleLine_reason_iff t.fault
  | position r => exact singleLine_reasons_iff Position.Fault.singleLine_reason_iff r.fault
  | weather w =>
    refine iff_of_true (fun t ht => ?_) rfl
    obtain ⟨cause, -, rfl⟩ := Option.mem_map.mp (Option.mem_toList.mp ht)
    cases cause
    rfl
  | message m =>
    refine iff_of_true (fun t ht => ?_) rfl
    obtain ⟨cause, -, rfl⟩ := Option.mem_map.mp (Option.mem_toList.mp ht)
    cases cause <;> rfl
  | object o =>
    unfold faults named
    rw [List.forall_mem_append, singleLine_append,
      singleLine_reasons_iff Timestamp.Fault.singleLine_reason_iff,
      singleLine_reasons_iff Position.Fault.singleLine_reason_iff]
  | item i => exact singleLine_reasons_iff Position.Fault.singleLine_reason_iff i.report.fault
  | fault cause => exact iff_of_true (List.forall_mem_singleton.mpr cause.singleLine_reason) rfl

/-- So does a payload, piece by piece. -/
theorem Payload.singleLine_faults_iff (p : Payload α) :
    (∀ t ∈ p.faults, SingleLine t) ↔ ∀ entry ∈ p.pieces, SingleLine entry.2.named := by
  unfold faults
  simp only [List.forall_mem_flatMap]
  exact forall₂_congr fun entry _ => entry.2.singleLine_faults_iff

/-! ## Positions and messages -/

/-- The characters of a symbol end no line. -/
structure Position.Unbroken (p : Position α) : Prop where
  table : isBreak p.table = false
  code : isBreak p.code = false

/-- A coordinate is digits, blanks, a point and a letter. -/
theorem Position.singleLine_coordinateText [Scalar α] (axis : Axis) (ambiguity : Nat) (x : α) :
    SingleLine (coordinateText axis ambiguity x) := by
  have hangle (hundredths : Nat) (negative : Bool) : SingleLine (angleText axis hundredths negative) := by
    unfold angleText
    simp only [singleLine_append, singleLine_cons, Text.singleLine_padded, true_and, and_true]
    cases axis <;> cases negative <;> exact ⟨rfl, rfl, rfl⟩
  have hblank (places : List Nat) (t : Text) (h : SingleLine t) :
      SingleLine (places.foldl (fun t place => t.set place ' ') t) := by
    induction places generalizing t with
    | nil => exact h
    | cons place places ih => exact ih _ (h.set rfl place)
  exact hblank _ _ (hangle _ _)

/-- The text of a position is one line exactly if its symbol is. -/
theorem Position.singleLine_text_iff [Scalar α] (p : Position α) : SingleLine p.text ↔ p.Unbroken := by
  unfold text latitudeText longitudeText
  simp only [singleLine_append, singleLine_cons, singleLine_coordinateText, true_and]
  exact ⟨fun h => ⟨h.1.1, h.2.1⟩, fun h => ⟨⟨h.table, trivial⟩, h.code, rfl⟩⟩

/-- The parts of a message that stand in its text end no line: those of an answer are the addressee and the
number. -/
structure Message.Unbroken (m : Message) : Prop where
  addressee : SingleLine m.addressee
  number : ∀ number ∈ m.number, SingleLine number
  body : m.isAck = false → m.isRej = false → SingleLine m.body
  replyAck : m.isAck = false → m.isRej = false → m.number.isSome →
    ∀ replyAck ∈ m.replyAck, SingleLine replyAck

/-- The number of a message is one line exactly if its parts are; without a number the answer is not
written. -/
theorem Message.singleLine_numberText_iff (m : Message) : SingleLine m.numberText ↔
    (∀ number ∈ m.number, SingleLine number) ∧
      (m.number.isSome → ∀ replyAck ∈ m.replyAck, SingleLine replyAck) := by
  unfold numberText
  cases m.number with
  | none => simp
  | some number =>
    cases m.replyAck with
    | none => simp [isBreak]
    | some replyAck => simp [isBreak]

/-- **A message is one line exactly if what it was sent is.** -/
theorem Message.singleLine_text_iff (m : Message) : SingleLine m.text ↔ m.Unbroken := by
  have hhead : SingleLine (':' :: padRight addresseeWidth m.addressee ++ [':']) ↔
      SingleLine m.addressee := by
    unfold padRight
    simp [isBreak, Text.singleLine_replicate]
  have hanswer (word : Text) (h : SingleLine word) :
      SingleLine (':' :: padRight addresseeWidth m.addressee ++ [':'] ++ word ++ m.number.getD []) ↔
        SingleLine m.addressee ∧ ∀ number ∈ m.number, SingleLine number := by
    rw [singleLine_append, singleLine_append, hhead]
    cases m.number <;> simp [h]
  unfold text
  dsimp only
  split
  · next hack =>
    have hword : SingleLine "ack".toList := rfl
    refine (hanswer _ hword).trans ⟨fun h => ⟨h.1, h.2, ?_, ?_⟩, fun h => ⟨h.addressee, h.number⟩⟩
    · exact fun hnot => absurd hack (by simp [hnot])
    · exact fun hnot => absurd hack (by simp [hnot])
  next hack =>
    split
    · next hrej =>
      have hword : SingleLine "rej".toList := rfl
      refine (hanswer _ hword).trans ⟨fun h => ⟨h.1, h.2, ?_, ?_⟩, fun h => ⟨h.addressee, h.number⟩⟩
      · exact fun _ hnot => absurd hrej (by simp [hnot])
      · exact fun _ hnot => absurd hrej (by simp [hnot])
    · next hrej =>
      have hack : m.isAck = false := Bool.eq_false_iff.mpr hack
      have hrej : m.isRej = false := Bool.eq_false_iff.mpr hrej
      rw [singleLine_append, singleLine_append, hhead, singleLine_numberText_iff]
      constructor
      · intro h
        obtain ⟨⟨haddressee, hbody⟩, hnumber, hreply⟩ := h
        exact ⟨haddressee, hnumber, fun _ _ => hbody, fun _ _ => hreply⟩
      · intro h
        exact ⟨⟨h.addressee, h.body hack hrej⟩, h.number, h.replyAck hack hrej⟩

/-! ## The summary -/

/-- What a summary takes over as it came ends no line. -/
structure Packet.Unbroken (p : Packet α) : Prop where
  source : SingleLine p.header.source.text
  destination : SingleLine p.header.destination.text
  position : ∀ report ∈ p.payload.position?, report.position.Unbroken
  message : ∀ message ∈ p.payload.message?, message.Unbroken
  faults : ∀ entry ∈ p.payload.pieces, SingleLine entry.2.named

namespace Packet

/-- A part of the summary that is there. -/
theorem singleLine_part_iff {β : Type} {f : β → Text} (x : Option β) :
    SingleLine (part f x) ↔ ∀ y ∈ x, SingleLine (f y) := by
  cases x with
  | none => exact iff_of_true rfl nofun
  | some y => simp [part, isBreak]

/-- **A summary is on a single line exactly if what it takes over as it came is**: the callsigns, the
symbol of the position, the message, and the characters that faults name. -/
theorem summary_singleLine_iff [Scalar α] (p : Packet α) : SingleLine p.summary ↔ p.Unbroken := by
  have hcomment : SingleLine (if p.payload.comment.isEmpty then []
      else ' ' :: Text.quote p.payload.comment) := by
    split
    · rfl
    · exact singleLine_cons.mpr ⟨rfl, singleLine_quote _⟩
  have hfaults : SingleLine (if p.payload.hasFault then " FAULT: ".toList ++ p.payload.faultReason
      else []) ↔ ∀ entry ∈ p.payload.pieces, SingleLine entry.2.named := by
    rw [← p.payload.singleLine_faults_iff]
    split
    · have hseparator : SingleLine "; ".toList := rfl
      rw [singleLine_append, Payload.faultReason, Text.singleLine_intercalate hseparator]
      exact and_iff_right rfl
    · next hnone =>
      have hempty : p.payload.faults = [] := by simpa [Payload.hasFault] using hnone
      rw [hempty]
      exact iff_of_true rfl (List.forall_mem_nil _)
  unfold summary
  dsimp only
  simp only [singleLine_append, singleLine_cons, singleLine_part_iff, hcomment, hfaults,
    Position.singleLine_text_iff, Message.singleLine_text_iff, Extension.singleLine_text]
  -- what is left are the parts, in the order in which they stand in the summary
  constructor
  · intro h
    obtain ⟨⟨⟨⟨⟨⟨⟨hsource, -, hdestination⟩, -⟩, hposition⟩, -⟩, hmessage⟩, -⟩, hfaults⟩ := h
    exact ⟨hsource, hdestination, hposition, hmessage, hfaults⟩
  · intro h
    have hkind := p.payload.kind.singleLine_name
    exact ⟨⟨⟨⟨⟨⟨⟨h.source, rfl, h.destination⟩, rfl, hkind⟩, h.position⟩,
      fun _ _ => ⟨⟨rfl, trivial⟩, rfl, rfl⟩⟩, h.message⟩, trivial⟩, h.faults⟩

end Packet

end Aprs
