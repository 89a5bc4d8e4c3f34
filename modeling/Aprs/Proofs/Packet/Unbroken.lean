import Aprs.Command.Run
import Aprs.Proofs.Message
import Aprs.Proofs.Packet.Summary
import Aprs.Proofs.Packet.Tidying
import Aprs.Proofs.Payload.Origin
import Aprs.Proofs.Text
import Aprs.Proofs.Timestamp
import Aprs.Proofs.Utf8

/-!
# Packets that are unbroken

No decoder makes a line end of octets that are none: what a summary takes over as it came is taken from the
octets of the information, letter by letter, or in upper case, or it is fixed. So a packet from a line without
line ends in it is unbroken (`ofLine_unbroken`), and so is one from a frame that has none in its callsigns and
its information (`ofFrame_unbroken`).

> `render_singleLine_iff`: the text of a packet is a single line **exactly if** the packet is unbroken.

Not every packet is. A line may have line ends in it, and a frame may have any octets in its callsigns
(`render_forged`).

Specification: 13 (Tools).
-/

namespace Aprs

open Text (SingleLine isBreak singleLine_iff)

/-! ## Octets -/

namespace Utf8

variable {bytes : Bytes} {t : Text}

/-- No octet is that of a line feed or a carriage return. -/
def Unbroken (bytes : Bytes) : Prop := ∀ b ∈ bytes, isBreak (charOfByte b) = false

theorem Unbroken.of_subset {part : Bytes} (h : Unbroken bytes) (hsubset : part ⊆ bytes) :
    Unbroken part := fun b hb => h b (hsubset hb)

theorem Unbroken.drop (h : Unbroken bytes) (count : Nat) : Unbroken (bytes.drop count) :=
  h.of_subset (List.drop_subset count bytes)

theorem Unbroken.take (h : Unbroken bytes) (count : Nat) : Unbroken (bytes.take count) :=
  h.of_subset (List.take_subset count bytes)

/-- The octet at a place, zero if there is none. -/
theorem Unbroken.getD (h : Unbroken bytes) (place : Nat) :
    isBreak (charOfByte (bytes.getD place 0)) = false := by
  rw [List.getD_eq_getElem?_getD]
  cases hb : bytes[place]? with
  | none => rfl
  | some b => exact h b (List.mem_of_getElem? hb)

/-- The ends of a line are characters of ASCII. -/
theorem toNat_lt_of_isBreak {c : Char} (h : isBreak c = true) : c.toNat < 0x80 := by
  simp only [isBreak, Bool.or_eq_true, decide_eq_true_eq] at h
  rcases h with rfl | rfl <;> decide

/-- Octets are read as a text on a single line. -/
theorem Unbroken.singleLine_lossy (h : Unbroken bytes) : SingleLine (lossy bytes) := by
  rw [singleLine_iff]
  intro c hc
  by_contra hbreak
  rw [Bool.not_eq_false] at hbreak
  have hascii := toNat_lt_of_isBreak hbreak
  have hoctet := h _ (ofNat_mem_of_mem_lossy hascii hc)
  rw [charOfByte_ofNat hascii, hbreak] at hoctet
  exact nomatch hoctet

/-- The octets of a text on a single line. -/
theorem unbroken_encode (h : SingleLine t) : Unbroken (encode t) := by
  intro b hb
  by_contra hbreak
  rw [Bool.not_eq_false] at hbreak
  have hascii := toNat_lt_of_isBreak hbreak
  rw [eq_ofNat_of_charOfByte (b := b) rfl, ofNat_mem_encode_iff hascii] at hb
  rw [singleLine_iff.mp h _ hb] at hbreak
  exact nomatch hbreak

end Utf8

/-- Upper case makes no line end. -/
theorem Text.SingleLine.upper {t : Text} (h : SingleLine t) : SingleLine (upper t) := by
  rw [singleLine_iff] at h ⊢
  intro d hd
  obtain ⟨c, hc, hupper⟩ := List.mem_flatMap.mp hd
  rcases (mem_upperChar hupper).2 with rfl | ⟨hblank, -⟩
  · exact h d hc
  · exact isBreak_of_property (P := fun d => isBlank d = false) hblank (nomatch ·) (nomatch ·)

open Utf8 (Unbroken)

variable {α : Type} [Scalar α] {raw : Bytes} {destination : Callsign} {now instant : Instant}
  {start : Nat}

/-! ## Timestamps -/

namespace Timestamp

variable {β γ : Type} {x : Except Fault β}

/-- A reading whose faults name no character. -/
def Nameless (x : Except Fault β) : Prop := ∀ cause, x = .error cause → cause.named = []

theorem nameless_ok (b : β) : Nameless (.ok b) := nofun

/-- A computation names nothing if neither of its steps does. -/
theorem Nameless.bind {k : β → Except Fault γ} (h : Nameless x) (hk : ∀ b, Nameless (k b)) :
    Nameless (x >>= k) := by
  cases x with
  | error cause => exact fun _ heq => Except.error.inj heq ▸ h cause rfl
  | ok b => exact hk b

theorem nameless_number (field : Bytes) (place : Nat) : Nameless (number field place) := by
  unfold number
  split
  · split
    · exact nameless_ok _
    · exact fun _ heq => Except.error.inj heq ▸ rfl
  · exact fun _ heq => Except.error.inj heq ▸ rfl

theorem nameless_orFault {fault : Fault} (h : fault.named = []) (found : Option Instant) :
    Nameless (orFault fault found) := by
  cases found with
  | none => exact fun _ heq => Except.error.inj heq ▸ h
  | some t => exact nameless_ok t

/-- A field of a known form has no fault that names a character. -/
theorem nameless_resolve (format : TimeFormat) (field : Bytes) (now : Instant) :
    Nameless (resolve format field now) := by
  have hnumber := nameless_number field
  have hcalendar (found : Option Instant) : Nameless (orFault .notInCalendar found) :=
    nameless_orFault rfl found
  have hday : Nameless (dayHourMinute field now) :=
    (hnumber 0).bind fun _ => (hnumber 1).bind fun _ => (hnumber 2).bind fun _ => hcalendar _
  cases format with
  | dayHourMinuteZulu => exact hday
  | dayHourMinuteLocal => exact hday
  | hourMinuteSecond =>
    refine (hnumber 0).bind fun _ => (hnumber 1).bind fun _ => (hnumber 2).bind fun _ =>
      (hcalendar _).bind fun stamp => ?_
    split
    · exact nameless_ok stamp
    split
    · exact fun _ heq => Except.error.inj heq ▸ rfl
    · exact hcalendar _
  | monthDayHourMinute =>
    refine (hnumber 0).bind fun _ => (hnumber 1).bind fun _ => (hnumber 2).bind fun _ =>
      (hnumber 3).bind fun _ => (hcalendar _).bind fun stamp => ?_
    split
    · exact nameless_ok stamp
    · exact hcalendar _

/-- **A timestamp names at most its own indicator**, which is an octet of the payload. -/
theorem decode_named (h : Unbroken raw) :
    SingleLine (((decode raw start now).1.fault.map Fault.named).getD []) := by
  rcases decode_cases raw start now with ⟨-, hread⟩ | ⟨indicator, hindicator, -, hread⟩ |
    ⟨_, format, -, -, hread⟩
  · rw [hread]
    rfl
  · rw [hread]
    exact Text.singleLine_cons.mpr ⟨h _ (List.mem_of_getElem? hindicator), rfl⟩
  · rw [hread]
    cases hresolve : resolve format (raw.drop start) now with
    | ok t => rfl
    | error fault =>
      show SingleLine fault.named
      rw [nameless_resolve format _ now fault hresolve]
      rfl

end Timestamp

/-! ## Positions -/

/-- The symbol of a position ends no line, and neither do the characters that its fault names. -/
structure PositionReport.Unbroken (report : PositionReport α) : Prop where
  position : report.position.Unbroken
  named : SingleLine ((report.fault.map Position.Fault.named).getD [])

/-- A position that could not be read. -/
theorem PositionReport.unbroken_failed {fault : Position.Fault} {cursor : Nat}
    {source : PositionSource} (h : SingleLine fault.named) :
    (failed (α := α) cursor source instant fault).1.Unbroken :=
  ⟨⟨rfl, rfl⟩, h⟩

open PositionReport (unbroken_failed)

/-- The symbol of an uncompressed position is two octets of the payload. -/
theorem Uncompressed.decode_unbroken (h : Unbroken raw) :
    (decode (α := α) raw start instant).1.Unbroken := by
  have hfield := (h.drop start).take width
  unfold decode
  dsimp only
  split
  · exact unbroken_failed rfl
  split
  · exact ⟨⟨hfield.getD 8, hfield.getD 18⟩, rfl⟩
  · exact ⟨⟨hfield.getD 8, hfield.getD 18⟩, rfl⟩

/-- The letter of an overlay digit is taken for the digit. -/
theorem Compressed.isBreak_table {b : UInt8} (h : isBreak (charOfByte b) = false) :
    isBreak (table b) = false := by
  unfold table
  split
  · next hletter =>
    have hdigit : ∀ d : Fin 10, isBreak (Char.ofNat (0x30 + d)) = false := by decide
    have hplace : b.toNat - 0x31 = 0x30 + (b.toNat - 0x61) := by omega
    rw [hplace]
    exact hdigit ⟨b.toNat - 0x61, by omega⟩
  · exact h

/-- The symbol of a compressed position is two octets, but for a letter that is moved to a digit. -/
theorem Compressed.decode_unbroken (h : Unbroken raw) :
    (decode (α := α) raw start instant).1.Unbroken := by
  have hfield := (h.drop start).take width
  unfold decode
  dsimp only
  split
  · exact unbroken_failed rfl
  split
  · exact unbroken_failed rfl
  split
  · exact ⟨⟨isBreak_table (hfield.getD 0), hfield.getD 9⟩, rfl⟩
  · exact unbroken_failed rfl

/-- The symbol of a Mic-E report is two octets. -/
theorem MicE.decode_unbroken (h : Unbroken raw) :
    (decode (α := α) raw destination instant).1.Unbroken := by
  rcases decode_cases (α := α) raw destination instant with
    ⟨cause, hread⟩ | ⟨-, hfault, -, hcode, htable⟩
  · rw [hread]
    exact unbroken_failed rfl
  · exact ⟨⟨htable ▸ h.getD 8, hcode ▸ h.getD 7⟩, by rw [hfault]; rfl⟩

/-- A sentence has no symbol of its own. -/
theorem Nmea.decode_unbroken : (decode (α := α) raw instant).1.Unbroken := by
  unfold decode
  split
  · exact unbroken_failed rfl
  split
  · exact unbroken_failed rfl
  · exact ⟨⟨rfl, rfl⟩, rfl⟩

/-- **A position takes over no line end** from octets that have none. -/
theorem PositionReport.decode_unbroken (h : Utf8.Unbroken raw) :
    (decode (α := α) raw start destination instant).1.Unbroken :=
  decode_cases (motive := fun read => read.1.Unbroken) (MicE.decode_unbroken h) Nmea.decode_unbroken
    (Compressed.decode_unbroken h) (Uncompressed.decode_unbroken h) (unbroken_failed rfl)
    fun b hb => unbroken_failed (Text.singleLine_cons.mpr ⟨h b hb, Text.singleLine_nil⟩)

/-! ## Messages -/

namespace Message

variable {addressee t : Text}

/-- The parts of a text on a single line are on single lines, and so is what of them is taken for the number
of an answer. -/
theorem ofText_unbroken (haddressee : SingleLine addressee) (h : SingleLine t) :
    (ofText addressee t).Unbroken := by
  obtain ⟨⟨body, behind, replyAck⟩, hparts⟩ : ∃ cut, parts t = cut := ⟨_, rfl⟩
  rw [← (join_parts hparts addressee).1, Text.singleLine_append, singleLine_numberText_iff] at h
  obtain ⟨hbody, hnumber, hreply⟩ := h
  cases hanswer : answer? body with
  | none =>
    rw [ofText_of_answer?_eq_none hparts hanswer]
    exact ⟨haddressee, hnumber, fun _ _ => hbody, fun _ _ => hreply⟩
  | some answer =>
    obtain ⟨answer, number⟩ := answer
    rw [ofText_of_answer?_eq_some hparts hanswer]
    have hword : decide (answer = .ack) = false → ¬ decide (answer = .rej) = false := by
      cases answer <;> simp
    refine ⟨haddressee, ?_, fun hack hrej => absurd hrej (hword hack),
      fun hack hrej => absurd hrej (hword hack)⟩
    dsimp only
    split
    · exact hnumber
    · intro taken htaken
      obtain rfl := Option.some.inj htaken
      refine singleLine_iff.mpr fun c hc => ?_
      have halphanum := (isAckNumber_of_answer? hanswer).alphanum c hc
      exact Text.isBreak_of_property (P := fun c => c.isAlphanum = true) halphanum (nomatch ·) (nomatch ·)

theorem decode_unbroken (h : Utf8.Unbroken raw) : (decode raw).1.Unbroken := by
  have hempty (fault : Fault) : Unbroken { empty with fault := some fault } :=
    ⟨rfl, nofun, fun _ _ => rfl, nofun⟩
  unfold decode
  split
  · next a rest =>
    obtain ⟨-, hmore⟩ := List.forall_mem_cons.mp h
    split
    · exact hempty _
    next field body hcut =>
      obtain ⟨rfl, -⟩ := cutFirst_eq_some hcut
      have hfield : Utf8.Unbroken (a :: field) := fun b hb => hmore b (by
        rw [← List.cons_append]
        exact List.mem_append_left _ hb)
      have hbody : Utf8.Unbroken body := fun b hb => hmore b
        (List.mem_cons_of_mem _ (List.mem_append_right _ (List.mem_cons_of_mem _ hb)))
      refine ofText_unbroken (Text.SingleLine.upper ?_) hbody.singleLine_lossy
      exact hfield.singleLine_lossy.of_subset (Text.trim_sublist _).subset
  · exact hempty _

end Message

/-! ## Packets -/

namespace Packet

/-- What a piece names it has from the octets it was read from. -/
theorem named_of_readFrom {piece : Piece α} {cursor : Nat} (h : Utf8.Unbroken raw)
    (hpiece : piece.ReadFrom raw destination cursor) : SingleLine piece.named := by
  have hstamp {t : Timestamp} (ht : t.ReadFrom raw) :
      SingleLine ((t.fault.map Timestamp.Fault.named).getD []) := by
    obtain ⟨start, now, rfl⟩ := ht
    exact Timestamp.decode_named h
  have hreport {r : PositionReport α} (hr : r.ReadFrom raw destination cursor) :
      SingleLine ((r.fault.map Position.Fault.named).getD []) := by
    obtain ⟨start, instant, rfl, -⟩ := hr
    exact (PositionReport.decode_unbroken h).named
  cases piece with
  | time t => exact hstamp hpiece
  | position r => exact hreport hpiece
  | object o => exact Text.singleLine_append.mpr ⟨hstamp hpiece.1, hreport hpiece.2⟩
  | item i => exact hreport hpiece
  | _ => rfl

/-- A packet with callsigns on a single line and information without a line end is unbroken. -/
theorem ofParts_unbroken {header : Header} (hsource : SingleLine header.source.text)
    (hdestination : SingleLine header.destination.text) (h : Utf8.Unbroken raw) :
    (ofParts (α := α) header raw now).Unbroken where
  source := hsource
  destination := hdestination
  position report hreport := by
    obtain ⟨start, instant, rfl, -⟩ := Payload.position?_readFrom hreport
    exact (PositionReport.decode_unbroken h).position
  message m hm := by
    rw [Payload.message?_readFrom hm]
    exact Message.decode_unbroken h
  faults entry hentry := named_of_readFrom h (Payload.decode_readFrom hentry)

omit [Scalar α] in
/-- What a packet came in is no part of its summary. -/
theorem Unbroken.received {p : Packet α} (h : p.Unbroken) (octets : Bytes) :
    Unbroken { p with asReceived := some octets } :=
  ⟨h.source, h.destination, h.position, h.message, h.faults⟩

/-- A callsign has no character but those of the text that it is read from. -/
theorem text_parse_subset (t : Text) : (Callsign.parse t).text ⊆ t := by
  unfold Callsign.parse
  split
  · next call ssid hcut =>
    obtain ⟨rfl, -⟩ := cutFirst_eq_some hcut
    unfold Callsign.text
    split
    · exact List.subset_append_left _ _
    · exact List.Subset.refl _
  · exact List.Subset.refl _

/-- **A packet from a line without line ends in it is unbroken**, those behind the line apart. -/
theorem ofLine_unbroken {line : Text} {p : Packet α} (h : ofLine line now = .ok p)
    (hline : SingleLine (trimLine line)) : p.Unbroken := by
  obtain ⟨l, htext, -, rfl⟩ := ofLine_eq_ok_iff.mp h
  rw [htext] at hline
  unfold Line.text Line.addresses at hline
  simp only [Text.singleLine_append, Text.singleLine_cons] at hline
  obtain ⟨hsource, -, ⟨hdestination, -⟩, -, hinformation⟩ := hline
  have hparts : (ofParts (α := α) l.header (Utf8.encode l.information) now).Unbroken :=
    ofParts_unbroken (hsource.of_subset (text_parse_subset _))
      (hdestination.of_subset (text_parse_subset _)) (Utf8.unbroken_encode hinformation)
  exact hparts.received _

/-- **A packet from a frame is unbroken** if its callsigns are on single lines and its information has no line
end in it. -/
theorem ofFrame_unbroken {octets : Bytes} {f : Frame} {p : Packet α} (hframe : Frame.decode octets = .ok f)
    (h : ofFrame octets now = .ok p) (hsource : SingleLine f.source.text)
    (hdestination : SingleLine f.destination.text) (hinformation : Utf8.Unbroken f.information) :
    p.Unbroken := by
  unfold ofFrame at h
  rw [hframe] at h
  obtain rfl := Except.ok.inj h
  have hparts : (ofParts (α := α) ⟨f.source, f.destination, f.hops⟩ f.information now).Unbroken :=
    ofParts_unbroken hsource hdestination hinformation
  exact hparts.received octets

/-! ## Renderings -/

/-- **The text of a packet is a single line exactly if the packet is unbroken.** A packet from a line without
line ends in it is, and so is one from a frame that has none in its callsigns and its information. -/
theorem render_singleLine_iff (p : Packet Float) :
    (SingleLine (p.render .text) ↔ p.Unbroken) ∧
      (∀ line now, ofLine line now = .ok p → SingleLine (trimLine line) → p.Unbroken) ∧
      ∀ octets f now, Frame.decode octets = .ok f → ofFrame octets now = .ok p →
        SingleLine f.source.text → SingleLine f.destination.text → Utf8.Unbroken f.information →
        p.Unbroken :=
  ⟨p.summary_singleLine_iff, fun _ _ => ofLine_unbroken, fun _ _ _ => ofFrame_unbroken⟩

/-- The same status as a line with a line end behind it and as a frame. -/
theorem render_singleLine_status :
    (∃ p : Packet Float, ofLine "W1AW>APRS:>Net at 7\r\n".toList .epoch = .ok p ∧
      SingleLine (p.render .text)) ∧
    ∃ p : Packet Float, ofFrame ([0x82, 0xA0, 0xA4, 0xA6, 0x40, 0x40, 0x60] ++
        [0xAE, 0x62, 0x82, 0xAE, 0x40, 0x40, 0x61, 0x03, 0xF0] ++
          Utf8.encode ">Net at 7".toList) .epoch = .ok p ∧
      SingleLine (p.render .text) := by
  constructor
  · obtain ⟨p, hread⟩ : ∃ p : Packet Float,
      ofLine "W1AW>APRS:>Net at 7\r\n".toList .epoch = .ok p := ⟨_, rfl⟩
    have hunbroken := (render_singleLine_iff p).2.1 _ _ hread (by decide)
    exact ⟨p, hread, (render_singleLine_iff p).1.mpr hunbroken⟩
  · obtain ⟨p, hread⟩ : ∃ p : Packet Float, ofFrame ([0x82, 0xA0, 0xA4, 0xA6, 0x40, 0x40, 0x60] ++
        [0xAE, 0x62, 0x82, 0xAE, 0x40, 0x40, 0x61, 0x03, 0xF0] ++
          Utf8.encode ">Net at 7".toList) .epoch = .ok p := ⟨_, rfl⟩
    let f : Frame := ⟨⟨"APRS".toList, []⟩, ⟨"W1AW".toList, []⟩, [], Utf8.encode ">Net at 7".toList⟩
    have hunbroken := (render_singleLine_iff p).2.2 _ f _ rfl hread (by decide) (by decide)
      (Utf8.unbroken_encode (by decide))
    exact ⟨p, hread, (render_singleLine_iff p).1.mpr hunbroken⟩

/-- A message forges the summary of another packet, and so does the callsign of a frame. -/
theorem render_forged :
    (∃ p : Packet Float, ofLine "W1AW>APRS::TARGET   :first\nFORGED>APRS Status".toList .epoch = .ok p ∧
      p.render .text = "W1AW>APRS Message :TARGET   :first\nFORGED>APRS Status".toList ∧
      ¬SingleLine (p.render .text)) ∧
    ∃ p : Packet Float, ofFrame ([0x82, 0xA0, 0xA4, 0xA6, 0x40, 0x40, 0x60] ++
        [0x82, 0x14, 0x84, 0x40, 0x40, 0x40, 0x61, 0x03, 0xF0] ++ Utf8.encode ">x".toList) .epoch = .ok p ∧
      p.render .text = "A\nB>APRS Status \"x\"".toList ∧ ¬SingleLine (p.render .text) := by
  have hmessage : ¬SingleLine "W1AW>APRS Message :TARGET   :first\nFORGED>APRS Status".toList := by decide
  have hcallsign : ¬SingleLine "A\nB>APRS Status \"x\"".toList := by decide
  exact ⟨⟨_, rfl, rfl, hmessage⟩, ⟨_, rfl, rfl, hcallsign⟩⟩

end Packet

end Aprs
