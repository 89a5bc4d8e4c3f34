import Aprs.Proofs.Packet.Tidying

/-!
# Reading the line of a packet

A packet that is written as a line should be read as the same packet. That takes two things of its
header. No callsign may hold a mark that parts it or the line (`Header.MarkFree`), and every station
must show, the hops with the asterisk that they have and no other (`Header.Shown`).

> `Header.ofLine_text_append_iff`: a header is read from its own text exactly if it is both.

A header that was read from a line is always free of marks, yet it need not show: an address that is a
lone hyphen leaves nothing of itself, and a hop that is not used can end with an asterisk. The calls in
a frame may hold any seven-bit characters, so a header that was read from a frame can fail in either
way.

Specification: 12.8 (Packet-level) and 8 (Testable Properties).
-/

namespace Aprs

/-! ## Callsigns and hops -/

/-- A callsign is read from its text exactly if no hyphen stands in its call. -/
theorem Callsign.parse_text_iff {c : Callsign} : Callsign.parse c.text = c ↔ '-' ∉ c.call := by
  constructor
  · intro h
    have hcall := Callsign.hyphen_notMem_call c.text
    rw [h] at hcall
    exact hcall
  · obtain ⟨call, ssid⟩ := c
    intro hcall
    cases ssid with
    | nil =>
      have htext : Callsign.text ⟨call, []⟩ = call := rfl
      unfold Callsign.parse
      rw [htext, cutFirst_eq_none_iff.mpr hcall]
    | cons c rest =>
      have htext : Callsign.text ⟨call, c :: rest⟩ = call ++ '-' :: c :: rest := rfl
      unfold Callsign.parse
      rw [htext, cutFirst_append hcall]

/-- A hop is read from its text exactly if its callsign is, and it does not look used unless it is. -/
theorem Hop.parse_text_iff {hop : Hop} :
    Hop.parse hop.text = hop ↔
      '-' ∉ hop.callsign.call ∧ (hop.used = false → hop.callsign.text.getLast? ≠ some '*') := by
  obtain ⟨callsign, used⟩ := hop
  rw [← Callsign.parse_text_iff]
  cases used with
  | true =>
    have htext : Hop.text ⟨callsign, true⟩ = callsign.text ++ ['*'] := rfl
    rw [htext]
    unfold Hop.parse
    rw [if_pos List.getLast?_concat, List.dropLast_concat]
    simp
  | false =>
    have htext : Hop.text ⟨callsign, false⟩ = callsign.text := rfl
    rw [htext]
    unfold Hop.parse
    by_cases hstar : callsign.text.getLast? = some '*'
    · simp [hstar]
    · simp [hstar]

/-! ## Headers -/

namespace Header

/-- A header in which no callsign holds a mark that would part it, or that would part the line where
it stands. -/
structure MarkFree (h : Header) : Prop where
  source_call : '-' ∉ h.source.call
  destination_call : '-' ∉ h.destination.call
  path_calls : ∀ hop ∈ h.path, '-' ∉ hop.callsign.call
  source : '>' ∉ h.source.text
  destination : ',' ∉ h.destination.text ∧ ':' ∉ h.destination.text
  path : ∀ hop ∈ h.path, ',' ∉ hop.text ∧ ':' ∉ hop.text

/-- A header in which every station shows: the source and each hop have a text, and a hop that is not
used does not look used. The destination may be empty. -/
structure Shown (h : Header) : Prop where
  source : h.source.text ≠ []
  path : ∀ hop ∈ h.path, hop.text ≠ []
  unused : ∀ hop ∈ h.path, hop.used = false → hop.callsign.text.getLast? ≠ some '*'

variable {h : Header}

/-- The header of a line is free of marks, as the parts of the line are. -/
theorem markFree_of_line (l : Line) : l.header.MarkFree where
  source_call := Callsign.hyphen_notMem_call l.source
  destination_call := Callsign.hyphen_notMem_call l.destination
  path_calls hop hhop := by
    obtain ⟨entry, -, rfl⟩ := List.mem_map.mp hhop
    unfold Hop.parse
    split
    · exact Callsign.hyphen_notMem_call _
    · exact Callsign.hyphen_notMem_call _
  source hmark := by
    have hmem : '>' ∈ Callsign.tidy l.source := Callsign.text_parse l.source ▸ hmark
    exact l.source_marks (Callsign.mem_of_mem_tidy hmem)
  destination := by
    show ',' ∉ (Callsign.parse l.destination).text ∧ ':' ∉ (Callsign.parse l.destination).text
    rw [Callsign.text_parse]
    exact ⟨fun hmem => l.destination_marks.1 (Callsign.mem_of_mem_tidy hmem),
      fun hmem => l.destination_marks.2 (Callsign.mem_of_mem_tidy hmem)⟩
  path hop hhop := by
    obtain ⟨entry, hentry, rfl⟩ := List.mem_map.mp hhop
    have hmarks := l.entries_marks entry (List.mem_filter.mp hentry).1
    rw [Hop.text_parse]
    exact ⟨fun hmem => hmarks.1 (Hop.mem_of_mem_tidy hmem),
      fun hmem => hmarks.2 (Hop.mem_of_mem_tidy hmem)⟩

/-- The text of a header ends with the colon before the information. -/
theorem getLast?_text (h : Header) : h.text.getLast? = some ':' := List.getLast?_concat

/-- The line with a header that is free of marks. -/
def MarkFree.line (hfree : h.MarkFree) (information : Text) : Line where
  source := h.source.text
  destination := h.destination.text
  entries := h.path.map Hop.text
  information := information
  source_marks := hfree.source
  destination_marks := hfree.destination
  entries_marks entry hentry := by
    obtain ⟨hop, hhop, rfl⟩ := List.mem_map.mp hentry
    exact hfree.path hop hhop

theorem MarkFree.text_line (hfree : h.MarkFree) (information : Text) :
    (hfree.line information).text = h.text ++ information := by
  unfold Line.text Line.addresses Header.text Path.text MarkFree.line
  dsimp only
  rw [List.flatMap_map]
  simp only [List.append_assoc, List.cons_append, List.nil_append]

/-- The parts of its line give a header back if all its hops show. -/
theorem MarkFree.header_line_iff (hfree : h.MarkFree) (information : Text) :
    (hfree.line information).header = h ↔
      (∀ hop ∈ h.path, hop.text ≠ []) ∧
        ∀ hop ∈ h.path, hop.used = false → hop.callsign.text.getLast? ≠ some '*' := by
  have hpath : (((h.path.map Hop.text).filter fun entry => !entry.isEmpty).map Hop.parse = h.path) ↔
      (∀ hop ∈ h.path, hop.text ≠ []) ∧
        ∀ hop ∈ h.path, hop.used = false → hop.callsign.text.getLast? ≠ some '*' := by
    rw [List.filter_map, List.map_map, map_filter_eq_self_iff]
    constructor
    · intro hall
      constructor
      · intro hop hhop hnil
        have hne := (hall hop hhop).1
        rw [Function.comp_apply, hnil] at hne
        exact absurd hne (by decide)
      · intro hop hhop
        exact (Hop.parse_text_iff.mp (hall hop hhop).2).2
    · rintro ⟨htexts, hunused⟩ hop hhop
      refine ⟨?_, Hop.parse_text_iff.mpr ⟨hfree.path_calls hop hhop, hunused hop hhop⟩⟩
      rw [Function.comp_apply, List.isEmpty_eq_false_iff.mpr (htexts hop hhop)]
      rfl
  rw [← hpath]
  constructor
  · intro heq
    exact congrArg Header.path heq
  · intro heq
    unfold Line.header MarkFree.line
    dsimp only
    rw [heq, Callsign.parse_text_iff.mpr hfree.source_call,
      Callsign.parse_text_iff.mpr hfree.destination_call]

/-- **A header is read from its own text exactly if it is free of marks and every station shows**, and
then the information behind it is read too. -/
theorem ofLine_text_append_iff {information rest : Text} :
    Header.ofLine (h.text ++ information) = .ok (h, rest) ↔
      h.MarkFree ∧ h.Shown ∧ rest = information := by
  rw [Header.ofLine_eq_ok_iff]
  constructor
  · rintro ⟨l, htext, hsource, hheader, hrest⟩
    have hfree : h.MarkFree := hheader ▸ markFree_of_line l
    -- there is only one way to part the line
    have hline : l = hfree.line information := by
      refine Line.text_injective ?_
      rw [hfree.text_line, htext]
    rw [hline] at hsource hheader hrest
    obtain ⟨htexts, hunused⟩ := (hfree.header_line_iff information).mp hheader
    exact ⟨hfree, ⟨hsource, htexts, hunused⟩, hrest.symm⟩
  · rintro ⟨hfree, hshown, rfl⟩
    exact ⟨hfree.line rest, (hfree.text_line rest).symm, hshown.source,
      (hfree.header_line_iff rest).mpr ⟨hshown.path, hshown.unused⟩, rfl⟩

end Header

/-! ## Packets -/

namespace Packet

variable {α : Type} [Scalar α]

/-- A line has no line ends behind it exactly if what stands behind a colon in it has none. -/
theorem trimLine_append_iff {before information : Text} (h : before.getLast? = some ':') :
    trimLine (before ++ information) = before ++ information ↔
      trimLine information = information := by
  unfold trimLine
  rw [dropTrailing_eq_self_iff, dropTrailing_eq_self_iff, List.getLast?_append, h]
  cases information.getLast? with
  | none => simp
  | some c => simp

/-- The information in a line has no line ends behind it, as they have been dropped. -/
theorem trimLine_information {line : Text} {l : Line} (h : trimLine line = l.text) :
    trimLine l.information = l.information := by
  have htrimmed : trimLine l.text = l.text := by
    rw [← h]
    exact dropTrailing_eq_self_iff.mpr getLast?_dropTrailing
  have hcolon : (l.source ++ '>' :: (l.addresses ++ [':'])).getLast? = some ':' := by
    rw [← List.cons_append, ← List.append_assoc]
    exact List.getLast?_concat
  have htext : l.text = (l.source ++ '>' :: (l.addresses ++ [':'])) ++ l.information := by
    unfold Line.text
    simp only [List.append_assoc, List.cons_append, List.nil_append]
  rw [htext] at htrimmed
  exact (trimLine_append_iff hcolon).mp htrimmed

/-- Text whose last octet ends no line has no line ends behind it. -/
theorem trimLine_of_octets {information : Text}
    (hreturn : (Utf8.encode information).getLast? ≠ some 0x0D)
    (hfeed : (Utf8.encode information).getLast? ≠ some 0x0A) :
    trimLine information = information := by
  refine dropTrailing_eq_self_iff.mpr fun c hc => ?_
  obtain ⟨front, rfl⟩ := List.getLast?_eq_some_iff.mp (Option.mem_def.mp hc)
  rw [Utf8.encode_append, List.getLast?_append] at hreturn hfeed
  have hne_return : c ≠ '\r' := by
    rintro rfl
    exact hreturn rfl
  have hne_feed : c ≠ '\n' := by
    rintro rfl
    exact hfeed rfl
  simp [hne_return, hne_feed]

/-- **The line of a packet is read as the packet** exactly if its header is free of marks and every
station shows, provided that its information is text without line ends behind it. -/
theorem reread_iff {information : Text} (hend : trimLine information = information)
    (header : Header) (now : Instant) (received : Option Bytes) :
    let p : Packet α := { Packet.ofParts header (Utf8.encode information) now with
      asReceived := received }
    (∃ q : Packet α, Packet.ofLine p.text now = .ok q ∧ q.header = p.header ∧
        q.payload = p.payload) ↔ header.MarkFree ∧ header.Shown := by
  intro p
  have htrimmed : trimLine p.text = header.text ++ information := by
    have htext : p.text = header.text ++ information :=
      congrArg (header.text ++ ·) (Utf8.lossy_encode information)
    rw [htext, (trimLine_append_iff header.getLast?_text).mpr hend]
  constructor
  · rintro ⟨q, hq, hheader, -⟩
    obtain ⟨l, htext, hsource, rfl⟩ := ofLine_eq_ok_iff.mp hq
    have hread : Header.ofLine (header.text ++ information) = .ok (header, l.information) :=
      Header.ofLine_eq_ok_iff.mpr ⟨l, htrimmed ▸ htext, hsource, hheader, rfl⟩
    obtain ⟨hfree, hshown, -⟩ := Header.ofLine_text_append_iff.mp hread
    exact ⟨hfree, hshown⟩
  · rintro ⟨hfree, hshown⟩
    have hread : Header.ofLine (header.text ++ information) = .ok (header, information) :=
      Header.ofLine_text_append_iff.mpr ⟨hfree, hshown, rfl⟩
    obtain ⟨l, htext, hsource, hheader, hinformation⟩ := Header.ofLine_eq_ok_iff.mp hread
    refine ⟨_, ofLine_eq_ok_iff.mpr ⟨l, htrimmed.trans htext, hsource, rfl⟩, hheader, ?_⟩
    show Payload.decode (Utf8.encode l.information) l.header.destination now = _
    rw [hheader, hinformation]
    rfl

/-- **The line of a packet that was read from a line is read as the same packet** exactly if every
station in its header shows. -/
theorem reread_of_line_iff {line : Text} {now : Instant} {p : Packet α}
    (h : Packet.ofLine line now = .ok p) :
    (∃ q : Packet α, Packet.ofLine p.text now = .ok q ∧ q.header = p.header ∧
        q.payload = p.payload) ↔ p.header.Shown := by
  obtain ⟨l, htext, -, rfl⟩ := ofLine_eq_ok_iff.mp h
  have hread := reread_iff (α := α) (trimLine_information htext) l.header now
    (some (Utf8.encode l.text))
  exact hread.trans (and_iff_right (Header.markFree_of_line l))

/-- A header with an empty destination, dangling hyphens, and asterisks within callsigns. -/
theorem reread_of_line_untidy :
    ∃ p q : Packet Float, Packet.ofLine "A*-*>-,B*-1,*-*:x\r".toList .epoch = .ok p ∧
      Packet.ofLine p.text .epoch = .ok q ∧ q.header = p.header ∧ q.payload = p.payload := by
  have haccepted : Packet.ofLine (α := Float) "A*-*>-,B*-1,*-*:x\r".toList .epoch = .ok _ := rfl
  obtain ⟨q, hread, hheader, hpayload⟩ :=
    (reread_of_line_iff haccepted).mpr ⟨by decide, by decide, by decide⟩
  exact ⟨_, q, rfl, hread, hheader, hpayload⟩

/-- A source that is a lone hyphen does not show: the line of the packet is refused. -/
theorem reread_of_line_refused :
    ∃ p : Packet Float, Packet.ofLine "->B:x".toList .epoch = .ok p ∧
      Packet.ofLine (α := Float) p.text .epoch = .error .emptySource :=
  ⟨_, rfl, rfl⟩

/-- **The line of a packet that was read from a frame is read as the same packet** exactly if no
callsign in its header holds a mark that would part it or the line, and every station shows, provided
that the information is UTF-8 and does not end a line. -/
theorem reread_of_frame_iff {octets : Bytes} {now : Instant} {p : Packet α} {information : Text}
    (h : Packet.ofFrame octets now = .ok p) (htext : p.payload.raw = Utf8.encode information)
    (hreturn : p.payload.raw.getLast? ≠ some 0x0D) (hfeed : p.payload.raw.getLast? ≠ some 0x0A) :
    (∃ q : Packet α, Packet.ofLine p.text now = .ok q ∧ q.header = p.header ∧
        q.payload = p.payload) ↔ p.header.MarkFree ∧ p.header.Shown := by
  unfold Packet.ofFrame at h
  split at h
  · exact absurd h (by simp)
  · next f hframe =>
    obtain rfl := Except.ok.inj h
    have hraw : f.information = Utf8.encode information := htext
    rw [htext] at hreturn hfeed
    have hread := reread_iff (α := α) (trimLine_of_octets hreturn hfeed)
      ⟨f.source, f.destination, f.hops⟩ now (some octets)
    rw [← hraw] at hread
    exact hread

/-- A frame with marks in its calls where they do no harm, and with information beyond ASCII. -/
theorem reread_of_frame_marked :
    ∃ p q : Packet Float, Packet.ofFrame [0x82, 0x7C, 0x54, 0x40, 0x40, 0x40, 0xE0, 0x74, 0x58, 0x54,
        0x40, 0x40, 0x40, 0x6E, 0xAE, 0x54, 0x40, 0x40, 0x40, 0x40, 0xE0, 0xA2, 0x7C, 0x40, 0x40,
        0x40, 0x40, 0x7F, 0x03, 0xF0, 0x3E, 0xC3, 0xA9] .epoch = .ok p ∧
      Packet.ofLine p.text .epoch = .ok q ∧ q.header = p.header ∧ q.payload = p.payload := by
  have haccepted : Packet.ofFrame (α := Float) [0x82, 0x7C, 0x54, 0x40, 0x40, 0x40, 0xE0, 0x74, 0x58,
      0x54, 0x40, 0x40, 0x40, 0x6E, 0xAE, 0x54, 0x40, 0x40, 0x40, 0x40, 0xE0, 0xA2, 0x7C, 0x40, 0x40,
      0x40, 0x40, 0x7F, 0x03, 0xF0, 0x3E, 0xC3, 0xA9] .epoch = .ok _ := rfl
  have hraw : ([0x3E, 0xC3, 0xA9] : Bytes) = Utf8.encode ">é".toList := by decide
  obtain ⟨q, hread, hheader, hpayload⟩ :=
    (reread_of_frame_iff haccepted hraw (by decide) (by decide)).mpr
      ⟨⟨by decide, by decide, by decide, by decide, by decide, by decide⟩,
        ⟨by decide, by decide, by decide⟩⟩
  exact ⟨_, q, rfl, hread, hheader, hpayload⟩

/-- A call in a frame that holds the mark behind the source: the line of the packet names another
source and another destination. -/
theorem reread_of_frame_forged :
    ∃ p q : Packet Float, Packet.ofFrame [0x82, 0xA0, 0xA4, 0xA6, 0x40, 0x40, 0xE0, 0x82, 0x7C, 0x84,
        0x40, 0x40, 0x40, 0x61, 0x03, 0xF0, 0x3E, 0x78] .epoch = .ok p ∧
      p.payload.raw = Utf8.encode ">x".toList ∧ Packet.ofLine p.text .epoch = .ok q ∧
      p.header.source.text = "A>B".toList ∧ p.header.destination.text = "APRS".toList ∧
      q.header.source.text = "A".toList ∧ q.header.destination.text = "B>APRS".toList :=
  ⟨_, _, rfl, rfl, rfl, rfl, rfl, rfl, rfl⟩

end Packet

end Aprs
