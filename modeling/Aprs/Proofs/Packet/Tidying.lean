import Aprs.Proofs.Packet.Line
import Aprs.Text.Utf8.RoundTrip
import Mathlib.Data.List.TakeWhile

/-!
# What a line comes out as

A packet keeps the parts of its line and not the line, so writing it as a line again can change it.
Little is lost: a callsign keeps no hyphen that has no SSID behind it, and a path keeps no empty entry.

> `Packet.ofLine_characterized`: which lines are read, why the others are not, and that the line of a
> packet is the one it was read from with these two things tidied up (`Line.tidied`).

Specification: 4.6 (Packet Framer/Dispatcher) and 12.1 (Callsign/Digipeater).
-/

namespace Aprs

namespace Callsign

/-- Whether an address has nothing behind the hyphen that ends its call: its first hyphen is its last
character. -/
def isDangling (address : Text) : Bool := address.idxOf '-' + 1 = address.length

/-- An address without a hyphen that has nothing behind it. -/
def tidy (address : Text) : Text := if isDangling address then address.dropLast else address

/-- **A callsign is written as its address was**, without a dangling hyphen. -/
theorem text_parse (address : Text) : (Callsign.parse address).text = tidy address := by
  unfold Callsign.parse
  cases hcut : cutFirst '-' address with
  | none =>
    have habsent : address.idxOf '-' = address.length :=
      List.idxOf_eq_length (cutFirst_eq_none_iff.mp hcut)
    have hkept : isDangling address = false := by
      unfold isDangling
      rw [habsent]
      exact decide_eq_false (Nat.succ_ne_self _)
    unfold tidy
    rw [hkept]
    rfl
  | some parts =>
    obtain ⟨call, ssid⟩ := parts
    obtain ⟨rfl, hfree⟩ := cutFirst_eq_some hcut
    have hplace : (call ++ '-' :: ssid).idxOf '-' = call.length := by
      rw [List.idxOf_append, if_neg hfree, List.idxOf_cons_self, Nat.zero_add]
    unfold tidy isDangling Callsign.text
    rw [hplace, List.length_append, List.length_cons]
    cases ssid with
    | nil => simp
    | cons c rest => simp

/-- The call is the part of an address before its first hyphen. -/
theorem hyphen_notMem_call (address : Text) : '-' ∉ (Callsign.parse address).call := by
  unfold Callsign.parse
  cases hcut : cutFirst '-' address with
  | none => exact cutFirst_eq_none_iff.mp hcut
  | some parts => exact (cutFirst_eq_some hcut).2

theorem mem_of_mem_tidy {address : Text} {c : Char} (h : c ∈ tidy address) : c ∈ address := by
  unfold tidy at h
  split at h
  · exact (List.dropLast_sublist address).subset h
  · exact h

/-- Only a dangling hyphen is dropped. -/
theorem tidy_eq_self_iff {address : Text} : tidy address = address ↔ isDangling address = false := by
  unfold tidy
  cases hdangling : isDangling address with
  | false => simp
  | true =>
    -- an address that ends with a hyphen gets shorter
    have hlength : address.idxOf '-' + 1 = address.length := of_decide_eq_true hdangling
    have hshorter : address.dropLast ≠ address := by
      intro heq
      have hsame := congrArg List.length heq
      rw [List.length_dropLast] at hsame
      omega
    simp [hshorter]

end Callsign

namespace Hop

/-- The address in an entry of a path, which has an asterisk behind it if the hop is used. -/
def address (entry : Text) : Text := if entry.getLast? = some '*' then entry.dropLast else entry

/-- An entry of a path without a dangling hyphen in its address. -/
def tidy (entry : Text) : Text :=
  if entry.getLast? = some '*' then Callsign.tidy entry.dropLast ++ ['*'] else Callsign.tidy entry

/-- **A hop is written as its entry was**, without a dangling hyphen. -/
theorem text_parse (entry : Text) : (Hop.parse entry).text = tidy entry := by
  unfold Hop.parse tidy
  split
  · exact congrArg (· ++ ['*']) (Callsign.text_parse _)
  · exact Callsign.text_parse _

theorem mem_of_mem_tidy {entry : Text} {c : Char} (h : c ∈ tidy entry) : c ∈ entry := by
  unfold tidy at h
  split at h
  · next hstar =>
    rcases List.mem_append.mp h with hmem | hmem
    · exact (List.dropLast_sublist entry).subset (Callsign.mem_of_mem_tidy hmem)
    · rw [List.mem_singleton.mp hmem]
      exact List.mem_of_getLast? hstar
  · exact Callsign.mem_of_mem_tidy h

/-- Only a dangling hyphen in the address is dropped. -/
theorem tidy_eq_self_iff {entry : Text} :
    tidy entry = entry ↔ Callsign.isDangling (address entry) = false := by
  unfold tidy address
  split
  · next hstar =>
    obtain ⟨front, rfl⟩ := List.getLast?_eq_some_iff.mp hstar
    rw [List.dropLast_concat, List.append_left_inj]
    exact Callsign.tidy_eq_self_iff
  · exact Callsign.tidy_eq_self_iff

end Hop

namespace Line

/-- The line without dangling hyphens in its addresses and without empty entries in its path. -/
def tidied (l : Line) : Line where
  source := Callsign.tidy l.source
  destination := Callsign.tidy l.destination
  entries := (l.entries.filter fun entry => !entry.isEmpty).map Hop.tidy
  information := l.information
  source_marks h := l.source_marks (Callsign.mem_of_mem_tidy h)
  destination_marks :=
    ⟨fun h => l.destination_marks.1 (Callsign.mem_of_mem_tidy h),
      fun h => l.destination_marks.2 (Callsign.mem_of_mem_tidy h)⟩
  entries_marks entry hentry := by
    obtain ⟨original, hkept, rfl⟩ := List.mem_map.mp hentry
    have hmarks := l.entries_marks original (List.mem_filter.mp hkept).1
    exact ⟨fun h => hmarks.1 (Hop.mem_of_mem_tidy h), fun h => hmarks.2 (Hop.mem_of_mem_tidy h)⟩

/-- A line in which there is nothing to tidy up: no address has a dangling hyphen, and no entry of the
path is empty. -/
structure Tidy (l : Line) : Prop where
  source : Callsign.isDangling l.source = false
  destination : Callsign.isDangling l.destination = false
  entries : ∀ entry ∈ l.entries, entry ≠ [] ∧ Callsign.isDangling (Hop.address entry) = false

variable {l : Line}

/-- The header of a line is written as the line was, tidied up. -/
theorem text_header (l : Line) : l.header.text ++ l.information = l.tidied.text := by
  have hpath : l.header.path.text =
      ((l.entries.filter fun entry => !entry.isEmpty).map Hop.tidy).flatMap (',' :: ·) := by
    unfold Path.text Line.header
    rw [List.flatMap_map, List.flatMap_map]
    exact congrArg (List.flatMap · _) (funext fun entry => congrArg (',' :: ·) (Hop.text_parse entry))
  unfold Header.text Line.text Line.addresses
  rw [hpath]
  unfold Line.header Line.tidied
  dsimp only
  rw [Callsign.text_parse, Callsign.text_parse]
  simp only [List.append_assoc, List.cons_append, List.nil_append]

/-- Tidying up leaves exactly the lines as they are in which there is nothing to tidy up. -/
theorem text_tidied_eq_iff : l.tidied.text = l.text ↔ l.Tidy := by
  have hparts : l.tidied.text = l.text ↔
      Callsign.tidy l.source = l.source ∧ Callsign.tidy l.destination = l.destination ∧
        (l.entries.filter fun entry => !entry.isEmpty).map Hop.tidy = l.entries := by
    constructor
    · intro h
      have heq : l.tidied = l := text_injective h
      exact ⟨congrArg Line.source heq, congrArg Line.destination heq, congrArg Line.entries heq⟩
    · rintro ⟨hsource, hdestination, hentries⟩
      unfold Line.text Line.addresses Line.tidied
      dsimp only
      rw [hsource, hdestination, hentries]
  rw [hparts, Callsign.tidy_eq_self_iff, Callsign.tidy_eq_self_iff, map_filter_eq_self_iff]
  simp only [Hop.tidy_eq_self_iff, Bool.not_eq_true', List.isEmpty_eq_false_iff]
  constructor
  · rintro ⟨hsource, hdestination, hentries⟩
    exact ⟨hsource, hdestination, hentries⟩
  · rintro ⟨hsource, hdestination, hentries⟩
    exact ⟨hsource, hdestination, hentries⟩

end Line

/-- Why a header cannot be read: the first mark that is missing, or else an empty source. -/
theorem Header.ofLine_refused (t : Text) :
    (Header.ofLine t = .error (.missingMark '>') ↔ '>' ∉ t) ∧
      (Header.ofLine t = .error (.missingMark ':') ↔
        '>' ∈ t ∧ ':' ∉ t.dropWhile (· ≠ '>')) ∧
      (Header.ofLine t = .error .emptySource ↔
        ':' ∈ t.dropWhile (· ≠ '>') ∧ t.head? = some '>') ∧
      ((∃ parts, Header.ofLine t = .ok parts) ↔
        ':' ∈ t.dropWhile (· ≠ '>') ∧ t.head? ≠ some '>') := by
  rcases Header.ofLine_cases t with ⟨habsent, hread⟩ | ⟨source, rest, rfl, hfree, hcolon, hread⟩ |
    ⟨l, rfl⟩
  · have hbehind : t.dropWhile (· ≠ '>') = [] := by
      rw [List.dropWhile_eq_nil_iff]
      intro c hc
      exact decide_eq_true fun heq => habsent (heq ▸ hc)
    rw [hread, hbehind]
    simp [habsent]
  · rw [hread, dropWhile_ne_append hfree]
    simp [hcolon]
  · have hcolon : ':' ∈ l.text.dropWhile (· ≠ '>') := by
      unfold Line.text
      rw [dropWhile_ne_append l.source_marks]
      simp
    have hmark : '>' ∈ l.text := List.mem_append_right _ List.mem_cons_self
    have hhead : l.text.head? = some '>' ↔ l.source = [] := head?_append_eq_mark_iff l.source_marks
    generalize l.text.dropWhile (· ≠ '>') = behind at hcolon
    rw [Header.ofLine_text, Ne, hhead]
    by_cases hsource : l.source = []
    · simp [hsource, hcolon, hmark]
    · simp [hsource, hcolon, hmark]

namespace Packet

variable {α : Type} [Scalar α]

/-- A line is read exactly if it has parts and a source, and the packet has the header of its parts and
their information. -/
theorem ofLine_eq_ok_iff {line : Text} {now : Instant} {p : Packet α} :
    Packet.ofLine line now = .ok p ↔
      ∃ l : Line, trimLine line = l.text ∧ l.source ≠ [] ∧
        p = { Packet.ofParts l.header (Utf8.encode l.information) now with
          asReceived := some (Utf8.encode l.text) } := by
  unfold Packet.ofLine
  dsimp only
  constructor
  · intro h
    split at h
    · exact absurd h (by simp)
    · next header information hread =>
      obtain ⟨l, htext, hsource, rfl, rfl⟩ := Header.ofLine_eq_ok_iff.mp hread
      exact ⟨l, htext, hsource, by rw [← htext]; exact (Except.ok.inj h).symm⟩
  · rintro ⟨l, htext, hsource, rfl⟩
    rw [htext, Header.ofLine_eq_ok_iff.mpr ⟨l, rfl, hsource, rfl, rfl⟩]

/-- A line is refused exactly if its header is. -/
theorem ofLine_eq_error_iff {line : Text} {now : Instant} {e : DecodeError} :
    Packet.ofLine (α := α) line now = .error e ↔ Header.ofLine (trimLine line) = .error e := by
  unfold Packet.ofLine
  dsimp only
  cases Header.ofLine (trimLine line) with
  | error cause => simp
  | ok parts => simp

/-- The packet in a line is written as the line was, tidied up. -/
theorem text_eq_tidied {l : Line} {now : Instant} {received : Option Bytes} :
    Packet.text (α := α) { Packet.ofParts l.header (Utf8.encode l.information) now with
      asReceived := received } = l.tidied.text := by
  rw [← l.text_header]
  exact congrArg (l.header.text ++ ·) (Utf8.lossy_encode l.information)

/-- **Which lines are read, and what they come out as.** The line ends behind a line are dropped. What is
left must hold a `>`, a colon behind the first one, and something before it; otherwise the first of
these that is missing is the error. The information is what stands behind that colon. The line of the
packet is the one that was read without dangling hyphens and empty entries, so it is the same exactly
if there were none. -/
theorem ofLine_characterized (line : Text) (now : Instant) :
    let trimmed := trimLine line
    let behind := trimmed.dropWhile (· ≠ '>')
    (Packet.ofLine (α := α) line now = .error (.missingMark '>') ↔ '>' ∉ trimmed) ∧
      (Packet.ofLine (α := α) line now = .error (.missingMark ':') ↔
        '>' ∈ trimmed ∧ ':' ∉ behind) ∧
      (Packet.ofLine (α := α) line now = .error .emptySource ↔
        ':' ∈ behind ∧ trimmed.head? = some '>') ∧
      ((∃ p : Packet α, Packet.ofLine line now = .ok p) ↔
        ':' ∈ behind ∧ trimmed.head? ≠ some '>') ∧
      ∀ p : Packet α, Packet.ofLine line now = .ok p →
        ∃ l : Line, trimmed = l.text ∧ p.payload.raw = Utf8.encode l.information ∧
          p.text = l.tidied.text ∧ (p.text = trimmed ↔ l.Tidy) := by
  intro trimmed behind
  obtain ⟨hsource, hcolon, hempty, hread⟩ := Header.ofLine_refused trimmed
  refine ⟨ofLine_eq_error_iff.trans hsource, ofLine_eq_error_iff.trans hcolon,
    ofLine_eq_error_iff.trans hempty, ?_, ?_⟩
  · rw [← hread]
    constructor
    · rintro ⟨p, hp⟩
      obtain ⟨l, htext, hne, -⟩ := ofLine_eq_ok_iff.mp hp
      exact ⟨_, Header.ofLine_eq_ok_iff.mpr ⟨l, htext, hne, rfl, rfl⟩⟩
    · rintro ⟨⟨header, information⟩, hparts⟩
      obtain ⟨l, htext, hne, -⟩ := Header.ofLine_eq_ok_iff.mp hparts
      exact ⟨_, ofLine_eq_ok_iff.mpr ⟨l, htext, hne, rfl⟩⟩
  · intro p hp
    obtain ⟨l, htext, -, rfl⟩ := ofLine_eq_ok_iff.mp hp
    refine ⟨l, htext, rfl, text_eq_tidied, ?_⟩
    rw [text_eq_tidied, show trimmed = l.text from htext]
    exact Line.text_tidied_eq_iff

/-- A line with two dangling hyphens, one of them before an asterisk, and two empty entries. -/
theorem ofLine_characterized_untidy :
    ∃ p : Packet Float, Packet.ofLine "N0CALL->APRS,,WIDE1-*,K1-2,:>hi: \r\n".toList .epoch = .ok p ∧
      p.payload.raw = Utf8.encode ">hi: ".toList ∧
      p.text = "N0CALL>APRS,WIDE1*,K1-2:>hi: ".toList := by
  obtain ⟨-, -, -, hread, hparts⟩ :=
    ofLine_characterized (α := Float) "N0CALL->APRS,,WIDE1-*,K1-2,:>hi: \r\n".toList .epoch
  obtain ⟨p, hp⟩ := hread.mpr (by decide)
  obtain ⟨l, htext, hraw, htidied, -⟩ := hparts p hp
  have hline : l = ⟨"N0CALL-".toList, "APRS".toList,
      ["".toList, "WIDE1-*".toList, "K1-2".toList, "".toList], ">hi: ".toList,
      by decide, by decide, by decide⟩ := Line.text_injective htext.symm
  rw [hline] at hraw htidied
  exact ⟨p, hp, hraw, htidied⟩

end Packet

end Aprs
