import Aprs.Command.Run
import Aprs.Proofs.Tally
import Aprs.Proofs.Utf8
import Aprs.Scalar.Exact

/-!
# What parsing lines prints

The lines of a file are cut from its octets. Where these are the octets of a text, so are the lines
(`linesOf_encode`), none is given up, and each line that is not skipped either cannot be framed or gives a
packet, which is counted and printed, or not printed if it has no fault and only such are asked for. How many
packets are printed can therefore be told from the tally (`length_printed`).

> `runParse_accounts`: the tally of any lines is their account, that of lines in another order is the same,
> and that of more lines is a sum; parsing a text prints **as many packets as the tally has lines that were
> not rejected**, or as it has faulty ones.

Specification: 13 (Tools).
-/

namespace Aprs.Command

variable {α ε : Type}

/-! ## Lines of a text -/

/-- A line without the carriage return behind it. -/
def withoutReturn (line : Text) : Text := if line.getLast? = some '\r' then line.dropLast else line

/-- The lines of a text. A line ends with a line feed, which a carriage return may precede. -/
def textLines (content : Text) : List Text :=
  let cut := pieces '\n' content
  let ended := cut.dropLast.map withoutReturn
  match cut.getLast? with
  | some [] | none => ended
  | some last => ended ++ [last]

/-- The octets of a line end with that of a carriage return if the line does. -/
theorem encode_withoutReturn (line : Text) :
    (if (Utf8.encode line).getLast? = some 0x0D then (Utf8.encode line).dropLast
      else Utf8.encode line) = Utf8.encode (withoutReturn line) := by
  unfold withoutReturn
  rcases List.eq_nil_or_concat line with rfl | ⟨front, c, hline⟩
  · rfl
  rw [List.concat_eq_append] at hline
  subst hline
  rw [Utf8.encode_append]
  by_cases hc : c = '\r'
  · subst hc
    have hreturn : Utf8.encode ['\r'] = [0x0D] := rfl
    rw [hreturn, List.getLast?_concat, List.getLast?_concat, if_pos rfl, if_pos rfl,
      List.dropLast_concat, List.dropLast_concat]
  · have hlast : (Utf8.encode front ++ Utf8.encode [c]).getLast? ≠ some 0x0D := by
      intro hlast
      have hmem : UInt8.ofNat '\r'.toNat ∈ Utf8.encode [c] := by
        rw [List.getLast?_append] at hlast
        cases hoctet : (Utf8.encode [c]).getLast? with
        | none =>
          rw [List.getLast?_eq_none_iff, Utf8.encode_cons] at hoctet
          exact absurd (List.append_eq_nil_iff.mp hoctet).1 (Utf8.encodeChar_ne_nil c)
        | some b =>
          rw [hoctet, Option.some_or] at hlast
          obtain rfl : b = 0x0D := Option.some.inj hlast
          exact List.mem_of_getLast? hoctet
      rw [Utf8.ofNat_mem_encode_iff (by decide), List.mem_singleton] at hmem
      exact hc hmem.symm
    have hnot : (front ++ [c]).getLast? ≠ some '\r' := by
      rw [List.getLast?_concat]
      exact fun h => hc (Option.some.inj h)
    rw [if_neg hlast, if_neg hnot, Utf8.encode_append]

/-- The pieces between the octets of line feeds are the octets of the pieces between line feeds. -/
theorem pieces_encode (content : Text) :
    pieces 0x0A (Utf8.encode content) = (pieces '\n' content).map Utf8.encode := by
  obtain ⟨piece, more, hpieces, hcontent, hpiece, hmore⟩ := exists_pieces '\n' content
  have hfree {t : Text} (h : '\n' ∉ t) : 0x0A ∉ Utf8.encode t := fun hmem =>
    h ((Utf8.ofNat_mem_encode_iff (by decide)).mp hmem)
  have hbehind : Utf8.encode (more.flatMap ('\n' :: ·)) =
      (more.map Utf8.encode).flatMap (0x0A :: ·) := by
    clear hpieces hcontent hmore
    induction more with
    | nil => rfl
    | cons next more ih =>
      rw [List.flatMap_cons, List.map_cons, List.flatMap_cons, Utf8.encode_append, ih,
        Utf8.encode_cons_ascii (by decide)]
      rfl
  rw [hpieces, hcontent, Utf8.encode_append, hbehind]
  refine pieces_flatMap (hfree hpiece) fun octets hoctets => ?_
  obtain ⟨line, hline, rfl⟩ := List.mem_map.mp hoctets
  exact hfree (hmore line hline)

/-- The lines of the octets of a text are the octets of its lines. -/
theorem linesOf_encode (content : Text) :
    linesOf (Utf8.encode content) = (textLines content).map Utf8.encode := by
  have hended (lines : List Text) :
      (lines.map Utf8.encode).map (fun line => if line.getLast? = some 0x0D then line.dropLast else line) =
        (lines.map withoutReturn).map Utf8.encode := by
    rw [List.map_map, List.map_map]
    exact List.map_congr_left fun line _ => encode_withoutReturn line
  unfold linesOf textLines
  dsimp only
  rw [pieces_encode, ← List.map_dropLast, hended, List.getLast?_map]
  cases (pieces '\n' content).getLast? with
  | none => rfl
  | some last =>
    cases last with
    | nil => rfl
    | cons c rest =>
      obtain ⟨b, more, hfirst⟩ := List.exists_cons_of_ne_nil (Utf8.encodeChar_ne_nil c)
      have hlast : Utf8.encode (c :: rest) = b :: (more ++ Utf8.encode rest) := by
        rw [Utf8.encode_cons, hfirst, List.cons_append]
      rw [Option.map_some, hlast, List.map_append, List.map_singleton, hlast]

/-! ## Packets that are printed -/

/-- What is not skipped has something else than blanks, and does not begin with the mark of a remark. -/
theorem not_isSkipped_iff (line : Text) :
    (!isSkipped line) = true ↔ Text.trim line ≠ [] ∧ line.head? ≠ some '#' := by
  rw [Bool.not_eq_true', isSkipped, Bool.or_eq_false_iff, List.isEmpty_eq_false_iff, decide_eq_false_iff_not]

/-- Each packet that was not rejected is printed, or of those with a fault each. -/
theorem length_printed (format : OutputFormat) (faultsOnly : Bool)
    (packets : List (Except DecodeError (Packet Float))) :
    (packets.filterMap (printed? format faultsOnly)).length =
      if faultsOnly then (Tally.ofPackets packets).faulted
      else (Tally.ofPackets packets).lines - (Tally.ofPackets packets).rejected := by
  have account := Tally.ofPackets_accounts packets
  rw [List.length_filterMap_eq_countP]
  split
  · next hfaults =>
    rw [account.faulted_eq]
    refine List.countP_congr fun result _ => ?_
    cases result with
    | error cause => rfl
    | ok p => cases h : p.payload.hasFault <;> simp [printed?, Tally.isPacketWith, hfaults, h]
  · next hall =>
    have hcount := List.length_eq_countP_add_countP (Tally.isRejected (ε := DecodeError)) (l := packets)
    rw [account.lines_eq_length, account.rejected_eq, hcount, Nat.add_sub_cancel_left]
    refine List.countP_congr fun result _ => ?_
    cases result with
    | error cause => simp [printed?, Tally.isRejected]
    | ok p => simp [printed?, Tally.isRejected, hall]

/-- The lines of a text are all read, and its packets printed and counted. -/
theorem runParse_encode (format : OutputFormat) (faultsOnly stats : Bool) (content : Text)
    (now : Instant) :
    runParse format faultsOnly stats (Utf8.encode content) now =
      let packets := packetsOf (textLines content) now
      ⟨0, (packets.filterMap (printed? format faultsOnly)).flatMap fun t => t ++ ['\n'],
        if stats then (Tally.ofPackets packets).text else []⟩ := by
  have hread : (linesOf (Utf8.encode content)).map Utf8.decode? = (textLines content).map some := by
    rw [linesOf_encode, List.map_map]
    exact List.map_congr_left fun line _ => Utf8.decode?_encode line
  have hall : ((textLines content).map some).all Option.isSome = true := by
    simp
  have htaken (lines : List Text) :
      ((lines.map some).takeWhile Option.isSome).filterMap id = lines := by
    induction lines with
    | nil => rfl
    | cons line lines ih =>
      rw [List.map_cons, List.takeWhile_cons_of_pos rfl]
      exact congrArg (line :: ·) ih
  unfold runParse
  dsimp only
  rw [hread, htaken, if_pos hall]

/-- **A tally is the account of its lines**, in whatever order they come, and that of more lines is a sum.
Parsing a text tallies the lines that are neither blank nor remarks, and prints as many packets as were not
rejected, or as have a fault. -/
theorem runParse_accounts (results behind others : List (Except ε (Packet α)))
    (hothers : results.Perm others) (format : OutputFormat) (faultsOnly stats : Bool) (content : Text)
    (now : Instant) :
    (Tally.ofPackets results).Accounts results ∧
      (Tally.ofPackets (results ++ behind)).IsSum (Tally.ofPackets results) (Tally.ofPackets behind) ∧
      Tally.ofPackets others = Tally.ofPackets results ∧
      ∃ packets printed,
        packets = packetsOf (textLines content) now ∧
          printed = packets.filterMap (printed? format faultsOnly) ∧
          runParse format faultsOnly stats (Utf8.encode content) now =
            ⟨0, printed.flatMap fun t => t ++ ['\n'],
              if stats then (Tally.ofPackets packets).text else []⟩ ∧
          (Tally.ofPackets packets).lines =
            (textLines content).countP (fun line => Text.trim line ≠ [] ∧ line.head? ≠ some '#') ∧
          printed.length = if faultsOnly then (Tally.ofPackets packets).faulted
            else (Tally.ofPackets packets).lines - (Tally.ofPackets packets).rejected := by
  have account := Tally.ofPackets_accounts results
  refine ⟨account, account.append (Tally.ofPackets_accounts behind) (Tally.ofPackets_accounts _),
    ((account.eq_of_perm (Tally.ofPackets_accounts others) hothers).symm), _, _, rfl, rfl, ?_, ?_, ?_⟩
  · exact runParse_encode format faultsOnly stats content now
  · rw [(Tally.ofPackets_accounts _).lines_eq_length, packetsOf, List.length_map,
      ← List.countP_eq_length_filter]
    exact List.countP_congr fun line _ => (not_isSkipped_iff line).trans decide_eq_true_iff.symm
  · exact length_printed format faultsOnly _

/-- A packet in front of a line that cannot be framed, and behind it. -/
theorem runParse_accounts_swapped :
    let framed : Except DecodeError (Packet Exact) := Packet.ofLine "W1AW>APRS:>hi".toList .epoch
    let unframed : Except DecodeError (Packet Exact) := Packet.ofLine "W1AW".toList .epoch
    let content := "W1AW>APRS:>hi\n\n# none\nW1AW\n".toList
    [framed, unframed].Perm [unframed, framed] ∧
      (Tally.ofPackets [framed, unframed]).Accounts [framed, unframed] ∧
      (Tally.ofPackets [framed, unframed, framed]).IsSum (Tally.ofPackets [framed, unframed])
        (Tally.ofPackets [framed]) ∧
      Tally.ofPackets [unframed, framed] = Tally.ofPackets [framed, unframed] ∧
      ∃ packets printed,
        packets = packetsOf (textLines content) .epoch ∧
          printed = packets.filterMap (printed? .text true) ∧
          runParse .text true false (Utf8.encode content) .epoch =
            ⟨0, printed.flatMap fun t => t ++ ['\n'], []⟩ ∧
          (Tally.ofPackets packets).lines =
            (textLines content).countP (fun line => Text.trim line ≠ [] ∧ line.head? ≠ some '#') ∧
          printed.length = (Tally.ofPackets packets).faulted := by
  intro framed unframed content
  have hperm : [framed, unframed].Perm [unframed, framed] := List.Perm.swap unframed framed []
  exact ⟨hperm, runParse_accounts [framed, unframed] [framed] [unframed, framed] hperm .text true false
    content .epoch⟩

end Aprs.Command
