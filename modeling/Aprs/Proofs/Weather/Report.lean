import Aprs.Proofs.Weather.Readings

/-!
# What is read of a weather report

Every payload has a report, from every place on:

> `decode_pieces`: what is read in order is a block, if there is one, and a row of tokens, and the payload
> can be taken apart in this way only (`Pieces.unique`). The readings are those that the pieces tell
> from left to right (`Gathers`) and, where these leave one open, what stands leftmost in the rest
> (`Recovers`).

Whether a report has a fault is asked twice in different words. The decoder looks for fields that it does
not hold, and the statement is about all that are sought. The two agree since nothing is held where no
octet was taken (`Pieces.reading_eq_none`).

Specification: 4.5 (Weather Decoder) and 8 (Testable Properties).
-/

namespace Aprs.Weather

/-- The octets of a payload between two places are the pieces of a report: a block wherever there is one,
and a row of tokens behind which no token stands. -/
structure Pieces (payload : Bytes) (begin cursor : Nat) (block : Option Block) (row : List Token) :
    Prop where
  bounds : begin ≤ cursor ∧ cursor ≤ payload.length
  octets : (payload.take cursor).drop begin = Utf8.encode (block.elim [] Block.text ++ rowText row)
  block_valid : ∀ b ∈ block, b.Valid
  no_block : block = none → ∀ b : Block, b.Valid → ¬Utf8.encode b.text <+: payload.drop begin
  row_valid : ∀ token ∈ row, token.Valid
  no_token : ∀ token : Token, token.Valid → ¬Utf8.encode token.text <+: payload.drop cursor

/-- The leftmost number of a field gives a reading. -/
def Field.Gives (f : Field) (named speedHeld : Bool) (rest : Bytes) (r : Reading) (n : Int) : Prop :=
  f.target named speedHeld = r ∧ ∃ written, f.Leftmost written rest ∧ f.quantity written = some n

/-- A report has the readings that were held, and each of the others from the first field that is sought
and gives it. -/
structure Recovers (held : Weather) (named : Bool) (rest : Bytes) (report : Weather) : Prop where
  kept : ∀ r n, held.reading r = some n → report.reading r = some n
  filled : ∀ r n, held.reading r = none → report.reading r = some n →
    ∃ earlier f later, sought = earlier ++ f :: later ∧ f.Gives named held.windSpeed.isSome rest r n ∧
      ∀ g ∈ earlier, ∀ m, ¬g.Gives named held.windSpeed.isSome rest r m
  missed : ∀ r, report.reading r = none →
    ∀ f ∈ sought, ∀ n, ¬f.Gives named held.windSpeed.isSome rest r n

variable {payload rest behind : Bytes} {begin cursor : Nat} {block : Option Block} {row : List Token}

/-! ## The pieces -/

theorem take_drop_append (h : begin ≤ cursor) :
    payload.drop begin = (payload.take cursor).drop begin ++ payload.drop cursor := by
  rw [List.drop_take, ← Nat.add_sub_cancel' h, ← List.drop_drop, Nat.add_sub_cancel_left]
  exact (List.take_append_drop _ _).symm

/-- What is parsed where a payload has its pieces. -/
theorem Pieces.parsed (h : Pieces payload begin cursor block row) :
    ∃ more, block? (payload.drop begin) = block.map (fun b => (b.fields, more)) ∧
      (block = none → more = payload.drop begin) ∧ tokens more = (row, payload.drop cursor) := by
  have htokens : tokens (Utf8.encode (rowText row) ++ payload.drop cursor) = (row, payload.drop cursor) :=
    tokens_eq_iff.mpr ⟨h.row_valid, rfl, Token.next?_eq_none_iff.mpr h.no_token⟩
  have hbytes : payload.drop begin =
      Utf8.encode (block.elim [] Block.text) ++ (Utf8.encode (rowText row) ++ payload.drop cursor) := by
    rw [take_drop_append h.bounds.1, h.octets, Utf8.encode_append, List.append_assoc]
  refine ⟨Utf8.encode (rowText row) ++ payload.drop cursor, ?_, ?_, htokens⟩
  · cases block with
    | none => exact block?_eq_none_iff.mpr (h.no_block rfl)
    | some b =>
      rw [hbytes]
      exact block?_encode (h.block_valid b rfl) _
  · rintro rfl
    exact hbytes.symm

/-- **A payload has its pieces in one way only.** -/
theorem Pieces.unique (h : Pieces payload begin cursor block row) {cursor' : Nat} {block' : Option Block}
    {row' : List Token} (h' : Pieces payload begin cursor' block' row') :
    cursor' = cursor ∧ block' = block ∧ row' = row := by
  obtain ⟨more, hblock, hnone, htokens⟩ := h.parsed
  obtain ⟨more', hblock', hnone', htokens'⟩ := h'.parsed
  obtain ⟨hsame, hmore⟩ : block' = block ∧ more' = more := by
    rw [hblock] at hblock'
    cases block with
    | none =>
      cases block' with
      | none => exact ⟨rfl, (hnone' rfl).trans (hnone rfl).symm⟩
      | some b' => contradiction
    | some b =>
      cases block' with
      | none => contradiction
      | some b' =>
        obtain ⟨hfields, hmore⟩ := Prod.mk.inj (Option.some.inj hblock')
        exact ⟨congrArg some (Block.fields_injective hfields).symm, hmore.symm⟩
  obtain ⟨hrow, hrest⟩ := Prod.mk.inj ((htokens'.symm.trans (congrArg tokens hmore)).trans htokens)
  have hlength := congrArg List.length hrest
  rw [List.length_drop, List.length_drop] at hlength
  have hbounds := h.bounds
  have hbounds' := h'.bounds
  exact ⟨by omega, hsame, hrow⟩

/-! ## The readings -/

/-- A reading is found exactly if its field gives it. -/
theorem foundIn?_eq_some_iff {named speedHeld : Bool} {r : Reading} {f : Field} {n : Int} :
    foundIn? rest named speedHeld r f = some n ↔ f.Gives named speedHeld rest r n := by
  unfold foundIn? Field.Gives
  split
  · next htarget =>
    simp only [Option.bind_eq_some_iff, find?_eq_some_iff, htarget, true_and]
  · next htarget => exact iff_of_false nofun fun h => htarget h.1

/-- It is missing exactly if its field gives none. -/
theorem foundIn?_eq_none_iff {named speedHeld : Bool} {r : Reading} {f : Field} :
    foundIn? rest named speedHeld r f = none ↔ ∀ n, ¬f.Gives named speedHeld rest r n := by
  simp only [Option.eq_none_iff_forall_ne_some, ne_eq, foundIn?_eq_some_iff]

/-- **What is sought behind the row is recovered**, each missing reading from the leftmost field that gives
it. -/
theorem recovers_seekAll (named : Bool) (rest : Bytes) (held : Weather) :
    Recovers held named rest (seekAll named rest held).1 := by
  have hreading (r : Reading) : (seekAll named rest held).1.reading r =
      (held.reading r).or (sought.findSome? (foundIn? rest named held.windSpeed.isSome r)) :=
    reading_seekFields named rest r held false (by decide) fun _ => rfl
  constructor
  · intro r n hheld
    rw [hreading, hheld]
    rfl
  · intro r n hheld hreport
    rw [hreading, hheld, Option.none_or] at hreport
    obtain ⟨earlier, f, later, hsought, hfound, hnone⟩ := List.findSome?_eq_some_iff.mp hreport
    exact ⟨earlier, f, later, hsought, foundIn?_eq_some_iff.mp hfound,
      fun g hg => foundIn?_eq_none_iff.mp (hnone g hg)⟩
  · intro r hreport f hf
    rw [hreading, Option.or_eq_none_iff] at hreport
    exact foundIn?_eq_none_iff.mp (List.findSome?_eq_none_iff.mp hreport.2 f hf)

theorem reading_fault (w : Weather) (fault : Option Fault) (r : Reading) :
    { w with fault }.reading r = w.reading r := by
  cases r <;> rfl

theorem Recovers.fault {held report : Weather} {named : Bool} (h : Recovers held named rest report)
    (fault : Option Fault) : Recovers held named rest { report with fault } := by
  constructor
  · intro r n hheld
    rw [reading_fault]
    exact h.kept r n hheld
  · intro r n hheld hreport
    rw [reading_fault] at hreport
    exact h.filled r n hheld hreport
  · intro r hreport
    rw [reading_fault] at hreport
    exact h.missed r hreport

/-- Octets are a block, if one comes first, a row of tokens, and a rest that does not begin with one. -/
structure Parts (bytes rest : Bytes) (block : Option Block) (row : List Token) : Prop where
  octets : bytes = Utf8.encode (block.elim [] Block.text ++ rowText row) ++ rest
  block_valid : ∀ b ∈ block, b.Valid
  no_block : block = none → block? bytes = none
  row_valid : ∀ token ∈ row, token.Valid
  no_token : Token.next? rest = none

/-- A report is what is read of octets with these parts, of which the block and the tokens have given what
is held. -/
structure Reads (bytes rest : Bytes) (block : Option Block) (row : List Token) (held report : Weather) :
    Prop where
  gathers : Gathers block row held
  recovers : Recovers held (row.any Token.namesDirection) rest report
  fault : report.fault ≠ none ↔ rest.length = bytes.length ∧
    ∀ f ∈ sought, held.holds (row.any Token.namesDirection) f = false → find? f rest = none

/-- What is read behind a block, or where there is none, if the block has given what is held at first. -/
theorem readFrom_spec {start : Weather} (hstart : ∀ r, start.reading r = block.bind fun b => b.told r)
    (hfault : start.fault = none) (bytes : Bytes) (htokens : tokens rest = (row, behind)) :
    (readFrom bytes start rest).2 = behind ∧
      ∃ held, Reads bytes behind block row held (readFrom bytes start rest).1 := by
  obtain ⟨hgathers, hnamed⟩ := gathers_foldl row [] ⟨start, false⟩ (Gathers.start hstart) rfl
  have hnone := fault_foldl row ⟨start, false⟩
  unfold readFrom
  rw [htokens]
  dsimp only
  rw [List.nil_append] at hgathers hnamed
  generalize row.foldl Progress.apply ⟨start, false⟩ = progress at hgathers hnamed hnone ⊢
  have hrecovers := recovers_seekAll progress.directionAsField behind progress.report
  have hfound := found_seekFields progress.directionAsField behind sought progress.report
  have hkept := fault_seekFields progress.directionAsField behind sought (progress.report, false)
  rw [← seekAll_eq_seekFields] at hfound hkept
  rw [hnamed] at hrecovers hfound hkept ⊢
  generalize seekAll (row.any Token.namesDirection) behind progress.report = result
    at hrecovers hfound hkept ⊢
  by_cases hnothing : behind.length = bytes.length ∧ result.2 = false
  · rw [if_pos hnothing]
    exact ⟨rfl, progress.report, hgathers, hrecovers.fault _,
      iff_of_true nofun ⟨hnothing.1, hfound.mp hnothing.2⟩⟩
  · rw [if_neg hnothing]
    refine ⟨rfl, progress.report, hgathers, hrecovers, iff_of_false (fun hfault' => ?_) fun h => ?_⟩
    · exact hfault' (hkept.trans (hnone.trans hfault))
    · exact hnothing ⟨h.1, hfound.mpr h.2⟩

theorem reading_empty (r : Reading) : empty.reading r = none := by
  cases r <;> rfl

/-- All octets have parts, and the report is read of these. -/
theorem read_spec (bytes : Bytes) :
    ∃ (block : Option Block) (row : List Token) (held : Weather),
      Parts bytes (read bytes).2 block row ∧
        Reads bytes (read bytes).2 block row held (read bytes).1 := by
  unfold read
  cases hblock : block? bytes with
  | none =>
    have hstart (r : Reading) : empty.reading r = (none : Option Block).bind fun b => b.told r :=
      reading_empty r
    obtain ⟨hvalid, hbytes, hend⟩ := tokens_sound bytes
    obtain ⟨hrest, held, hreads⟩ := readFrom_spec hstart rfl bytes (rfl : tokens bytes = (_, _))
    dsimp only
    rw [hrest]
    exact ⟨none, (tokens bytes).1, held, ⟨hbytes, nofun, fun _ => hblock, hvalid, hend⟩, hreads⟩
  | some found =>
    obtain ⟨fields, rest⟩ := found
    obtain ⟨b, hb, rfl, hfirst⟩ := block?_sound hblock
    have hstart (r : Reading) : (empty.applyBlock b.fields).reading r = (some b).bind fun b => b.told r :=
      reading_applyBlock b r
    obtain ⟨hvalid, hbytes, hend⟩ := tokens_sound rest
    obtain ⟨hrest, held, hreads⟩ :=
      readFrom_spec hstart (fault_applyBlock empty b.fields) bytes (rfl : tokens rest = (_, _))
    have hoctets : bytes = Utf8.encode (b.text ++ rowText (tokens rest).1) ++ (tokens rest).2 := by
      rw [Utf8.encode_append, List.append_assoc, ← hbytes]
      exact hfirst
    dsimp only
    rw [hrest]
    exact ⟨some b, (tokens rest).1, held,
      ⟨hoctets, fun b' hb' => Option.some.inj hb' ▸ hb, nofun, hvalid, hend⟩, hreads⟩

/-! ## The whole report -/

/-- The parts of the octets from a place on are pieces up to another, behind which the rest stands. -/
theorem Parts.pieces (h : Parts (payload.drop begin) rest block row) (hbegin : begin ≤ payload.length)
    (hcursor : cursor = payload.length - rest.length) :
    payload.drop cursor = rest ∧ Pieces payload begin cursor block row := by
  have hlength := congrArg List.length h.octets
  rw [List.length_drop, List.length_append] at hlength
  generalize htaken : Utf8.encode (block.elim [] Block.text ++ rowText row) = taken at hlength
  have hbytes : payload.drop begin = taken ++ rest := htaken ▸ h.octets
  have hplace : cursor = begin + taken.length := by omega
  have hrest : payload.drop cursor = rest := by
    rw [hplace, ← List.drop_drop, hbytes, List.drop_left]
  have hwidth : cursor - begin = taken.length := by omega
  exact ⟨hrest,
    { bounds := ⟨by omega, by omega⟩
      octets := by rw [List.drop_take, hbytes, hwidth, List.take_left, htaken]
      block_valid := h.block_valid
      no_block := fun hnone => block?_eq_none_iff.mp (h.no_block hnone)
      row_valid := h.row_valid
      no_token := hrest ▸ Token.next?_eq_none_iff.mp h.no_token }⟩

/-- The pieces take the octets between the beginning and the cursor. -/
theorem Pieces.length_octets (h : Pieces payload begin cursor block row) :
    (Utf8.encode (block.elim [] Block.text ++ rowText row)).length = cursor - begin := by
  have hbounds := h.bounds
  rw [← h.octets, List.length_drop, List.length_take, Nat.min_eq_left hbounds.2]

/-- The tokens take three octets each, of those between the two places. -/
theorem Pieces.three_mul_length_le (h : Pieces payload begin cursor block row) :
    3 * row.length ≤ cursor - begin := by
  have hthree := Weather.three_mul_length_le h.row_valid
  rw [← h.length_octets, Utf8.encode_append, List.length_append]
  omega

/-- Without a row there is nothing but the block. -/
theorem Gathers.of_nil {held : Weather} (h : Gathers block row held) (hrow : row = []) (r : Reading) :
    held.reading r = block.bind fun b => b.told r := by
  cases h with
  | start h => exact h r
  | next before h => exact absurd hrow (List.append_ne_nil_of_right_ne_nil _ (List.cons_ne_nil _ _))

theorem Block.text_ne_nil (b : Block) : b.text ≠ [] :=
  List.append_ne_nil_of_right_ne_nil _ (List.cons_ne_nil _ _)

/-- Where the pieces take no octets there are none, and nothing is held. -/
theorem Pieces.reading_eq_none {held : Weather} (h : Pieces payload begin begin block row)
    (hgathers : Gathers block row held) (r : Reading) : held.reading r = none := by
  have hlength := h.length_octets
  rw [Nat.sub_self, Utf8.encode_append, List.length_append] at hlength
  have hthree := Weather.three_mul_length_le h.row_valid
  have hrow : row = [] := List.length_eq_zero_iff.mp (by omega)
  rw [hgathers.of_nil hrow r]
  cases block with
  | none => rfl
  | some b =>
    have hlong : b.text.length ≤ (Utf8.encode b.text).length := Utf8.length_le_length_encode b.text
    have hpos := List.length_pos_iff.mpr b.text_ne_nil
    have hzero : (Utf8.encode b.text).length = 0 := Nat.eq_zero_of_add_eq_zero_right hlength
    omega

/-- A report has a fault exactly if there are no pieces and nothing is found for any field that is sought,
held or not. -/
theorem Reads.fault_iff {held report : Weather} (hpieces : Pieces payload begin cursor block row)
    (h : Reads (payload.drop begin) (payload.drop cursor) block row held report) :
    report.fault ≠ none ↔ cursor = begin ∧
      ∀ f ∈ sought, ∀ place ≥ begin, ∀ written, ¬f.At written (payload.drop place) := by
  have hbounds := hpieces.bounds
  rw [h.fault, List.length_drop, List.length_drop]
  constructor
  · rintro ⟨hsame, hnothing⟩
    obtain rfl : cursor = begin := by omega
    refine ⟨rfl, fun f hf place hbehind written => ?_⟩
    have hfree : held.holds (row.any Token.namesDirection) f = false := by
      rw [holds_eq, hpieces.reading_eq_none h.gathers]
      rfl
    have hat := find?_eq_none_iff.mp (hnothing f hf hfree) (place - cursor) written
    rw [List.drop_drop, Nat.add_sub_cancel' hbehind] at hat
    exact hat
  · rintro ⟨rfl, hall⟩
    refine ⟨rfl, fun f hf _ => find?_eq_none_iff.mpr fun offset written => ?_⟩
    rw [List.drop_drop]
    exact hall f hf _ (Nat.le_add_right _ _) written

/-- **A weather report is read piece by piece.** From the beginning to the cursor the payload consists, in
one way only, of a block and of tokens, each of three octets at least. The report holds what these tell
from left to right, and for readings that they do not tell what stands leftmost behind the cursor. It has
a fault exactly if there are no pieces and no number of a field that is sought stands anywhere. -/
theorem decode_pieces (payload : Bytes) (start : Nat) :
    let begin := min start payload.length
    let report := (decode payload start).1
    let cursor := (decode payload start).2
    ∃ (block : Option Block) (row : List Token) (held : Weather),
      Pieces payload begin cursor block row ∧
      (∀ cursor' block' row', Pieces payload begin cursor' block' row' →
        cursor' = cursor ∧ block' = block ∧ row' = row) ∧
      3 * row.length ≤ cursor - begin ∧
      Gathers block row held ∧
      Recovers held (row.any Token.namesDirection) (payload.drop cursor) report ∧
      (report.fault ≠ none ↔ cursor = begin ∧
        ∀ f ∈ sought, ∀ place ≥ begin, ∀ written, ¬f.At written (payload.drop place)) := by
  intro begin report cursor
  obtain ⟨block, row, held, hparts, hreads⟩ := read_spec (payload.drop begin)
  have hread : decode payload start = ((read (payload.drop begin)).1,
      payload.length - (read (payload.drop begin)).2.length) := by
    unfold decode
    rw [← List.drop_eq_drop_min]
  have hreport : report = (read (payload.drop begin)).1 := congrArg Prod.fst hread
  have hbegin : begin ≤ payload.length := Nat.min_le_right start payload.length
  obtain ⟨hrest, hpieces⟩ := hparts.pieces hbegin (congrArg Prod.snd hread)
  rw [← hreport, ← hrest] at hreads
  exact ⟨block, row, held, hpieces, fun _ _ _ h => hpieces.unique h, hpieces.three_mul_length_le,
    hreads.gathers, hreads.recovers, hreads.fault_iff hpieces⟩

end Aprs.Weather
