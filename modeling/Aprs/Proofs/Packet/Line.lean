import Aprs.Packet

/-!
# The parts of a line

Three marks part a line: the first `>` ends the source, the first colon behind it ends the addresses,
and commas stand between the addresses. A `Line` is a line in these parts, none of which holds a mark
that would end it. So there is only one way to part a line (`Line.text_injective`), and reading a
header is parting a line:

> `Header.ofLine_cases`: a line lacks a mark, and reading it fails for the first one that is missing,
> or it has parts, and its header is made of them unless the source is empty.

Specification: 6 (External Interfaces) and 4.6 (Packet Framer/Dispatcher).
-/

namespace Aprs

/-- A line in its parts: the source, the destination, the entries of the path, and the information. -/
structure Line where
  source : Text
  destination : Text
  entries : List Text
  information : Text
  source_marks : '>' ∉ source
  destination_marks : ',' ∉ destination ∧ ':' ∉ destination
  entries_marks : ∀ entry ∈ entries, ',' ∉ entry ∧ ':' ∉ entry

namespace Line

/-- The addresses behind the source, with commas between them. -/
def addresses (l : Line) : Text := l.destination ++ l.entries.flatMap (',' :: ·)

/-- The line as one text. -/
def text (l : Line) : Text := l.source ++ '>' :: (l.addresses ++ ':' :: l.information)

/-- The header that the parts of a line give. Entries that are empty give no hop. -/
def header (l : Line) : Header :=
  { source := Callsign.parse l.source
    destination := Callsign.parse l.destination
    path := (l.entries.filter fun entry => !entry.isEmpty).map Hop.parse }

variable {l m : Line}

theorem colon_notMem_addresses (l : Line) : ':' ∉ l.addresses := by
  unfold addresses
  rw [List.mem_append, List.mem_flatMap]
  rintro (hdestination | ⟨entry, hentry, hcolon⟩)
  · exact l.destination_marks.2 hdestination
  · rcases List.mem_cons.mp hcolon with hcomma | hcolon
    · exact absurd hcomma (by decide)
    · exact (l.entries_marks entry hentry).2 hcolon

/-- Between commas the addresses are the destination and the entries of the path. -/
theorem pieces_addresses (l : Line) : pieces ',' l.addresses = l.destination :: l.entries :=
  pieces_flatMap l.destination_marks.1 fun entry hentry => (l.entries_marks entry hentry).1

/-- The first mark of a line stands behind its source. -/
theorem cutFirst_text (l : Line) :
    cutFirst '>' l.text = some (l.source, l.addresses ++ ':' :: l.information) :=
  cutFirst_append l.source_marks

/-- The first colon stands behind its addresses. -/
theorem cutFirst_addresses (l : Line) :
    cutFirst ':' (l.addresses ++ ':' :: l.information) = some (l.addresses, l.information) :=
  cutFirst_append l.colon_notMem_addresses

/-- There is only one way to part a line. -/
theorem text_injective (h : l.text = m.text) : l = m := by
  -- each part is cut off at the same place from both
  have hcut := l.cutFirst_text
  rw [h, m.cutFirst_text, Option.some.injEq, Prod.mk.injEq] at hcut
  obtain ⟨hsource, hrest⟩ := hcut
  have hcut := l.cutFirst_addresses
  rw [← hrest, m.cutFirst_addresses, Option.some.injEq, Prod.mk.injEq] at hcut
  obtain ⟨haddresses, hinformation⟩ := hcut
  have hpieces := l.pieces_addresses
  rw [← haddresses, m.pieces_addresses, List.cons.injEq] at hpieces
  obtain ⟨hdestination, hentries⟩ := hpieces
  cases l
  cases m
  subst hsource hdestination hentries hinformation
  rfl

/-- A line with a colon behind its first `>` has parts. -/
theorem exists_text_eq {source rest : Text} (hsource : '>' ∉ source) (hcolon : ':' ∈ rest) :
    ∃ l : Line, l.source = source ∧ l.text = source ++ '>' :: rest := by
  cases hcut : cutFirst ':' rest with
  | none => exact absurd hcolon (cutFirst_eq_none_iff.mp hcut)
  | some parts =>
    obtain ⟨addresses, information⟩ := parts
    obtain ⟨hrest, hfree⟩ := cutFirst_eq_some hcut
    obtain ⟨destination, entries, -, haddresses, hdestination, hentries⟩ :=
      exists_pieces ',' addresses
    -- no address holds the colon that ends them all
    have hcolons : ':' ∉ destination ∧ ∀ entry ∈ entries, ':' ∉ entry := by
      rw [haddresses, List.mem_append, List.mem_flatMap] at hfree
      constructor
      · exact fun hmem => hfree (Or.inl hmem)
      · intro entry hentry hmem
        exact hfree (Or.inr ⟨entry, hentry, List.mem_cons_of_mem _ hmem⟩)
    refine ⟨⟨source, destination, entries, information, hsource, ⟨hdestination, hcolons.1⟩,
      fun entry hentry => ⟨hentries entry hentry, hcolons.2 entry hentry⟩⟩, rfl, ?_⟩
    rw [hrest, haddresses]
    rfl

end Line

namespace Header

/-- **Reading a line makes the header of its parts**, unless the source is empty. -/
theorem ofLine_text (l : Line) :
    Header.ofLine l.text =
      if l.source.isEmpty then .error .emptySource else .ok (l.header, l.information) := by
  have hpath : (Path.parse ((cutFirst ',' l.addresses).getD (l.addresses, [])).2,
      Callsign.parse ((cutFirst ',' l.addresses).getD (l.addresses, [])).1) =
        (l.header.path, l.header.destination) := by
    have hpieces := l.pieces_addresses
    cases hcut : cutFirst ',' l.addresses with
    | none =>
      rw [pieces_of_notMem (cutFirst_eq_none_iff.mp hcut), List.cons.injEq] at hpieces
      obtain ⟨hdestination, hentries⟩ := hpieces
      unfold Line.header
      rw [← hentries, ← hdestination]
      rfl
    | some parts =>
      obtain ⟨destination, path⟩ := parts
      obtain ⟨haddresses, hfree⟩ := cutFirst_eq_some hcut
      rw [haddresses, pieces_append hfree, List.cons.injEq] at hpieces
      obtain ⟨hdestination, hentries⟩ := hpieces
      unfold Line.header
      rw [← hentries, ← hdestination]
      rfl
  obtain ⟨hpath, hdestination⟩ := Prod.mk.inj hpath
  unfold Header.ofLine
  rw [l.cutFirst_text]
  dsimp only
  rw [l.cutFirst_addresses]
  dsimp only
  rw [hpath, hdestination]
  rfl

/-- **What becomes of a line.** Without a `>`, or without a colon behind the first one, it cannot be
read; otherwise it has parts. -/
theorem ofLine_cases (t : Text) :
    ('>' ∉ t ∧ Header.ofLine t = .error (.missingMark '>')) ∨
      (∃ source rest, t = source ++ '>' :: rest ∧ '>' ∉ source ∧ ':' ∉ rest ∧
        Header.ofLine t = .error (.missingMark ':')) ∨
      ∃ l : Line, t = l.text := by
  cases hsource : cutFirst '>' t with
  | none =>
    refine Or.inl ⟨cutFirst_eq_none_iff.mp hsource, ?_⟩
    unfold Header.ofLine
    rw [hsource]
  | some parts =>
    obtain ⟨source, rest⟩ := parts
    obtain ⟨rfl, hfree⟩ := cutFirst_eq_some hsource
    by_cases hcolon : ':' ∈ rest
    · obtain ⟨l, -, htext⟩ := Line.exists_text_eq hfree hcolon
      exact Or.inr (Or.inr ⟨l, htext.symm⟩)
    · refine Or.inr (Or.inl ⟨source, rest, rfl, hfree, hcolon, ?_⟩)
      unfold Header.ofLine
      rw [hsource]
      dsimp only
      rw [cutFirst_eq_none_iff.mpr hcolon]

/-- Only a line with parts is read, and what is read are its parts. -/
theorem ofLine_eq_ok_iff {t information : Text} {h : Header} :
    Header.ofLine t = .ok (h, information) ↔
      ∃ l : Line, t = l.text ∧ l.source ≠ [] ∧ l.header = h ∧ l.information = information := by
  constructor
  · intro hread
    rcases ofLine_cases t with ⟨-, hfail⟩ | ⟨source, rest, -, -, -, hfail⟩ | ⟨l, rfl⟩
    · rw [hfail] at hread
      exact absurd hread (by simp)
    · rw [hfail] at hread
      exact absurd hread (by simp)
    · rw [ofLine_text] at hread
      split at hread
      · exact absurd hread (by simp)
      · next hsource =>
        obtain ⟨hheader, hinformation⟩ := Prod.mk.inj (Except.ok.inj hread)
        refine ⟨l, rfl, ?_, hheader, hinformation⟩
        intro hnil
        exact hsource (by rw [hnil]; rfl)
  · rintro ⟨l, rfl, hsource, rfl, rfl⟩
    rw [ofLine_text, if_neg]
    intro hempty
    exact hsource (List.isEmpty_iff.mp hempty)

end Header

end Aprs
