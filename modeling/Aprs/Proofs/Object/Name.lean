import Aprs.Object
import Aprs.Proofs.Text
import Aprs.Proofs.Utf8

/-!
# The name of an object in its field

A name is read from nine octets and is written in nine characters, with blanks behind it. A name of ASCII has
as many octets as characters and fills its field (`IsRead.length_nameField_iff`). The field of any other name
is longer than nine octets, and where only the first nine of them are read the name may be cut
(`Utf8.exists_cut`):

> `IsRead.trim_lossy_take_iff`: it is found again exactly if it has no more than nine octets itself, or if it
> ends with the mark of octets that are no character and is cut within the mark.

Specification: 12.7 (Objects and items).
-/

namespace Aprs.Object

variable {name : Text}

/-! ## Padding -/

theorem padding_ascii (width : Nat) : ∀ c ∈ List.replicate width ' ', c.toNat < 0x80 := by
  intro c hc
  rw [List.eq_of_mem_replicate hc]
  decide

theorem encode_padding (width : Nat) :
    Utf8.encode (List.replicate width ' ') = List.replicate width 0x20 := by
  rw [Utf8.encode_ascii (padding_ascii width), List.map_replicate]
  rfl

/-! ## Names and their fields -/

/-- A name as it is read: trimmed, and of no more characters than its field has octets. -/
structure IsRead (name : Text) : Prop where
  length_le : name.length ≤ nameWidth
  trim_eq : Text.trim name = name

/-- Nine octets, read and trimmed, are a name of nine characters at most. -/
theorem isRead_of_octets {octets : Bytes} (h : octets.length ≤ nameWidth) :
    IsRead (Text.trim (Utf8.lossy octets)) where
  length_le := calc
    (Text.trim (Utf8.lossy octets)).length
      ≤ (Utf8.lossy octets).length := (Text.trim_sublist _).length_le
    _ ≤ octets.length := Utf8.length_lossy_le octets
    _ ≤ nameWidth := h
  trim_eq := Text.trim_trim _

/-- The octets of the field that a name is written in. -/
def nameField (name : Text) : Bytes := Utf8.encode (padRight nameWidth name)

theorem nameField_eq (name : Text) : nameField name =
    Utf8.encode name ++ Utf8.encode (List.replicate (nameWidth - name.length) ' ') :=
  Utf8.encode_append _ _

/-- The field of a name has the octets that are due to it if the name is ASCII, and more if it is not. -/
theorem IsRead.length_nameField_iff (h : IsRead name) :
    (nameField name).length = nameWidth ↔ ∀ c ∈ name, c.toNat < 0x80 := by
  have hlength := Text.length_padRight h.length_le
  have hoctets : (nameField name).length = (padRight nameWidth name).length ↔
      ∀ c ∈ padRight nameWidth name, c.toNat < 0x80 := Utf8.length_encode_eq_iff
  rw [hlength] at hoctets
  rw [hoctets, padRight, List.forall_mem_append, and_iff_left (padding_ascii _)]

/-- The field is no narrower than nine octets, since no character is. -/
theorem IsRead.le_length_nameField (h : IsRead name) : nameWidth ≤ (nameField name).length := by
  have hlength := Utf8.length_le_length_encode (padRight nameWidth name)
  rw [Text.length_padRight h.length_le] at hlength
  exact hlength

/-! ## Names that are cut -/

/-- A name that is found again in the first octets of its field: it has no more than these, or ends with the
mark of octets that are no character, which is what is left of the mark when it is cut. -/
def IsFoundAgain (name : Text) : Prop :=
  (Utf8.encode name).length ≤ nameWidth ∨
    (Utf8.encode name).length ≤ nameWidth + 2 ∧ name.getLast? = some Utf8.replacement

/-- A name that ends with the mark is cut within it if it has one or two octets too many. -/
theorem exists_mark (hlong : nameWidth < (Utf8.encode name).length) (hfound : IsFoundAgain name) :
    ∃ u, name = u ++ [Utf8.replacement] ∧ (Utf8.encode u).length < nameWidth ∧
      nameWidth < (Utf8.encode u).length + Utf8.replacement.utf8Size := by
  obtain ⟨hroom, hlast⟩ := hfound.resolve_left (Nat.not_le_of_lt hlong)
  obtain ⟨u, rfl⟩ := List.getLast?_eq_some_iff.mp hlast
  have hlength : (Utf8.encode (u ++ [Utf8.replacement])).length = (Utf8.encode u).length + 3 := by
    rw [Utf8.encode_append, List.length_append]
    rfl
  have hsize : Utf8.replacement.utf8Size = 3 := rfl
  exact ⟨u, rfl, by omega, by omega⟩

/-- **What is read from the first octets of its field is the name**, or the name is cut. -/
theorem IsRead.trim_lossy_take_iff (h : IsRead name) :
    Text.trim (Utf8.lossy ((nameField name).take nameWidth)) = name ↔ IsFoundAgain name := by
  by_cases hfits : (Utf8.encode name).length ≤ nameWidth
  · refine iff_of_true ?_ (Or.inl hfits)
    rw [nameField_eq, List.take_append, List.take_of_length_le hfits, encode_padding,
      List.take_replicate, ← encode_padding, ← Utf8.encode_append, Utf8.lossy_encode, Text.trim_padding,
      h.trim_eq]
  have hlong : nameWidth < (Utf8.encode name).length := Nat.lt_of_not_le hfits
  rw [nameField_eq, List.take_append_of_le_length (Nat.le_of_lt hlong)]
  constructor
  · intro hsame
    obtain ⟨u, c, rest, rfl, hbehind, hbefore⟩ := Utf8.exists_cut name hlong
    rcases Nat.lt_or_eq_of_le hbehind with hwithin | hbetween
    · -- the cut goes through a character, and what is left of it is the mark
      rw [Utf8.lossy_take_partial hwithin hbefore] at hsame
      have hsub := Text.trim_sublist (u ++ [Utf8.replacement])
      rw [hsame] at hsub
      have hlength := hsub.length_le
      simp only [List.length_append, List.length_cons, List.length_nil] at hlength
      obtain rfl : rest = [] := List.eq_nil_of_length_eq_zero (by omega)
      obtain rfl : c = Utf8.replacement := by
        have hwhole := hsub.eq_of_length (by simp only [List.length_append, List.length_cons])
        exact List.head_eq_of_cons_eq (List.append_cancel_left hwhole)
      refine Or.inr ⟨?_, List.getLast?_concat⟩
      rw [Utf8.encode_append, List.length_append]
      show (Utf8.encode u).length + 3 ≤ nameWidth + 2
      omega
    · -- the cut goes between characters, and the ones behind it are lost
      have hfirst : (Utf8.encode (u ++ c :: rest)).take nameWidth = Utf8.encode u := by
        rw [Utf8.encode_append, List.take_left' hbetween]
      rw [hfirst, Utf8.lossy_encode] at hsame
      have hlength := (Text.trim_sublist u).length_le
      rw [hsame, List.length_append, List.length_cons] at hlength
      omega
  · intro hfound
    obtain ⟨u, rfl, hbehind, hbefore⟩ := exists_mark hlong hfound
    rw [Utf8.lossy_take_partial hbehind hbefore, h.trim_eq]

/-- Where a name that is found again has more octets than it should, what stands in the place of the flag is
a blank of the padding or an octet of the mark. -/
theorem IsFoundAgain.octet_ne (hfound : IsFoundAgain name) : (nameField name)[nameWidth]? ≠ some 0x2A := by
  intro hflag
  rw [nameField_eq] at hflag
  by_cases hfits : (Utf8.encode name).length ≤ nameWidth
  · rw [List.getElem?_append_right hfits, encode_padding] at hflag
    have hblank := List.eq_of_mem_replicate (List.mem_of_getElem? hflag)
    contradiction
  · have hlong : nameWidth < (Utf8.encode name).length := Nat.lt_of_not_le hfits
    obtain ⟨u, rfl, hbehind, hbefore⟩ := exists_mark hlong hfound
    rw [List.getElem?_append_left hlong, Utf8.encode_append,
      List.getElem?_append_right (Nat.le_of_lt hbehind)] at hflag
    have hmem : (0x2A : UInt8) ∈ String.utf8EncodeChar Utf8.replacement := List.mem_of_getElem? hflag
    have hbeyond : 0x80 ≤ (0x2A : UInt8).toNat :=
      Utf8.octets_of_not_ascii (c := Utf8.replacement) (by decide) _ hmem
    exact absurd hbeyond (by decide)

end Aprs.Object
