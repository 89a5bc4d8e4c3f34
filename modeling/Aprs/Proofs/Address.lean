import Aprs.Address
import Aprs.Text.Uppercase
import Aprs.Text.Utf8.Ascii

/-!
# Callsigns that have an address

An address has room for a call of six characters, each in seven bits, and for an SSID of four bits. A
callsign is free text, so not every one has an address (`Callsign.Encodable`), and what an address
holds is not quite what was put into it: the call comes back in upper case and the SSID as its plain
number (`Callsign.normal`).

> `encode_eq_ok_iff`: an address has octets exactly if its callsign is encodable.
> `decode_octets`: they are read as the address with the normal form of its callsign.

Specification: 4.1 (Callsign/Address Codec) and 8 (Testable Properties).
-/

namespace Aprs

namespace Callsign

/-- The number that the digits of the SSID write, zero if there are none. -/
def ssidValue (c : Callsign) : Nat := Nat.ofDigitChars 10 c.ssid 0

/-- A callsign that fits in an address: one to six printable ASCII characters other than the space,
and an SSID of up to nine ASCII digits that write at most fifteen. -/
structure Encodable (c : Callsign) : Prop where
  call_ne_nil : c.call ≠ []
  call_length : c.call.length ≤ 6
  call_graphic : ∀ x ∈ c.call, 0x21 ≤ x.toNat ∧ x.toNat ≤ 0x7E
  ssid_length : c.ssid.length ≤ 9
  ssid_digits : ∀ x ∈ c.ssid, 0x30 ≤ x.toNat ∧ x.toNat ≤ 0x39
  ssid_value : c.ssidValue ≤ 15

/-- The callsign as an address gives it back: the call in upper case, and the SSID as its number
without zeros before it, or none if it is zero. -/
def normal (c : Callsign) : Callsign :=
  ⟨Text.upperAscii c.call, if c.ssidValue = 0 then [] else Decimal.digits c.ssidValue⟩

end Callsign

/-! ## The SSID as a number -/

namespace Decimal

theorem readFrom?_encode {t : Text} (h : ∀ x ∈ t, 0x30 ≤ x.toNat ∧ x.toNat ≤ 0x39) :
    ∀ n : Nat, readFrom? n (Utf8.encode t) = some (Nat.ofDigitChars 10 t n) := by
  induction t with
  | nil => intro n; rw [Nat.ofDigitChars_nil]; rfl
  | cons c rest ih =>
    intro n
    obtain ⟨⟨hlow, hhigh⟩, hrest⟩ := List.forall_mem_cons.mp h
    have hoctet : (UInt8.ofNat c.toNat).toNat = c.toNat :=
      UInt8.toNat_ofNat_of_lt' (Nat.lt_of_le_of_lt hhigh (by decide))
    have hdigit : digit? (UInt8.ofNat c.toNat) = some (c.toNat - '0'.toNat) := by
      unfold digit?
      rw [hoctet, if_pos ⟨hlow, hhigh⟩]
      rfl
    rw [Utf8.encode_cons_ascii (by omega)]
    show (digit? (UInt8.ofNat c.toNat)).bind _ = _
    rw [hdigit, Nat.ofDigitChars_cons]
    exact ih hrest _

theorem digits_of_readFrom? {octets : Bytes} :
    ∀ {n m : Nat}, readFrom? n octets = some m → ∀ b ∈ octets, 0x30 ≤ b.toNat ∧ b.toNat ≤ 0x39 := by
  induction octets with
  | nil => intro n m _ b hb; exact absurd hb List.not_mem_nil
  | cons first rest ih =>
    intro n m h b hb
    obtain ⟨d, hdigit, hrest⟩ := Option.bind_eq_some_iff.mp h
    rcases List.mem_cons.mp hb with rfl | hb
    · unfold digit? at hdigit
      split at hdigit
      · next hrange => exact hrange
      · simp at hdigit
    · exact ih hrest b hb

/-- A text is a field of digits exactly if it is one to nine ASCII digits. -/
theorem field?_encode_eq_some_iff {t : Text} {n : Nat} :
    field? (Utf8.encode t) = some n ↔
      t ≠ [] ∧ t.length ≤ 9 ∧ (∀ x ∈ t, 0x30 ≤ x.toNat ∧ x.toNat ≤ 0x39) ∧
        n = Nat.ofDigitChars 10 t 0 := by
  have hlength (h : ∀ x ∈ t, 0x30 ≤ x.toNat ∧ x.toNat ≤ 0x39) : (Utf8.encode t).length = t.length :=
    Utf8.length_encode_ascii fun x hx => Nat.lt_of_le_of_lt (h x hx).2 (by decide)
  unfold field?
  constructor
  · intro h
    split at h
    · simp at h
    next hfield =>
    -- only digits are read, and a digit is one octet, so octets and characters are as many
    have hdigits := (Utf8.forall_octets_iff (by decide)).mp (digits_of_readFrom? h)
    rw [readFrom?_encode hdigits] at h
    rw [hlength hdigits] at hfield
    refine ⟨fun hnil => hfield (Or.inl ?_), Nat.not_lt.mp fun hlong => hfield (Or.inr hlong),
      hdigits, (Option.some.inj h).symm⟩
    rw [hnil]
    rfl
  · rintro ⟨hne, hshort, hdigits, rfl⟩
    have hpos : 0 < (Utf8.encode t).length := by
      rw [hlength hdigits]
      exact List.length_pos_iff.mpr hne
    rw [if_neg, readFrom?_encode hdigits]
    rintro (hempty | hlong)
    · exact List.length_pos_iff.mp hpos (List.isEmpty_iff.mp hempty)
    · rw [hlength hdigits] at hlong
      exact Nat.not_lt.mpr hshort hlong

end Decimal

/-- The SSID is a number for an address exactly if it has few enough digits that write little
enough. -/
theorem Callsign.ssidNumber?_eq_some_iff {c : Callsign} {n : Nat} :
    c.ssidNumber? = some n ↔
      c.ssid.length ≤ 9 ∧ (∀ x ∈ c.ssid, 0x30 ≤ x.toNat ∧ x.toNat ≤ 0x39) ∧ c.ssidValue ≤ 15 ∧
        n = c.ssidValue := by
  unfold ssidNumber? ssidValue
  by_cases hssid : c.ssid = []
  · rw [hssid, Nat.ofDigitChars_nil]
    simp [eq_comm]
  have hne : c.ssid.isEmpty = false := by
    rw [List.isEmpty_eq_false_iff]
    exact hssid
  rw [hne, if_neg Bool.false_ne_true]
  constructor
  · intro h
    split at h
    · next m hfield =>
      obtain ⟨-, hlength, hdigits, rfl⟩ := Decimal.field?_encode_eq_some_iff.mp hfield
      split at h
      · next hbound => exact ⟨hlength, hdigits, hbound, (Option.some.inj h).symm⟩
      · simp at h
    · simp at h
  · rintro ⟨hlength, hdigits, hbound, rfl⟩
    rw [Decimal.field?_encode_eq_some_iff.mpr ⟨hssid, hlength, hdigits, rfl⟩]
    exact if_pos hbound

/-! ## Writing an address -/

namespace Address

/-- The octets of an address whose callsign is encodable. -/
def octets (a : Address) : Bytes :=
  a.callsign.call.map (fun x => callOctet (UInt8.ofNat x.toNat))
    ++ List.replicate (callLength - a.callsign.call.length) padding
    ++ [flagOctet a.callsign.ssidValue a.used a.last]

/-- **An address has octets exactly if its callsign is encodable.** -/
theorem encode_eq_ok_iff {a : Address} {bytes : Bytes} :
    a.encode = .ok bytes ↔ a.callsign.Encodable ∧ bytes = a.octets := by
  have hgraphic : (Utf8.encode a.callsign.call).any (fun b => !isGraphic b) = false ↔
      ∀ x ∈ a.callsign.call, 0x21 ≤ x.toNat ∧ x.toNat ≤ 0x7E := by
    rw [← Utf8.forall_octets_iff (by decide), List.any_eq_false]
    simp [isGraphic]
  have hoctets (h : ∀ x ∈ a.callsign.call, 0x21 ≤ x.toNat ∧ x.toNat ≤ 0x7E) :
      Utf8.encode a.callsign.call = a.callsign.call.map fun x => UInt8.ofNat x.toNat :=
    Utf8.encode_ascii fun x hx => Nat.lt_of_le_of_lt (h x hx).2 (by decide)
  unfold encode octets
  dsimp only
  constructor
  · intro h
    split at h
    · simp at h
    next hlength =>
    split at h
    · simp at h
    next hcall =>
    -- a call of printable ASCII has one octet for each character
    obtain ⟨hempty, hany⟩ := not_or.mp hcall
    have hall := hgraphic.mp (Bool.not_eq_true _ ▸ hany)
    rw [hoctets hall] at h hlength hempty
    rw [List.length_map] at h hlength
    split at h
    · simp at h
    next n hnumber =>
    obtain ⟨hssid, hdigits, hbound, rfl⟩ := Callsign.ssidNumber?_eq_some_iff.mp hnumber
    rw [List.map_map] at h
    refine ⟨⟨fun hnil => hempty ?_, Nat.not_lt.mp hlength, hall, hssid, hdigits, hbound⟩,
      (Except.ok.inj h).symm⟩
    rw [hnil]
    rfl
  · rintro ⟨⟨hne, hlength, hall, hssid, hdigits, hbound⟩, rfl⟩
    have hany : (Utf8.encode a.callsign.call).any (fun b => !isGraphic b) = false :=
      hgraphic.mpr hall
    have hnonempty : ¬ (Utf8.encode a.callsign.call).isEmpty := by
      rw [hoctets hall, List.isEmpty_iff, List.map_eq_nil_iff]
      exact hne
    have hnumber := Callsign.ssidNumber?_eq_some_iff.mpr ⟨hssid, hdigits, hbound, rfl⟩
    rw [if_neg (by rw [hoctets hall, List.length_map]; exact Nat.not_lt.mpr hlength),
      if_neg (not_or.mpr ⟨hnonempty, by rw [hany]; exact Bool.false_ne_true⟩), hnumber,
      hoctets hall, List.map_map, List.length_map]
    rfl

theorem octets_length {a : Address} (h : a.callsign.Encodable) : a.octets.length = 7 := by
  have hlength := h.call_length
  unfold octets
  simp only [List.length_append, List.length_map, List.length_replicate, List.length_cons,
    List.length_nil, callLength]
  omega

/-! ## Reading it again -/

/-- The octet of an ASCII character is read as that character in upper case. -/
theorem char_callOctet {x : Char} (h : x.toNat < 0x80) :
    Char.ofNat ((callOctet (UInt8.ofNat x.toNat)).toNat / 2) = x.toUpper := by
  have hall : ∀ n < 0x80,
      Char.ofNat ((callOctet (UInt8.ofNat n)).toNat / 2) = (Char.ofNat n).toUpper := by
    decide +kernel
  have hx := hall x.toNat h
  rw [Char.ofNat_toNat] at hx
  exact hx

/-- A printable character is no blank in upper case either. -/
theorem not_isBlank_toUpper {x : Char} (h : 0x21 ≤ x.toNat ∧ x.toNat ≤ 0x7E) :
    Text.isBlank x.toUpper = false := by
  have hall : ∀ n < 0x7F, 0x21 ≤ n → Text.isBlank (Char.ofNat n).toUpper = false := by
    decide +kernel
  have hx := hall x.toNat (Nat.lt_succ_of_le h.2) h.1
  rw [Char.ofNat_toNat] at hx
  exact hx

/-- Nothing that the last octet holds is lost. -/
theorem flagOctet_fields {n : Nat} (h : n ≤ 15) (used last : Bool) :
    (flagOctet n used last).toNat / 2 % 16 = n ∧
      decide (0x80 ≤ (flagOctet n used last).toNat) = used ∧
      decide ((flagOctet n used last).toNat % 2 = 1) = last := by
  have hall : ∀ n < 16, ∀ used last : Bool,
      (flagOctet n used last).toNat / 2 % 16 = n ∧
        decide (0x80 ≤ (flagOctet n used last).toNat) = used ∧
        decide ((flagOctet n used last).toNat % 2 = 1) = last := by
    decide +kernel
  exact hall n (Nat.lt_succ_of_le h) used last

/-- **The octets of an address are read as the address** with the normal form of its callsign. -/
theorem decode_octets {a : Address} (h : a.callsign.Encodable) :
    decode a.octets = ⟨a.callsign.normal, a.used, a.last⟩ := by
  have hlength : (a.callsign.call.map fun x => callOctet (UInt8.ofNat x.toNat)).length +
      (callLength - a.callsign.call.length) = callLength := by
    rw [List.length_map]
    exact Nat.add_sub_cancel' h.call_length
  have hplace : (a.callsign.call.map (fun x => callOctet (UInt8.ofNat x.toNat)) ++
      List.replicate (callLength - a.callsign.call.length) padding).length = callLength := by
    rw [List.length_append, List.length_replicate, hlength]
  have hcall : (a.octets.take callLength).map (fun b => Char.ofNat (b.toNat / 2)) =
      Text.upperAscii a.callsign.call ++
        List.replicate (callLength - a.callsign.call.length) ' ' := by
    unfold octets
    rw [List.take_left' hplace,
      List.map_append, List.map_map, List.map_replicate]
    refine congrArg (· ++ _) (List.map_congr_left fun x hx => ?_)
    exact char_callOctet (Nat.lt_of_le_of_lt (h.call_graphic x hx).2 (by decide))
  have hflags : a.octets.getD callLength 0 =
      flagOctet a.callsign.ssidValue a.used a.last := by
    unfold octets
    rw [List.getD_eq_getElem?_getD, List.getElem?_append_right (Nat.le_of_eq hplace), hplace,
      Nat.sub_self]
    rfl
  have htrim : Text.trimEnd (Text.upperAscii a.callsign.call ++
      List.replicate (callLength - a.callsign.call.length) ' ') =
        Text.upperAscii a.callsign.call := by
    unfold Text.trimEnd
    rw [dropTrailing_append fun y hy => by rw [List.eq_of_mem_replicate hy]; decide]
    -- the call holds no blank, so no more than the padding is cut off
    refine dropTrailing_eq_self fun x hx => ?_
    obtain ⟨x, hmem, rfl⟩ := List.mem_map.mp hx
    exact not_isBlank_toUpper (h.call_graphic x hmem)
  obtain ⟨hssid, hused, hlast⟩ := flagOctet_fields h.ssid_value a.used a.last
  unfold decode
  dsimp only
  rw [hcall, htrim, hflags, hssid, hused, hlast]
  rfl

end Address

end Aprs
