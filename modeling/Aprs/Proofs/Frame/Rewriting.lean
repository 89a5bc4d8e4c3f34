import Aprs.Proofs.Frame.Encoding

/-!
# Reading a frame and writing it again

A digipeater or a gateway that reads a frame and writes it again must not change what it carries. Some
bits do change, since a frame that is read keeps nothing of them: the low bits in a call, the case of
its letters, which blanks it was padded with, the reserved bits, and the marks of the destination and
the source, which say something about commands that is of no use here.

> `toBytes_of_decode`: nothing else changes. The rewriting of an address depends on its place in the
> chain and on its own seven octets only (`Role.rewrite`).

Specification: 4.1 (Callsign/Address Codec) and 4.7 (Frame Encoder).
-/

namespace Aprs

namespace Frame

/-- What an address is in a frame. -/
inductive Role
  | destination
  | source
  | hop
  deriving DecidableEq, Repr

/-- What the address with a number is. -/
def Role.ofNumber : Nat → Role
  | 0 => destination
  | 1 => source
  | _ + 2 => hop

/-- Whether an octet of a call holds a blank of ASCII: a space, or one of the five controls that move
to another place. -/
def isBlankOctet (b : UInt8) : Bool :=
  let n := b.toNat / 2
  (0x09 ≤ n && n ≤ 0x0D) || n = 0x20

/-- An octet of a call without its low bit, and without the bit of the lower case if it holds a
letter. -/
def plainOctet (b : UInt8) : UInt8 :=
  let n := b.toNat / 2
  if 0x61 ≤ n ∧ n ≤ 0x7A then b &&& 0xFE &&& 0xBF else b &&& 0xFE

/-- The octets of a call in which those of the blanks behind it are all padding. -/
def plainCall (call : Bytes) : Bytes :=
  let kept := dropTrailing isBlankOctet call
  kept.map plainOctet ++ List.replicate (call.length - kept.length) 0x40

/-- The octet behind a call with the reserved bits set. The destination is marked as the receiver of a
command and never as the last address, the source not as the receiver. -/
def Role.plainFlags : Role → UInt8 → UInt8
  | destination, b => (b ||| 0x60 ||| 0x80) &&& 0xFE
  | source, b => (b ||| 0x60) &&& 0x7F
  | hop, b => b ||| 0x60

/-- The seven octets of an address as they come out when its frame is read and written again. -/
def Role.rewrite (role : Role) (address : Bytes) : Bytes :=
  plainCall (address.take 6) ++ [role.plainFlags (address.getD 6 0)]

/-- What holds of all octets by their numbers holds of all octets. -/
theorem forall_octet {p : UInt8 → Prop} (h : ∀ n < 256, p (UInt8.ofNat n)) (b : UInt8) : p b := by
  have hb := h b.toNat b.toNat_lt
  rw [UInt8.ofNat_toNat] at hb
  exact hb

end Frame

/-! ## One address -/

namespace Address

open Aprs.Frame (isBlankOctet plainOctet plainCall Role forall_octet)

theorem isBlank_char (b : UInt8) : Text.isBlank (Char.ofNat (b.toNat / 2)) = isBlankOctet b := by
  refine forall_octet (p := fun b => Text.isBlank (Char.ofNat (b.toNat / 2)) = isBlankOctet b) ?_ b
  decide +kernel

theorem callOctet_char (b : UInt8) :
    callOctet (UInt8.ofNat (Char.ofNat (b.toNat / 2)).toNat) = plainOctet b := by
  refine forall_octet
    (p := fun b => callOctet (UInt8.ofNat (Char.ofNat (b.toNat / 2)).toNat) = plainOctet b) ?_ b
  decide +kernel

/-- The octet behind the call, from the flags that each role keeps or sets. -/
theorem flagOctet_plain (b : UInt8) :
    flagOctet (b.toNat / 2 % 16) true false = Role.destination.plainFlags b ∧
      flagOctet (b.toNat / 2 % 16) false (decide (b.toNat % 2 = 1)) = Role.source.plainFlags b ∧
      flagOctet (b.toNat / 2 % 16) (decide (0x80 ≤ b.toNat)) (decide (b.toNat % 2 = 1)) =
        Role.hop.plainFlags b := by
  refine forall_octet (p := fun b =>
    flagOctet (b.toNat / 2 % 16) true false = Role.destination.plainFlags b ∧
      flagOctet (b.toNat / 2 % 16) false (decide (b.toNat % 2 = 1)) = Role.source.plainFlags b ∧
      flagOctet (b.toNat / 2 % 16) (decide (0x80 ≤ b.toNat)) (decide (b.toNat % 2 = 1)) =
        Role.hop.plainFlags b) ?_ b
  decide +kernel

/-- The SSID of an address that was read is the number it was read from. -/
theorem ssidValue_decode (address : Bytes) :
    (decode address).callsign.ssidValue = (address.getD callLength 0).toNat / 2 % 16 := by
  unfold Callsign.ssidValue decode
  dsimp only
  split
  · next hzero => rw [hzero, Nat.ofDigitChars_nil]
  · exact Nat.ofDigitChars_ten_toDigits

/-- The callsign of an address that was read is written as its call in plain octets, whatever marks
are written with it. -/
theorem octets_decode {address : Bytes} (h : address.length = 7) (used last : Bool) :
    octets ⟨(decode address).callsign, used, last⟩ =
      plainCall (address.take 6) ++
        [flagOctet ((address.getD 6 0).toNat / 2 % 16) used last] := by
  have hcall : (decode address).callsign.call =
      (dropTrailing isBlankOctet (address.take 6)).map fun b => Char.ofNat (b.toNat / 2) := by
    have hblank : Text.isBlank ∘ (fun b : UInt8 => Char.ofNat (b.toNat / 2)) = isBlankOctet :=
      funext isBlank_char
    show Text.trimEnd ((address.take 6).map fun b => Char.ofNat (b.toNat / 2)) = _
    unfold Text.trimEnd
    rw [dropTrailing_map, hblank]
  have hlength : (address.take 6).length = 6 := by
    rw [List.length_take, h]
    rfl
  unfold octets plainCall
  dsimp only
  rw [ssidValue_decode, hcall, List.map_map, List.length_map, hlength]
  refine congrArg (· ++ _ ++ _) (List.map_congr_left fun b _ => ?_)
  exact callOctet_char b

end Address

/-! ## The whole frame -/

namespace Frame

variable {octets : Bytes}

/-- Up to the end of the chain only its last address is marked. -/
theorem ChainEnds.markedAt_iff {last i : Nat} (h : ChainEnds octets last) (hi : 1 ≤ i)
    (hle : i ≤ last) : MarkedAt octets i ↔ i = last := by
  constructor
  · intro hmarked
    rcases Nat.lt_or_eq_of_le hle with hlt | heq
    · exact absurd hmarked (h.first i hi hlt)
    · exact heq
  · rintro rfl
    exact h.marked

/-- There are as many addresses as stand in the chain. -/
theorem hops_length_frameAt {last : Nat} (h : ChainEnds octets last) :
    (frameAt octets last).hops.length + 2 = last + 1 := by
  have hpos := h.behind_destination
  show (hopsAt octets 2 (last - 1)).length + 2 = last + 1
  unfold hopsAt
  rw [List.length_map, List.length_range']
  omega

/-- The last address of a frame that was read is the one that ended the chain. -/
theorem last_frameAt {last i : Nat} {a : Address} (h : ChainEnds octets last) (hi : 1 ≤ i)
    (hle : i ≤ last) (ha : (frameAt octets last).addresses[i]? = some a) :
    a.last = (addressAt octets i).last := by
  have hroom : 7 * (i + 1) ≤ octets.length := by
    have := h.marked.lt_length
    omega
  have hhops : 1 + (frameAt octets last).hops.length = last := by
    have := hops_length_frameAt h
    omega
  rw [Bool.eq_iff_iff, last_eq hi ha, hhops, decide_eq_true_iff, addressAt_last hroom,
    h.markedAt_iff hi hle]

/-- The octets of each address of a frame that was read. -/
theorem octets_frameAt {last i : Nat} {a : Address} (h : ChainEnds octets last) (hle : i ≤ last)
    (ha : (frameAt octets last).addresses[i]? = some a) :
    a.octets = (Role.ofNumber i).rewrite ((octets.drop (7 * i)).take 7) := by
  have hlength : ((octets.drop (7 * i)).take 7).length = 7 := by
    have := h.marked.lt_length
    rw [List.length_take, List.length_drop]
    omega
  obtain ⟨hdestination, hsource, hhop⟩ :=
    Address.flagOctet_plain (((octets.drop (7 * i)).take 7).getD 6 0)
  unfold Role.rewrite
  match i with
  | 0 =>
    -- whatever marks the destination came with, it is written with fixed ones
    obtain rfl : ⟨(addressAt octets 0).callsign, true, false⟩ = a :=
      Option.some.inj ((addresses_getElem? _ 0).1.symm.trans ha)
    exact (Address.octets_decode hlength true false).trans (congrArg (plainCall _ ++ [·]) hdestination)
  | 1 =>
    -- the source is the last address if no hop follows, which is what its mark said
    have hlast := last_frameAt h (Nat.le_refl 1) hle ha
    obtain rfl := Option.some.inj ((addresses_getElem? _ 0).2.1.symm.trans ha)
    dsimp only at hlast
    rw [hlast]
    exact (Address.octets_decode hlength false _).trans (congrArg (plainCall _ ++ [·]) hsource)
  | i + 2 =>
    -- a hop is written with both of its marks as they were
    have hlast := last_frameAt h (Nat.le_add_left 1 (i + 1)) hle ha
    rw [(addresses_getElem? _ i).2.2] at ha
    obtain ⟨hop, hhops, rfl⟩ := Option.map_eq_some_iff.mp ha
    have hop_eq : hop = hopAt octets (i + 2) := by
      change (hopsAt octets 2 (last - 1))[i]? = some hop at hhops
      unfold hopsAt at hhops
      rw [List.getElem?_map, List.getElem?_range' (by omega)] at hhops
      rw [← Option.some.inj hhops, Nat.one_mul, Nat.add_comm]
    subst hop_eq
    dsimp only at hlast
    rw [hlast]
    exact (Address.octets_decode hlength _ _).trans (congrArg (plainCall _ ++ [·]) hhop)

/-- **What changes when a frame is read and written again.** Its length, the octets of its kind and
its information stay as they are, and each address becomes what its role makes of it: in the call the
low bits go, the letters become upper case and the blanks behind become padding; the reserved bits are
set; the destination is marked as the receiver of a command and not as the last address, the source is
not marked as the receiver. -/
theorem toBytes_of_decode {rewritten : Bytes} {f : Frame} (h : decode octets = .ok f)
    (h' : f.toBytes = .ok rewritten) :
    rewritten.length = octets.length ∧
      rewritten.drop (7 * (2 + f.hops.length)) = octets.drop (7 * (2 + f.hops.length)) ∧
      ∀ i < 2 + f.hops.length, (rewritten.drop (7 * i)).take 7 =
        (Role.ofNumber i).rewrite ((octets.drop (7 * i)).take 7) := by
  obtain ⟨hencodable, rfl⟩ := toBytes_eq_ok_iff.mp h'
  cases decode_eq_iff.mp h with
  | frame last ends isControl isProtocol =>
    have hhops : 2 + (frameAt octets last).hops.length = last + 1 :=
      (Nat.add_comm _ _).trans (hops_length_frameAt ends)
    obtain ⟨hc, hcontrol⟩ := List.getElem?_eq_some_iff.mp isControl
    obtain ⟨hp, hprotocol⟩ := List.getElem?_eq_some_iff.mp isProtocol
    -- a frame was read, so the two octets behind the chain are those of its kind
    have htail : octets.drop (7 * (last + 1)) =
        control :: protocol :: octets.drop (7 * (last + 1) + 2) := by
      rw [List.drop_eq_getElem_cons hc, hcontrol, List.drop_eq_getElem_cons hp, hprotocol]
    have hrow := length_row hencodable
    rw [hhops] at hrow ⊢
    refine ⟨?_, ?_, fun i hi => ?_⟩
    · rw [octets_eq, List.length_append, hrow, List.length_cons, List.length_cons]
      show _ + ((octets.drop (7 * (last + 1) + 2)).length + 1 + 1) = _
      rw [List.length_drop]
      omega
    · rw [octets_eq, ← hrow, List.drop_left, hrow, htail]
      rfl
    · have hlt : i < (frameAt octets last).addresses.length := by
        rw [addresses_length, hhops]
        exact hi
      have ha := List.getElem?_eq_getElem hlt
      rw [take_drop_octets hencodable ha]
      exact octets_frameAt ends (Nat.le_of_lt_succ hi) ha

/-- A destination in lower case, with a low bit in its call, a tab behind it, no reserved bit and the
mark of the last address. -/
theorem toBytes_of_decode_untidy :
    ∃ f, decode [0xC3, 0xE0, 0xE4, 0xE6, 0x12, 0x40, 0x01, 0x9C, 0x60, 0x86, 0x82, 0x98, 0x98, 0x73,
        0x03, 0xF0, 0x3E] = .ok f ∧
      f.toBytes = .ok [0x82, 0xA0, 0xA4, 0xA6, 0x40, 0x40, 0xE0, 0x9C, 0x60, 0x86, 0x82, 0x98, 0x98,
        0x73, 0x03, 0xF0, 0x3E] ∧
      Role.destination.rewrite [0xC3, 0xE0, 0xE4, 0xE6, 0x12, 0x40, 0x01] =
        [0x82, 0xA0, 0xA4, 0xA6, 0x40, 0x40, 0xE0] := by
  have hread : decode [0xC3, 0xE0, 0xE4, 0xE6, 0x12, 0x40, 0x01, 0x9C, 0x60, 0x86, 0x82, 0x98, 0x98,
      0x73, 0x03, 0xF0, 0x3E] =
      .ok ⟨⟨"aprs".toList, []⟩, ⟨"N0CALL".toList, "9".toList⟩, [], [0x3E]⟩ := by
    rfl
  have hwritten : toBytes ⟨⟨"aprs".toList, []⟩, ⟨"N0CALL".toList, "9".toList⟩, [], [0x3E]⟩ =
      .ok [0x82, 0xA0, 0xA4, 0xA6, 0x40, 0x40, 0xE0, 0x9C, 0x60, 0x86, 0x82, 0x98, 0x98, 0x73, 0x03,
        0xF0, 0x3E] := by
    rfl
  obtain ⟨-, -, haddresses⟩ := toBytes_of_decode hread hwritten
  exact ⟨_, hread, hwritten, (haddresses 0 (by decide)).symm⟩

end Frame

end Aprs
