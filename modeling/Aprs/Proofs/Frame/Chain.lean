import Aprs.Frame

/-!
# Where the chain of addresses ends

The addresses of a frame are seven octets each, and the sender says by the low bit of an address that
no other follows it. A reader has to trust that bit, which may stand in any address or in none, and in
a frame that is cut short anywhere.

The chain ends at the first address behind the destination whose bit is set, the source being number
one (`ChainEnds`); the bit of the destination does not matter. Reading hops comes to exactly that
address (`readHops_ends`), or runs into the end of the octets before it (`readHops_cut`), or has read
as many hops as there may be (`readHops_full`).

> `decode_eq_iff`: the octets alone tell which frame or which error comes out (`Outcome`).

Specification: 6 (External Interfaces).
-/

namespace Aprs.Frame

/-! ## The octets of an address -/

/-- The address in the seven octets with a number, the destination being number zero. -/
def addressAt (octets : Bytes) (i : Nat) : Address :=
  Address.decode ((octets.drop (7 * i)).take 7)

/-- The hop that an address is. -/
def hopAt (octets : Bytes) (i : Nat) : Hop :=
  ⟨(addressAt octets i).callsign, (addressAt octets i).used⟩

/-- The hops in a number of addresses from one on. -/
def hopsAt (octets : Bytes) (first count : Nat) : Path :=
  (List.range' first count).map (hopAt octets)

/-- The last octet of an address is there, and its low bit is set. -/
def MarkedAt (octets : Bytes) (i : Nat) : Prop :=
  ∃ flags, octets[7 * i + 6]? = some flags ∧ flags &&& 0x01 ≠ 0

/-- The first address behind the destination that is marked as the last one, which no more than the
greatest number of hops precede. -/
structure ChainEnds (octets : Bytes) (last : Nat) : Prop where
  behind_destination : 1 ≤ last
  within_limit : last ≤ 9
  marked : MarkedAt octets last
  first : ∀ i, 1 ≤ i → i < last → ¬ MarkedAt octets i

variable {octets : Bytes}

theorem MarkedAt.lt_length {i : Nat} (h : MarkedAt octets i) : 7 * i + 6 < octets.length := by
  obtain ⟨flags, hflags, -⟩ := h
  exact (List.getElem?_eq_some_iff.mp hflags).1

/-- A chain ends in one place. -/
theorem ChainEnds.unique {last last' : Nat} (h : ChainEnds octets last)
    (h' : ChainEnds octets last') : last = last' := by
  rcases Nat.lt_trichotomy last last' with hlt | heq | hgt
  · exact absurd h.marked (h'.first last h.behind_destination hlt)
  · exact heq
  · exact absurd h'.marked (h.first last' h'.behind_destination hgt)

/-- Up to any number, either an address is the first to be marked or none is marked. -/
theorem first_marked_or_none (octets : Bytes) (bound : Nat) :
    (∃ last, 1 ≤ last ∧ last ≤ bound ∧ MarkedAt octets last ∧
      ∀ i, 1 ≤ i → i < last → ¬ MarkedAt octets i) ∨
    ∀ i, 1 ≤ i → i ≤ bound → ¬ MarkedAt octets i := by
  induction bound with
  | zero => exact Or.inr fun i hi hbound => absurd hi (by omega)
  | succ bound ih =>
    -- one that is marked within a bound is so within a greater one, so only the last number is new
    rcases ih with ⟨last, hpos, hle, hmarked, hfirst⟩ | hnone
    · exact Or.inl ⟨last, hpos, Nat.le_succ_of_le hle, hmarked, hfirst⟩
    by_cases hmarked : MarkedAt octets (bound + 1)
    · exact Or.inl ⟨bound + 1, Nat.succ_pos _, Nat.le_refl _, hmarked,
        fun i hi hlt => hnone i hi (Nat.le_of_lt_succ hlt)⟩
    · refine Or.inr fun i hi hbound => ?_
      rcases Nat.lt_or_eq_of_le hbound with hlt | rfl
      · exact hnone i hi (Nat.le_of_lt_succ hlt)
      · exact hmarked

/-- A chain ends, or no address is marked that could end it. -/
theorem chain_ends_or_unmarked (octets : Bytes) :
    (∃ last, ChainEnds octets last) ∨ ∀ i, 1 ≤ i → i ≤ 9 → ¬ MarkedAt octets i := by
  rcases first_marked_or_none octets 9 with ⟨last, hpos, hle, hmarked, hfirst⟩ | hnone
  · exact Or.inl ⟨last, hpos, hle, hmarked, hfirst⟩
  · exact Or.inr hnone

/-- An address that is all there is the last of the chain exactly if it is marked. -/
theorem addressAt_last {i : Nat} (h : 7 * (i + 1) ≤ octets.length) :
    (addressAt octets i).last = true ↔ MarkedAt octets i := by
  have hroom : 7 * i + 6 < octets.length := by omega
  have hflags : ((octets.drop (7 * i)).take 7).getD Address.callLength 0 = octets[7 * i + 6] := by
    show ((octets.drop (7 * i)).take 7).getD 6 0 = _
    rw [List.getD_eq_getElem?_getD, List.getElem?_take, if_pos (by decide), List.getElem?_drop,
      List.getElem?_eq_getElem hroom]
    rfl
  have hbit (b : UInt8) : b &&& 0x01 ≠ 0 ↔ b.toNat % 2 = 1 := by
    rw [Ne, ← UInt8.toNat_inj, UInt8.toNat_and]
    show b.toNat &&& 1 ≠ 0 ↔ _
    rw [Nat.and_one_is_mod]
    omega
  unfold addressAt Address.decode MarkedAt
  dsimp only
  rw [hflags, decide_eq_true_iff, List.getElem?_eq_getElem hroom, ← hbit]
  constructor
  · exact fun h => ⟨_, rfl, h⟩
  · rintro ⟨flags, hsome, h⟩
    rw [Option.some.inj hsome]
    exact h

/-! ## Reading -/

/-- An address is read where its seven octets are. -/
theorem readAddress_ok {i : Nat} (h : 7 * (i + 1) ≤ octets.length) :
    readAddress ⟨octets, 7 * i⟩ = .ok (addressAt octets i, ⟨octets, 7 * (i + 1)⟩) := by
  unfold readAddress Reader.exact
  rw [if_neg (by simp only [Reader.remaining, Address.length]; omega),
    if_neg (show ¬ octets.length < 7 * i by omega)]
  rfl

/-- Where they are not, the frame ends unexpectedly. -/
theorem readAddress_cut {i : Nat} (h : octets.length < 7 * (i + 1)) :
    readAddress ⟨octets, 7 * i⟩ = .error (.read .unexpectedEnd) := by
  unfold readAddress Reader.exact
  rw [if_pos (by simp only [Reader.remaining, Address.length]; omega)]

theorem readOctet_ok {place : Nat} {b : UInt8} (h : octets[place]? = some b) :
    readOctet ⟨octets, place⟩ = .ok (b, ⟨octets, place + 1⟩) := by
  unfold readOctet Reader.octet
  rw [h]

theorem readOctet_cut {place : Nat} (h : octets[place]? = none) :
    readOctet ⟨octets, place⟩ = .error (.read .unexpectedEnd) := by
  unfold readOctet Reader.octet
  rw [h]

/-- Reading hops behind an address comes to the end of the chain if that is not too far. -/
theorem readHops_ends {last : Nat} (hmarked : MarkedAt octets last) :
    ∀ {room i : Nat}, i ≤ last → last ≤ i + room →
      (∀ j, i ≤ j → j < last → ¬ MarkedAt octets j) →
      readHops room (addressAt octets i).last ⟨octets, 7 * (i + 1)⟩ =
        .ok (hopsAt octets (i + 1) (last - i), ⟨octets, 7 * (last + 1)⟩) := by
  have hroom := hmarked.lt_length
  -- on how many hops may follow; the reader stands behind the address `i`, which the step moves on
  intro room
  induction room with
  | zero =>
    intro i hle hlimit _
    obtain rfl : i = last := by omega
    rw [(addressAt_last (by omega)).mpr hmarked, Nat.sub_self]
    rfl
  | succ room ih =>
    intro i hle hlimit hfirst
    -- either this address ends the chain, or it says that another one follows
    rcases Nat.eq_or_lt_of_le hle with rfl | hlt
    · rw [(addressAt_last (by omega)).mpr hmarked, Nat.sub_self]
      rfl
    · have hunmarked : (addressAt octets i).last = false := by
        rw [← Bool.not_eq_true, addressAt_last (by omega)]
        exact hfirst i (Nat.le_refl i) hlt
      rw [hunmarked, readHops, readAddress_ok (by omega)]
      show (readHops room (addressAt octets (i + 1)).last _ >>= _) = _
      rw [ih (by omega) (by omega) fun j hj => hfirst j (by omega),
        show last - i = last - (i + 1) + 1 by omega]
      rfl

/-- Reading hops runs into the end of the octets if that comes before the end of the chain. -/
theorem readHops_cut :
    ∀ {room i : Nat}, 7 * (i + 1) ≤ octets.length → octets.length < 7 * (i + room + 1) →
      (∀ j, i ≤ j → j ≤ i + room → ¬ MarkedAt octets j) →
      readHops room (addressAt octets i).last ⟨octets, 7 * (i + 1)⟩ =
        .error (.read .unexpectedEnd) := by
  intro room
  induction room with
  -- without room nothing is read any more, so the octets cannot be missing
  | zero => intro i hle hlt _; omega
  | succ room ih =>
    intro i hle hlt hunmarked
    have hlast : (addressAt octets i).last = false := by
      rw [← Bool.not_eq_true, addressAt_last hle]
      exact hunmarked i (Nat.le_refl i) (Nat.le_add_right i _)
    rw [hlast, readHops]
    rcases Nat.lt_or_ge octets.length (7 * (i + 1 + 1)) with hcut | hroom
    · rw [readAddress_cut hcut]
      rfl
    · rw [readAddress_ok hroom]
      show (readHops room (addressAt octets (i + 1)).last _ >>= _) = _
      rw [ih hroom (by omega) fun j hj hbound => hunmarked j (by omega) (by omega)]
      rfl

/-- Reading hops stops when as many as there may be are read and none was marked. -/
theorem readHops_full :
    ∀ {room i : Nat}, 7 * (i + room + 1) ≤ octets.length →
      (∀ j, i ≤ j → j ≤ i + room → ¬ MarkedAt octets j) →
      readHops room (addressAt octets i).last ⟨octets, 7 * (i + 1)⟩ = .error .tooManyHops := by
  intro room
  induction room with
  | zero =>
    intro i hle hunmarked
    have hlast : (addressAt octets i).last = false := by
      rw [← Bool.not_eq_true, addressAt_last hle]
      exact hunmarked i (Nat.le_refl i) (Nat.le_refl i)
    rw [hlast]
    rfl
  | succ room ih =>
    intro i hle hunmarked
    have hlast : (addressAt octets i).last = false := by
      rw [← Bool.not_eq_true, addressAt_last (by omega)]
      exact hunmarked i (Nat.le_refl i) (Nat.le_add_right i _)
    rw [hlast, readHops, readAddress_ok (by omega)]
    show (readHops room (addressAt octets (i + 1)).last _ >>= _) = _
    rw [ih (by omega) fun j hj hbound => hunmarked j (by omega) (by omega)]
    rfl

/-! ## Outcomes -/

/-- The frame in octets whose chain ends at an address. -/
def frameAt (octets : Bytes) (last : Nat) : Frame where
  destination := (addressAt octets 0).callsign
  source := (addressAt octets 1).callsign
  hops := hopsAt octets 2 (last - 1)
  information := octets.drop (7 * (last + 1) + 2)

/-- What is left to be read where a chain ends. -/
theorem decode_of_ends {last : Nat} (h : ChainEnds octets last) :
    decode octets =
      (readOctet ⟨octets, 7 * (last + 1)⟩ >>= fun (c, r) => readOctet r >>= fun (p, r) =>
        if c ≠ control ∨ p ≠ protocol then .error (.invalidControlField c p)
        else .ok { frameAt octets last with information := r.rest.1 }) := by
  have hroom := h.marked.lt_length
  have hpos := h.behind_destination
  have hhops := readHops_ends h.marked hpos
    (show last ≤ 1 + maxHops from Nat.le_trans h.within_limit (by decide)) h.first
  unfold decode read
  show (readAddress ⟨octets, 7 * 0⟩ >>= _) = _
  rw [readAddress_ok (by omega)]
  show (readAddress ⟨octets, 7 * 1⟩ >>= _) = _
  rw [readAddress_ok (by omega)]
  show (readHops maxHops (addressAt octets 1).last _ >>= _) = _
  rw [hhops]
  rfl

/-- A chain that ends in front of the two fields of a UI frame is a frame. -/
theorem decode_accepted {last : Nat} (h : ChainEnds octets last)
    (hcontrol : octets[7 * (last + 1)]? = some control)
    (hprotocol : octets[7 * (last + 1) + 1]? = some protocol) :
    decode octets = .ok (frameAt octets last) := by
  rw [decode_of_ends h, readOctet_ok hcontrol]
  show (readOctet ⟨octets, 7 * (last + 1) + 1⟩ >>= _) = _
  rw [readOctet_ok hprotocol]
  rfl

/-- With other fields it is refused, and they are named. -/
theorem decode_refused {last : Nat} {c p : UInt8} (h : ChainEnds octets last)
    (hc : octets[7 * (last + 1)]? = some c) (hp : octets[7 * (last + 1) + 1]? = some p)
    (hkind : c ≠ control ∨ p ≠ protocol) :
    decode octets = .error (.invalidControlField c p) := by
  rw [decode_of_ends h, readOctet_ok hc]
  show (readOctet ⟨octets, 7 * (last + 1) + 1⟩ >>= _) = _
  rw [readOctet_ok hp]
  exact if_pos hkind

/-- A frame that ends before the two fields ends unexpectedly. -/
theorem decode_cut_behind_chain {last : Nat} (h : ChainEnds octets last)
    (hcut : octets.length < 7 * (last + 1) + 2) :
    decode octets = .error (.read .unexpectedEnd) := by
  rw [decode_of_ends h]
  cases hc : octets[7 * (last + 1)]? with
  | none => rw [readOctet_cut hc]; rfl
  | some c =>
    rw [readOctet_ok hc]
    show (readOctet ⟨octets, 7 * (last + 1) + 1⟩ >>= _) = _
    rw [readOctet_cut (List.getElem?_eq_none (by omega))]
    rfl

/-- Without a last address there are too many hops, or too few octets. -/
theorem decode_unmarked (h : ∀ i, 1 ≤ i → i ≤ 9 → ¬ MarkedAt octets i) :
    decode octets =
      .error (if 70 ≤ octets.length then .tooManyHops else .read .unexpectedEnd) := by
  unfold decode read
  show (readAddress ⟨octets, 7 * 0⟩ >>= _) = _
  -- the octets may end inside the destination, inside the source, or behind both
  rcases Nat.lt_or_ge octets.length (7 * (0 + 1)) with hcut | hroom
  · rw [readAddress_cut hcut, if_neg (by omega)]
    rfl
  rw [readAddress_ok hroom]
  show (readAddress ⟨octets, 7 * 1⟩ >>= _) = _
  rcases Nat.lt_or_ge octets.length (7 * (1 + 1)) with hcut | hroom
  · rw [readAddress_cut hcut, if_neg (by omega)]
    rfl
  rw [readAddress_ok hroom]
  show (readHops maxHops (addressAt octets 1).last _ >>= _) = _
  have hmax : maxHops = 8 := rfl
  split
  · next hlong =>
    rw [readHops_full (by omega) fun i hi hbound => h i hi (by omega)]
    rfl
  · rw [readHops_cut hroom (by omega) fun i hi hbound => h i hi (by omega)]
    rfl

/-- No address is marked that could end the chain, though all that could are there. -/
def Endless (octets : Bytes) : Prop :=
  70 ≤ octets.length ∧ ∀ i, 1 ≤ i → i ≤ 9 → ¬ MarkedAt octets i

/-- The chain ends, and two octets follow it. -/
def ReachesKind (octets : Bytes) : Prop :=
  ∃ last, ChainEnds octets last ∧ 7 * (last + 1) + 2 ≤ octets.length

/-- What octets are read as, said by the octets alone. -/
inductive Outcome (octets : Bytes) : Except DecodeError Frame → Prop
  | frame (last : Nat) (ends : ChainEnds octets last)
      (isControl : octets[7 * (last + 1)]? = some control)
      (isProtocol : octets[7 * (last + 1) + 1]? = some protocol) :
      Outcome octets (.ok (frameAt octets last))
  | otherKind (last : Nat) (c p : UInt8) (ends : ChainEnds octets last)
      (isControl : octets[7 * (last + 1)]? = some c)
      (isProtocol : octets[7 * (last + 1) + 1]? = some p)
      (differs : c ≠ control ∨ p ≠ protocol) :
      Outcome octets (.error (.invalidControlField c p))
  | tooManyHops (endless : Endless octets) : Outcome octets (.error .tooManyHops)
  | cut (short : ¬ ReachesKind octets) (ends : ¬ Endless octets) :
      Outcome octets (.error (.read .unexpectedEnd))

/-- Reading has one of the outcomes. -/
theorem decode_outcome (octets : Bytes) : Outcome octets (decode octets) := by
  rcases chain_ends_or_unmarked octets with ⟨last, h⟩ | hunmarked
  · have hends : ¬ Endless octets :=
      fun hc => hc.2 last h.behind_destination h.within_limit h.marked
    -- the chain ends in one place, so if octets are missing there they are missing everywhere
    rcases Nat.lt_or_ge octets.length (7 * (last + 1) + 2) with hcut | hroom
    · rw [decode_cut_behind_chain h hcut]
      refine .cut (fun ⟨last', h', hroom⟩ => ?_) hends
      rw [h'.unique h] at hroom
      omega
    -- both octets behind the chain are there, and each may be another one
    have hc : octets[7 * (last + 1)]? = some octets[7 * (last + 1)] :=
      List.getElem?_eq_getElem (by omega)
    have hp : octets[7 * (last + 1) + 1]? = some octets[7 * (last + 1) + 1] :=
      List.getElem?_eq_getElem (by omega)
    by_cases hcontrol : octets[7 * (last + 1)] = control
    · by_cases hprotocol : octets[7 * (last + 1) + 1] = protocol
      · rw [hcontrol] at hc
        rw [hprotocol] at hp
        rw [decode_accepted h hc hp]
        exact .frame last h hc hp
      · rw [decode_refused h hc hp (Or.inr hprotocol)]
        exact .otherKind last _ _ h hc hp (Or.inr hprotocol)
    · rw [decode_refused h hc hp (Or.inl hcontrol)]
      exact .otherKind last _ _ h hc hp (Or.inl hcontrol)
  · rw [decode_unmarked hunmarked]
    split
    · next hlong => exact .tooManyHops ⟨hlong, hunmarked⟩
    · next hshort =>
      refine .cut (fun ⟨last, h, _⟩ => ?_) fun hc => hshort hc.1
      exact hunmarked last h.behind_destination h.within_limit h.marked

/-- Reading has no outcome but the one that the octets tell. -/
theorem decode_eq_iff {octets : Bytes} {result : Except DecodeError Frame} :
    decode octets = result ↔ Outcome octets result := by
  constructor
  · rintro rfl
    exact decode_outcome octets
  -- the conditions exclude one another, so each of them alone tells the result
  · intro h
    cases h with
    | frame last ends isControl isProtocol => exact decode_accepted ends isControl isProtocol
    | otherKind last c p ends isControl isProtocol differs =>
      exact decode_refused ends isControl isProtocol differs
    | tooManyHops endless =>
      rw [decode_unmarked endless.2, if_pos endless.1]
    | cut short ends =>
      rcases chain_ends_or_unmarked octets with ⟨last, h⟩ | hunmarked
      · exact decode_cut_behind_chain h
          (Nat.lt_of_not_le fun hroom => short ⟨last, h, hroom⟩)
      · rw [decode_unmarked hunmarked, if_neg fun hlong => ends ⟨hlong, hunmarked⟩]

/-- **What octets are read as.** They are a frame exactly if the chain ends and the two octets behind
it are those of an unnumbered information frame without a protocol above; the frame is then made of
the addresses up to that end and of all the information. Too many hops are found exactly if the octets
reach as far as nine addresses behind the destination and none of these is marked, another kind of
frame exactly if the chain ends and two other octets follow, and all else is cut short. -/
theorem decode_characterized (octets : Bytes) :
    (∀ f, decode octets = .ok f ↔
      ∃ last, ChainEnds octets last ∧ 7 * (last + 1) + 2 ≤ octets.length ∧
        octets[7 * (last + 1)]? = some 0x03 ∧ octets[7 * (last + 1) + 1]? = some 0xF0 ∧
        f = ⟨(addressAt octets 0).callsign, (addressAt octets 1).callsign,
          hopsAt octets 2 (last - 1), octets.drop (7 * (last + 1) + 2)⟩) ∧
    (decode octets = .error .tooManyHops ↔
      70 ≤ octets.length ∧ ∀ i, 1 ≤ i → i ≤ 9 → ¬ MarkedAt octets i) ∧
    (∀ c p, decode octets = .error (.invalidControlField c p) ↔
      ∃ last, ChainEnds octets last ∧ octets[7 * (last + 1)]? = some c ∧
        octets[7 * (last + 1) + 1]? = some p ∧ ¬ (c = 0x03 ∧ p = 0xF0)) ∧
    (decode octets = .error (.read .unexpectedEnd) ↔
      ¬ (∃ last, ChainEnds octets last ∧ 7 * (last + 1) + 2 ≤ octets.length) ∧
        ¬ (70 ≤ octets.length ∧ ∀ i, 1 ≤ i → i ≤ 9 → ¬ MarkedAt octets i)) := by
  refine ⟨fun f => ⟨fun h => ?_, ?_⟩, ⟨fun h => ?_, fun h => ?_⟩, fun c p => ⟨fun h => ?_, ?_⟩,
    ⟨fun h => ?_, fun h => ?_⟩⟩
  · cases decode_eq_iff.mp h with
    | frame last ends isControl isProtocol =>
      have hroom := (List.getElem?_eq_some_iff.mp isProtocol).1
      exact ⟨last, ends, hroom, isControl, isProtocol, rfl⟩
  · rintro ⟨last, ends, -, isControl, isProtocol, rfl⟩
    exact decode_accepted ends isControl isProtocol
  · cases decode_eq_iff.mp h with
    | tooManyHops endless => exact endless
  · exact decode_eq_iff.mpr (.tooManyHops h)
  · cases decode_eq_iff.mp h with
    | otherKind last c p ends isControl isProtocol differs =>
      refine ⟨last, ends, isControl, isProtocol, fun ⟨hc, hp⟩ => ?_⟩
      exact differs.elim (fun hne => hne hc) (fun hne => hne hp)
  · rintro ⟨last, ends, isControl, isProtocol, differs⟩
    refine decode_refused ends isControl isProtocol ?_
    by_cases hc : c = control
    · exact Or.inr fun hp => differs ⟨hc, hp⟩
    · exact Or.inl hc
  · cases decode_eq_iff.mp h with
    | cut short ends => exact ⟨short, ends⟩
  · exact decode_eq_iff.mpr (.cut h.1 h.2)

end Aprs.Frame
