import Aprs.Proofs.Address
import Aprs.Proofs.Frame.Chain

/-!
# What a frame is written as, and read as again

A frame is written into a buffer that has been made as long as the frame is. If its addresses can all
be written, nothing in it is refused for want of room, so what is written is the row of its addresses
with the two octets of its kind and the information behind them (`toBytes_eq_ok_iff`).

Each address in that row is seven octets long, so it is found again by its number, and only the last
one is marked. The chain therefore ends where the path does:

> `decode_octets`: a frame that can be written is read as the frame with the normal forms of its
> callsigns.

Specification: 4.7 (Frame Encoder) and 8 (Testable Properties).
-/

namespace Aprs

/-! ## Rows of pieces of one width -/

section Rows

variable {β : Type} {f : β → Bytes} {width : Nat} {xs : List β}

theorem length_flatMap_width (h : ∀ x ∈ xs, (f x).length = width) :
    (xs.flatMap f).length = width * xs.length := by
  induction xs with
  | nil => rfl
  | cons x rest ih =>
    obtain ⟨hx, hrest⟩ := List.forall_mem_cons.mp h
    rw [List.flatMap_cons, List.length_append, hx, ih hrest, List.length_cons, Nat.mul_succ,
      Nat.add_comm]

/-- A piece of a row is found by its number. -/
theorem take_drop_flatMap (h : ∀ x ∈ xs, (f x).length = width) (tail : Bytes) :
    ∀ {i : Nat} {x : β}, xs[i]? = some x →
      ((xs.flatMap f ++ tail).drop (width * i)).take width = f x := by
  induction xs with
  | nil => intro i x hx; simp at hx
  | cons first rest ih =>
    intro i x hx
    obtain ⟨hfirst, hrest⟩ := List.forall_mem_cons.mp h
    rw [List.flatMap_cons, List.append_assoc]
    cases i with
    | zero =>
      obtain rfl : first = x := Option.some.inj hx
      exact List.take_left' hfirst
    | succ i =>
      -- the first piece is what the first `width` octets hold
      have hstep : width * (i + 1) = (f first).length + width * i := by
        rw [hfirst, Nat.mul_succ, Nat.add_comm]
      rw [hstep, ← List.drop_drop, List.drop_left]
      exact ih hrest hx

end Rows

/-! ## Buffers -/

namespace Buffer

/-- Octets that fit are written in front of what is left of the room. -/
theorem write_of_le {b : Buffer} {octets : Bytes} (h : octets.length ≤ b.room.length) :
    b.write octets = (.ok (), ⟨b.written ++ octets, b.room.drop octets.length⟩) :=
  if_pos h

/-- Octets that fit in the room that is left are written one after the other, and then come the fields
behind them. -/
theorem writeFields_append {pieces : List Bytes} {fields : List (Except Address.Error Bytes)} :
    ∀ {b : Buffer}, pieces.flatten.length ≤ b.room.length →
      b.writeFields (pieces.map .ok ++ fields) =
        writeFields ⟨b.written ++ pieces.flatten, b.room.drop pieces.flatten.length⟩ fields := by
  induction pieces with
  | nil =>
    intro b _
    rw [List.flatten_nil, List.append_nil]
    rfl
  | cons piece rest ih =>
    intro b h
    rw [List.flatten_cons, List.length_append] at h
    have hwrite : b.writeField (.ok piece) = _ := write_of_le (Nat.le_of_add_right_le h)
    have hrest : rest.flatten.length ≤ (b.room.drop piece.length).length := by
      rw [List.length_drop]
      exact Nat.le_sub_of_add_le' h
    rw [List.map_cons, List.cons_append, writeFields, hwrite]
    dsimp only
    rw [ih hrest, List.drop_drop, List.append_assoc, List.flatten_cons, List.length_append]

/-- Fields that have room are all written, and the room behind them is left. -/
theorem writeFields_ok {pieces : List Bytes} {b : Buffer} (h : pieces.flatten.length ≤ b.room.length) :
    b.writeFields (pieces.map .ok) =
      (.ok (), ⟨b.written ++ pieces.flatten, b.room.drop pieces.flatten.length⟩) := by
  rw [← List.append_nil (pieces.map Except.ok), writeFields_append h]
  rfl

/-- Fields that have all been written are octets. -/
theorem ok_of_writeFields {fields : List (Except Address.Error Bytes)} :
    ∀ {b : Buffer}, (b.writeFields fields).1 = .ok () → ∀ field ∈ fields, ∃ bytes, field = .ok bytes := by
  induction fields with
  | nil => intro b _ field hfield; exact absurd hfield List.not_mem_nil
  | cons first rest ih =>
    intro b h field hfield
    rw [writeFields] at h
    cases first with
    | error cause => simp [writeField] at h
    | ok bytes =>
      rcases List.mem_cons.mp hfield with rfl | hfield
      · exact ⟨bytes, rfl⟩
      · split at h
        · simp at h
        · exact ih h field hfield

end Buffer

namespace Frame

/-! ## Writing -/

/-- The octets of a frame whose addresses are encodable. -/
def octets (f : Frame) : Bytes :=
  f.addresses.flatMap Address.octets ++ [control, protocol] ++ f.information

/-- A frame that can be written: it has no more hops than there may be, and all its callsigns fit in
an address. -/
structure Encodable (f : Frame) : Prop where
  destination : f.destination.Encodable
  source : f.source.Encodable
  hops_length : f.hops.length ≤ 8
  hops : ∀ hop ∈ f.hops, hop.callsign.Encodable

/-- The address of each hop; the last one is marked. -/
theorem hopAddresses_eq (path : Path) :
    hopAddresses path =
      path.mapIdx fun i hop => ⟨hop.callsign, hop.used, decide (i + 1 = path.length)⟩ := by
  induction path with
  | nil => rfl
  | cons hop rest ih =>
    cases rest with
    | nil => rfl
    | cons next more =>
      -- another hop follows, so this one does not end the chain and all places move by one
      show ⟨hop.callsign, hop.used, false⟩ :: hopAddresses (next :: more) = _
      rw [ih, List.mapIdx_cons (a := hop)]
      simp

variable {f : Frame}

/-- The chain of addresses, told by the places of the hops. -/
theorem addresses_eq (f : Frame) :
    f.addresses = ⟨f.destination, true, false⟩ :: ⟨f.source, false, decide (f.hops.length = 0)⟩ ::
      f.hops.mapIdx fun i hop => ⟨hop.callsign, hop.used, decide (i + 1 = f.hops.length)⟩ := by
  have hempty : f.hops.isEmpty = decide (f.hops.length = 0) := by
    cases f.hops <;> rfl
  unfold addresses
  rw [hopAddresses_eq, hempty]

theorem addresses_length (f : Frame) : f.addresses.length = 2 + f.hops.length := by
  unfold addresses
  rw [List.length_cons, List.length_cons, hopAddresses_eq, List.length_mapIdx]
  omega

/-- The address of the destination, of the source, and of each hop. -/
theorem addresses_getElem? (f : Frame) (i : Nat) :
    f.addresses[0]? = some ⟨f.destination, true, false⟩ ∧
      f.addresses[1]? = some ⟨f.source, false, decide (f.hops.length = 0)⟩ ∧
      f.addresses[i + 2]? =
        f.hops[i]?.map fun hop => ⟨hop.callsign, hop.used, decide (i + 1 = f.hops.length)⟩ := by
  refine ⟨rfl, ?_, ?_⟩
  · show some _ = some _
    cases f.hops <;> rfl
  · show (hopAddresses f.hops)[i]? = _
    rw [hopAddresses_eq, List.getElem?_mapIdx]

theorem forall_addresses {p : Callsign → Prop} :
    (∀ a ∈ f.addresses, p a.callsign) ↔
      p f.destination ∧ p f.source ∧ ∀ hop ∈ f.hops, p hop.callsign := by
  have hhops : (∀ a ∈ hopAddresses f.hops, p a.callsign) ↔ ∀ hop ∈ f.hops, p hop.callsign := by
    rw [hopAddresses_eq]
    constructor
    · intro h hop hmem
      obtain ⟨i, hi, rfl⟩ := List.getElem_of_mem hmem
      exact h _ (List.mem_mapIdx.mpr ⟨i, hi, rfl⟩)
    · intro h a ha
      obtain ⟨i, hi, rfl⟩ := List.mem_mapIdx.mp ha
      exact h _ (List.getElem_mem hi)
  unfold addresses
  rw [List.forall_mem_cons, List.forall_mem_cons, hhops]

theorem Encodable.addresses (h : f.Encodable) : ∀ a ∈ f.addresses, a.callsign.Encodable :=
  forall_addresses.mpr ⟨h.destination, h.source, h.hops⟩

/-- The octets of a frame field by field, if its addresses are encodable. -/
def pieces (f : Frame) : List Bytes :=
  f.addresses.map Address.octets ++ [[control], [protocol], f.information]

theorem flatten_pieces (f : Frame) : f.pieces.flatten = f.octets := by
  unfold pieces
  rw [List.flatten_append, ← List.flatMap_def]
  simp [octets]

theorem Encodable.fields_eq (h : f.Encodable) : f.fields = f.pieces.map .ok := by
  unfold fields pieces
  rw [List.map_append, List.map_map]
  refine congrArg (· ++ _) (List.map_congr_left fun a ha => ?_)
  exact Address.encode_eq_ok_iff.mpr ⟨h.addresses a ha, rfl⟩

/-- A frame whose fields are all octets, none of them a refusal, has encodable addresses. -/
theorem encodable_of_fields (hlength : f.hops.length ≤ 8)
    (hfields : ∀ field ∈ f.fields, ∃ bytes, field = .ok bytes) : f.Encodable := by
  have haddresses : ∀ a ∈ f.addresses, a.callsign.Encodable := by
    intro a ha
    obtain ⟨octets, hok⟩ := hfields a.encode (List.mem_append_left _ (List.mem_map_of_mem ha))
    exact (Address.encode_eq_ok_iff.mp hok).1
  obtain ⟨hdestination, hsource, hhops⟩ := forall_addresses.mp haddresses
  exact ⟨hdestination, hsource, hlength, hhops⟩

/-- The octets of a frame are as many as its buffer has room for. -/
theorem octets_length (h : f.Encodable) : f.octets.length = f.encodedLength := by
  have hrow := length_flatMap_width fun a ha => Address.octets_length (h.addresses a ha)
  unfold octets encodedLength
  rw [List.length_append, List.length_append, hrow, addresses_length]
  rfl

/-- **What is written.** A frame is written exactly if it can be, and then as its octets. -/
theorem toBytes_eq_ok_iff {bytes : Bytes} : f.toBytes = .ok bytes ↔ f.Encodable ∧ bytes = f.octets := by
  have hmax : maxHops = 8 := rfl
  -- no address is refused, and the buffer is as long as all of it
  have hrun (h : f.Encodable) : f.toBytes = .ok f.octets := by
    have hroom := octets_length h
    have hfits : f.pieces.flatten.length ≤ (Buffer.ofSize f.encodedLength).room.length := by
      rw [flatten_pieces, hroom]
      exact Nat.le_of_eq List.length_replicate.symm
    unfold toBytes encode
    rw [if_neg (by rw [hmax]; exact Nat.not_lt.mpr h.hops_length), h.fields_eq,
      Buffer.writeFields_ok hfits, flatten_pieces]
    -- nothing is left of the room
    show Except.ok (f.octets ++ (List.replicate f.encodedLength 0).drop f.octets.length) = _
    rw [hroom, List.drop_eq_nil_of_le (Nat.le_of_eq List.length_replicate), List.append_nil]
  constructor
  · intro h
    have hencodable : f.Encodable := by
      unfold toBytes encode at h
      by_cases hlong : maxHops < f.hops.length
      · rw [if_pos hlong] at h
        simp at h
      rw [if_neg hlong] at h
      -- the buffer took every field, so none of them is a refusal
      have hwritten : ((Buffer.ofSize f.encodedLength).writeFields f.fields).1 = .ok () := by
        split at h
        · next heq => rw [heq]
        · simp at h
      exact encodable_of_fields (Nat.not_lt.mp hlong) (Buffer.ok_of_writeFields hwritten)
    rw [hrun hencodable] at h
    exact ⟨hencodable, (Except.ok.inj h).symm⟩
  · rintro ⟨h, rfl⟩
    exact hrun h

/-! ## Reading it again -/

/-- The frame as it comes back from what was written: each callsign in its normal form. -/
def normal (f : Frame) : Frame where
  destination := f.destination.normal
  source := f.source.normal
  hops := f.hops.map fun hop => ⟨hop.callsign.normal, hop.used⟩
  information := f.information

/-- The addresses with the kind of frame and the information behind them. -/
theorem octets_eq (f : Frame) :
    f.octets = f.addresses.flatMap Address.octets ++ control :: protocol :: f.information := by
  unfold octets
  rw [List.append_assoc]
  rfl

theorem length_row (h : f.Encodable) :
    (f.addresses.flatMap Address.octets).length = 7 * (2 + f.hops.length) := by
  rw [length_flatMap_width fun a ha => Address.octets_length (h.addresses a ha), addresses_length]

/-- What stands in the seven octets with a number. -/
theorem take_drop_octets (h : f.Encodable) {i : Nat} {a : Address} (ha : f.addresses[i]? = some a) :
    (f.octets.drop (7 * i)).take 7 = a.octets := by
  rw [octets_eq]
  exact take_drop_flatMap (fun a ha => Address.octets_length (h.addresses a ha)) _ ha

/-- **The address at a place of the row is read from it**, its call in upper case. -/
theorem addressAt_octets (h : f.Encodable) {i : Nat} {a : Address} (ha : f.addresses[i]? = some a) :
    addressAt f.octets i = ⟨a.callsign.normal, a.used, a.last⟩ := by
  unfold addressAt
  rw [take_drop_octets h ha]
  exact Address.decode_octets (h.addresses a (List.mem_of_getElem? ha))

/-- Behind the destination only the last address is marked. -/
theorem last_eq {i : Nat} {a : Address} (hi : 1 ≤ i) (ha : f.addresses[i]? = some a) :
    a.last = decide (i = 1 + f.hops.length) := by
  match i, hi with
  | 1, _ =>
    rw [(addresses_getElem? f 0).2.1] at ha
    rw [← Option.some.inj ha]
    exact decide_eq_decide.mpr (by omega)
  | i + 2, _ =>
    rw [(addresses_getElem? f i).2.2] at ha
    obtain ⟨hop, -, rfl⟩ := Option.map_eq_some_iff.mp ha
    exact decide_eq_decide.mpr (by omega)

/-- Only the last address has the mark. -/
theorem markedAt_octets (h : f.Encodable) {i : Nat} (hi : 1 ≤ i) (hle : i ≤ 1 + f.hops.length) :
    MarkedAt f.octets i ↔ i = 1 + f.hops.length := by
  have hlt : i < f.addresses.length := by
    rw [addresses_length]
    omega
  have ha : f.addresses[i]? = some f.addresses[i] := List.getElem?_eq_getElem hlt
  have hroom : 7 * (i + 1) ≤ f.octets.length := by
    rw [octets_eq, List.length_append, length_row h]
    omega
  rw [← addressAt_last hroom, addressAt_octets h ha]
  show f.addresses[i].last = true ↔ _
  rw [last_eq hi ha, decide_eq_true_iff]

/-- The chain ends where the path does. -/
theorem chainEnds_octets (h : f.Encodable) : ChainEnds f.octets (1 + f.hops.length) where
  behind_destination := Nat.le_add_right _ _
  within_limit := by
    have := h.hops_length
    omega
  marked := (markedAt_octets h (Nat.le_add_right _ _) (Nat.le_refl _)).mpr rfl
  first i hi hlt hmarked :=
    Nat.ne_of_lt hlt ((markedAt_octets h hi (Nat.le_of_lt hlt)).mp hmarked)

/-- **A frame that can be written is read as the frame** with the normal forms of its callsigns. -/
theorem decode_octets (h : f.Encodable) : decode f.octets = .ok f.normal := by
  have hplace : 7 * (1 + f.hops.length + 1) = (f.addresses.flatMap Address.octets).length := by
    rw [length_row h]
    omega
  have hcontrol : f.octets[7 * (1 + f.hops.length + 1)]? = some control := by
    rw [octets_eq, hplace, List.getElem?_append_right (Nat.le_refl _), Nat.sub_self]
    rfl
  have hprotocol : f.octets[7 * (1 + f.hops.length + 1) + 1]? = some protocol := by
    rw [octets_eq, hplace, List.getElem?_append_right (Nat.le_add_right _ _),
      Nat.add_sub_cancel_left]
    rfl
  have hinformation : f.octets.drop (7 * (1 + f.hops.length + 1) + 2) = f.information := by
    rw [octets_eq, hplace, ← List.drop_drop, List.drop_left]
    rfl
  -- each hop is found at its number, two behind that of the destination
  have hhops : hopsAt f.octets 2 (1 + f.hops.length - 1) =
      f.hops.map fun hop => ⟨hop.callsign.normal, hop.used⟩ := by
    rw [Nat.add_sub_cancel_left]
    unfold hopsAt
    refine List.ext_getElem (by rw [List.length_map, List.length_map, List.length_range'])
      fun i hi hi' => ?_
    rw [List.length_map] at hi'
    have ha := (addresses_getElem? f i).2.2
    rw [List.getElem?_eq_getElem hi'] at ha
    rw [List.getElem_map, List.getElem_map, List.getElem_range', Nat.one_mul, Nat.add_comm]
    unfold hopAt
    rw [addressAt_octets h ha]
  rw [decode_accepted (chainEnds_octets h) hcontrol hprotocol]
  unfold frameAt normal
  rw [hinformation, hhops, addressAt_octets h (addresses_getElem? f 0).1,
    addressAt_octets h (addresses_getElem? f 0).2.1]

end Frame

end Aprs
