import Aprs.Proofs.Payload.Contents

/-!
# What the pieces of an information field have to do with each other

A position, a weather report or a timestamp is asked for by its kind, and who asks relies on what the decoders
have put under which kind. They put one piece after the other, the weather report of a station in front of the
position that it stands behind, so the invariant of the pieces alone (`Pieces.WellFormed`) is kept by every
single step (`Pieces.WellFormed.put`), whatever the order. What ties the pieces to the identifier and to each
other (`Payload.Consistent`) is told by the kinds under which a way of decoding puts a piece and those under which
it puts none.

> `Payload.decode_consistent`: the pieces of a decoded information field are consistent.

Specification: 3 (Data Model) and 4.6 (Packet Framer/Dispatcher).
-/

namespace Aprs

variable {α : Type}

/-! ## Kinds and pieces -/

theorem Kind.rank_injective : Function.Injective rank := by
  intro a b h
  cases a <;> cases b <;> first | rfl | contradiction

/-- The kinds under which a piece may stand: its own, and for the fault of one that could not be made the
kinds of which there may be such. -/
def Piece.kinds : Piece α → List Kind
  | time _ => [.timestamp]
  | position _ => [.position]
  | weather _ => [.weather]
  | message _ => [.message]
  | object _ => [.object]
  | item _ => [.item]
  | fault _ => [.unspecified, .object, .item, .telemetry]

namespace Pieces

variable {kind : Kind} {piece : Piece α} {pieces : Pieces α}

/-- Pieces in the order of kinds, one of a kind, each under a kind of its own, and of which one at most gives
a position. -/
structure WellFormed (pieces : Pieces α) : Prop where
  ordered : pieces.Pairwise fun a b => a.1.rank < b.1.rank
  matching : ∀ entry ∈ pieces, entry.1 ∈ entry.2.kinds
  onePosition : ∀ a ∈ pieces, ∀ b ∈ pieces,
    a.2.positionReport?.isSome → b.2.positionReport?.isSome → a = b

theorem WellFormed.nil : WellFormed ([] : Pieces α) :=
  ⟨List.Pairwise.nil, List.forall_mem_nil _, List.forall_mem_nil _⟩

/-- A piece is put in its place in the order of the kinds, or in the place of an earlier one. -/
theorem ordered_put (h : pieces.Pairwise fun a b => a.1.rank < b.1.rank) :
    (pieces.put kind piece).Pairwise fun a b => a.1.rank < b.1.rank := by
  induction pieces with
  | nil => exact List.pairwise_singleton _ _
  | cons first rest ih =>
    obtain ⟨k, p⟩ := first
    obtain ⟨hfirst, hrest⟩ := List.pairwise_cons.mp h
    unfold put
    split
    · next hlt =>
      refine List.pairwise_cons.mpr ⟨fun entry hentry => ?_, h⟩
      rcases List.mem_cons.mp hentry with rfl | hentry
      · exact hlt
      · exact Nat.lt_trans hlt (hfirst entry hentry)
    split
    · next hsame => exact List.pairwise_cons.mpr ⟨hsame ▸ hfirst, hrest⟩
    · next hnot hother =>
      refine List.pairwise_cons.mpr ⟨fun entry hentry => ?_, ih hrest⟩
      rcases mem_put hentry with rfl | hentry
      · have hne : k.rank ≠ kind.rank := fun hrank => hother (Kind.rank_injective hrank).symm
        exact Nat.lt_of_le_of_ne (Nat.not_lt.mp hnot) hne
      · exact hfirst entry hentry

/-- **What one step keeps.** A piece under one of its kinds may be put among others, if it gives no position
or they give none. -/
theorem WellFormed.put (h : pieces.WellFormed) (hkind : kind ∈ piece.kinds)
    (hposition : piece.positionReport? = none ∨ ∀ entry ∈ pieces, entry.2.positionReport? = none) :
    (pieces.put kind piece).WellFormed where
  ordered := ordered_put h.ordered
  matching entry hentry := by
    rcases mem_put hentry with rfl | hentry
    · exact hkind
    · exact h.matching entry hentry
  onePosition a ha b hb hsome hsome' := by
    -- the new piece and an old one do not both give a position
    have hnot {entry : Kind × Piece α} (hentry : entry ∈ pieces) (hold : entry.2.positionReport?.isSome)
        (hnew : piece.positionReport?.isSome) : False := by
      rcases hposition with hnone | hnone
      · rw [hnone] at hnew
        contradiction
      · rw [hnone entry hentry] at hold
        contradiction
    rcases mem_put ha with rfl | ha <;> rcases mem_put hb with rfl | hb
    · rfl
    · exact (hnot hb hsome' hsome).elim
    · exact (hnot ha hsome hsome').elim
    · exact h.onePosition a ha b hb hsome hsome'

theorem get?_cons (k l : Kind) (p : Piece α) (rest : Pieces α) :
    get? k ((l, p) :: rest) = if k = l then some p else get? k rest := by
  show List.lookup k ((l, p) :: rest) = _
  rw [List.lookup_cons]
  by_cases h : k = l
  · subst h
    rw [beq_self_eq_true, if_pos rfl]
  · rw [beq_false_of_ne h, if_neg h]
    rfl

/-- Putting a piece changes what is found for its kind only. -/
theorem get?_put (k kind : Kind) (piece : Piece α) (pieces : Pieces α) :
    (pieces.put kind piece).get? k = if k = kind then some piece else pieces.get? k := by
  induction pieces with
  | nil => exact get?_cons k kind piece []
  | cons first rest ih =>
    obtain ⟨l, p⟩ := first
    unfold put
    split
    · exact get?_cons k kind piece _
    split
    · next hsame =>
      subst hsame
      rw [get?_cons, get?_cons]
      split <;> rfl
    · next hother =>
      rw [get?_cons, get?_cons, ih]
      by_cases hk : k = kind
      · subst hk
        rw [if_neg hother, if_pos rfl, if_pos rfl]
      · rw [if_neg hk, if_neg hk]

theorem mem_put_self (kind : Kind) (piece : Piece α) (pieces : Pieces α) :
    (kind, piece) ∈ pieces.put kind piece := by
  induction pieces with
  | nil => exact List.mem_singleton_self _
  | cons first rest ih =>
    obtain ⟨k, p⟩ := first
    unfold put
    split
    · exact List.mem_cons_self
    split
    · exact List.mem_cons_self
    · exact List.mem_cons_of_mem _ ih

/-- The one position among pieces is the one that is found when it is looked for. -/
theorem WellFormed.findSome? (h : pieces.WellFormed) {entry : Kind × Piece α} {report : PositionReport α}
    (hentry : entry ∈ pieces) (hreport : entry.2.positionReport? = some report) :
    pieces.findSome? (fun (_, piece) => piece.positionReport?) = some report := by
  have hsome : (pieces.findSome? fun (_, piece) => piece.positionReport?).isSome :=
    List.findSome?_isSome_iff.mpr ⟨entry, hentry, Option.isSome_of_eq_some hreport⟩
  obtain ⟨found, hfound⟩ := Option.isSome_iff_exists.mp hsome
  obtain ⟨other, hother, hgives⟩ := List.exists_of_findSome?_eq_some hfound
  have hsame : other = entry := h.onePosition other hother entry hentry
    (Option.isSome_of_eq_some hgives) (Option.isSome_of_eq_some hreport)
  subst hsame
  rw [hfound, ← hreport]
  exact hgives.symm

end Pieces

/-! ## Wordings -/

/-- No error of a read is told by an empty text, and so no fault is that hands one on. -/
theorem ReadError.message_ne_nil (cause : ReadError) : cause.message ≠ [] := by
  cases cause <;> exact List.cons_ne_nil _ _

theorem Timestamp.Fault.reason_ne_nil (cause : Timestamp.Fault) : cause.reason ≠ [] := by
  cases cause with
  | number cause => exact cause.message_ne_nil
  | _ => exact List.cons_ne_nil _ _

theorem Position.UncompressedFault.reason_ne_nil (cause : Position.UncompressedFault) :
    cause.reason ≠ [] := by
  cases cause with
  | missingPoint axis => cases axis <;> exact List.cons_ne_nil _ _
  | gap => exact List.cons_ne_nil _ _
  | number cause => exact cause.message_ne_nil
  | outOfRange axis => cases axis <;> exact List.cons_ne_nil _ _
  | hemisphere axis => cases axis <;> exact List.cons_ne_nil _ _

theorem Position.Fault.reason_ne_nil (cause : Position.Fault) : cause.reason ≠ [] := by
  cases cause with
  | uncompressed cause => exact cause.reason_ne_nil
  | _ => exact List.cons_ne_nil _ _

/-- Every fault of a piece is told by some text. -/
theorem PieceFault.reason_ne_nil (cause : PieceFault) : cause.reason ≠ [] := by
  cases cause with
  | object cause => cases cause; exact List.cons_ne_nil _ _
  | item cause => cases cause <;> exact List.cons_ne_nil _ _
  | _ => exact List.cons_ne_nil _ _

/-- No fault goes without words. -/
theorem Piece.ne_nil_of_mem_faults {piece : Piece α} {reason : Text} (h : reason ∈ piece.faults) :
    reason ≠ [] := by
  have hworded {β : Type} {wording : β → Text} (hne : ∀ cause, wording cause ≠ []) {fault : Option β}
      (hmem : reason ∈ (fault.map wording).toList) : reason ≠ [] := by
    obtain ⟨cause, -, rfl⟩ := Option.map_eq_some_iff.mp (Option.mem_toList.mp hmem)
    exact hne cause
  cases piece with
  | time t => exact hworded Timestamp.Fault.reason_ne_nil h
  | position r => exact hworded Position.Fault.reason_ne_nil h
  | weather w => exact hworded (fun cause => by cases cause; exact List.cons_ne_nil _ _) h
  | message m => exact hworded (fun cause => by cases cause <;> exact List.cons_ne_nil _ _) h
  | object o =>
    rcases List.mem_append.mp h with h | h
    · exact hworded Timestamp.Fault.reason_ne_nil h
    · exact hworded Position.Fault.reason_ne_nil h
  | item i => exact hworded Position.Fault.reason_ne_nil h
  | fault cause => exact List.mem_singleton.mp h ▸ cause.reason_ne_nil

/-- Texts of which none is empty leave nothing behind only if there is none. -/
theorem intercalate_eq_nil_iff {separator : Text} {texts : List Text} (h : ∀ t ∈ texts, t ≠ []) :
    List.intercalate separator texts = [] ↔ texts = [] := by
  cases texts with
  | nil => exact iff_of_true rfl rfl
  | cons first rest =>
    have hfirst : first ≠ [] := h first List.mem_cons_self
    refine iff_of_false (fun hnil => hfirst ?_) (List.cons_ne_nil _ _)
    cases rest with
    | nil => simpa using hnil
    | cons second rest =>
      rw [List.intercalate_cons_cons, List.append_assoc] at hnil
      exact (List.append_eq_nil_iff.mp hnil).1

/-- The reasons of the faults are empty when there is no fault, and only then. -/
theorem Payload.faultReason_eq_nil_iff (p : Payload α) : p.faultReason = [] ↔ p.hasFault = false := by
  have hworded : ∀ reason ∈ p.faults, reason ≠ [] := by
    intro reason hreason
    obtain ⟨entry, -, hmem⟩ := List.mem_flatMap.mp hreason
    exact Piece.ne_nil_of_mem_faults hmem
  unfold faultReason hasFault
  rw [intercalate_eq_nil_iff hworded, Bool.not_eq_false', List.isEmpty_iff]

/-! ## Positions and the weather behind them -/

namespace Payload

variable {raw : Bytes} {report : PositionReport α} {cursor : Nat}

/-- The pieces around one that gives a position: it, what was there before, which gives none, and the weather
report of a weather station. -/
structure Around (kind : Kind) (piece : Piece α) (report : PositionReport α) (before after : Pieces α) :
    Prop where
  wellFormed : after.WellFormed
  mem : (kind, piece) ∈ after
  weather : (after.get? .weather).isSome ↔ OfWeatherStation report ∨ (before.get? .weather).isSome
  other : ∀ k, k ≠ .weather → after.get? k = if k = kind then some piece else before.get? k

/-- A piece that carries a position is put around it, behind the pieces that were there before and the
weather that came with it. -/
theorem around_put {kind : Kind} {piece : Piece α} {before : Pieces α} (hbefore : before.WellFormed)
    (hposition : ∀ entry ∈ before, entry.2.positionReport? = none) (hkind : kind ∈ piece.kinds)
    (hweather : kind ≠ .weather) :
    Around kind piece report before ((addWeather raw report cursor before).1.put kind piece) := by
  by_cases hstation : OfWeatherStation report
  · rw [addWeather_of_station hstation]
    have hbetween :
        (before.put .weather (.weather (Weather.decode raw cursor).1)).WellFormed :=
      hbefore.put (List.mem_singleton_self _) (Or.inl rfl)
    refine ⟨hbetween.put hkind (Or.inr fun entry hentry => ?_), Pieces.mem_put_self _ _ _, ?_,
      fun k hk => ?_⟩
    · rcases Pieces.mem_put hentry with rfl | hentry
      · rfl
      · exact hposition entry hentry
    · rw [Pieces.get?_put, if_neg hweather.symm, Pieces.get?_put, if_pos rfl]
      exact iff_of_true rfl (Or.inl hstation)
    · rw [Pieces.get?_put, Pieces.get?_put, if_neg hk]
  · rw [addWeather_of_not_station hstation]
    refine ⟨hbefore.put hkind (Or.inr hposition), Pieces.mem_put_self _ _ _, ?_, fun k _ => ?_⟩
    · rw [Pieces.get?_put, if_neg hweather.symm, or_iff_right hstation]
    · exact Pieces.get?_put _ _ _ _

/-! ## Information fields -/

/-- **What the pieces of an information field have to do with its identifier, its kind and each other.** -/
structure Consistent (p : Payload α) : Prop where
  /-- One piece of a kind, each under a kind of its own, and one position among them. -/
  wellFormed : p.pieces.WellFormed
  /-- A piece that gives a position gives the position of the field. -/
  position : ∀ entry ∈ p.pieces, ∀ report, entry.2.positionReport? = some report →
    p.position? = some report
  weather : (p.pieces.get? .weather).isSome ↔
    letter p.raw = '_' ∨ ∃ report, p.position? = some report ∧ OfWeatherStation report
  timestamp : (p.pieces.get? .timestamp).isSome ↔ letter p.raw ∈ ['/', '@', '_']
  direct : (p.pieces.get? .position).isSome ↔ IsPosition p.raw
  object : (p.pieces.get? .object).isSome ↔ letter p.raw = ';'
  item : (p.pieces.get? .item).isSome ↔ letter p.raw = ')'
  direct_kind : IsPosition p.raw → p.kind = if (p.pieces.get? .weather).isSome then .weather else .position
  object_kind : letter p.raw = ';' → p.kind = .object
  item_kind : letter p.raw = ')' → p.kind = .item
  faultReason : p.faultReason = [] ↔ p.hasFault = false

/-- The pieces in front of a position: its timestamp, if it has one. -/
def stamped (time : Option Timestamp) : Pieces α := (time.map fun t => (.timestamp, .time t)).toList

/-- A timestamp alone is well formed. -/
theorem stamped_wellFormed (time : Option Timestamp) : (stamped (α := α) time).WellFormed := by
  cases time with
  | none => exact .nil
  | some t => exact (Pieces.WellFormed.nil (α := α)).put (List.mem_singleton_self _) (Or.inl rfl)

/-- A timestamp alone has no position. -/
theorem positionReport?_of_mem_stamped {time : Option Timestamp} :
    ∀ entry ∈ stamped (α := α) time, entry.2.positionReport? = none := by
  cases time with
  | none => exact List.forall_mem_nil _
  | some t =>
    intro entry hentry
    rw [List.mem_singleton.mp hentry]
    rfl

/-- Nothing but the timestamp is found in it. -/
theorem get?_stamped {time : Option Timestamp} {kind : Kind} (h : kind ≠ .timestamp) :
    (stamped (α := α) time).get? kind = none := by
  cases time with
  | none => rfl
  | some t => exact (Pieces.get?_cons _ _ _ _).trans (if_neg h)

/-- Around a position, what is consistent hangs on the kind of the piece that gives it. -/
theorem consistent_of_around {p : Payload α} {kind : Kind} {piece : Piece α} {time : Option Timestamp}
    (h : Around kind piece report (stamped time) p.pieces)
    (hreport : piece.positionReport? = some report) (hkind : kind ∈ [.position, .object, .item])
    (htime : time.isSome ↔ letter p.raw ∈ ['/', '@', '_']) (hletter : letter p.raw ≠ '_')
    (hdirect : kind = .position ↔ IsPosition p.raw) (hobject : kind = .object ↔ letter p.raw = ';')
    (hitem : kind = .item ↔ letter p.raw = ')')
    (hdirect_kind : kind = .position →
      p.kind = if (p.pieces.get? .weather).isSome then .weather else .position)
    (hother_kind : kind ≠ .position → p.kind = kind) :
    p.Consistent := by
  have hfound : p.position? = some report := h.wellFormed.findSome? h.mem hreport
  have hget (k : Kind) (hk : k ≠ .weather) (hk' : k ≠ .timestamp) :
      (p.pieces.get? k).isSome ↔ kind = k := by
    rw [h.other k hk, get?_stamped hk']
    by_cases hsame : k = kind
    · rw [if_pos hsame]
      exact iff_of_true rfl hsame.symm
    · rw [if_neg hsame]
      exact iff_of_false Bool.false_ne_true (Ne.symm hsame)
  exact {
    wellFormed := h.wellFormed
    position := fun entry hentry r hr => h.wellFormed.findSome? hentry hr
    weather := by
      rw [h.weather, get?_stamped (by decide), hfound]
      simp [hletter]
    timestamp := by
      have hother : Kind.timestamp ≠ kind := by
        rintro rfl
        simp at hkind
      rw [h.other _ (by decide), if_neg hother, ← htime]
      cases time <;> rfl
    direct := (hget .position (by decide) (by decide)).trans hdirect
    object := (hget .object (by decide) (by decide)).trans hobject
    item := (hget .item (by decide) (by decide)).trans hitem
    direct_kind := fun hposition => hdirect_kind (hdirect.mpr hposition)
    object_kind := fun hsemicolon => by
      have hkind := hobject.mpr hsemicolon
      rw [hother_kind (hkind ▸ by decide), hkind]
    item_kind := fun hparenthesis => by
      have hkind := hitem.mpr hparenthesis
      rw [hother_kind (hkind ▸ by decide), hkind]
    faultReason := p.faultReason_eq_nil_iff }

/-- A payload with another identifier is not a position. -/
theorem not_isPosition_of_letter {c : Char} (h : letter raw = c)
    (hc : c ∉ ['/', '@', '!', '=', '\x60', '\x27', '$']) : ¬IsPosition raw := by
  rintro (hmem | ⟨hmem, -⟩)
  · exact hc (List.mem_append_left _ (h ▸ hmem))
  · exact hc (List.mem_append_right ['/', '@'] (h ▸ hmem))

/-- The kind of an object or an item, in a field with its identifier. -/
structure IsCarrier (raw : Bytes) (kind : Kind) : Prop where
  mem : kind ∈ [.object, .item]
  letter : letter raw ∉ ['/', '@', '_']
  indirect : ¬IsPosition raw
  object : kind = .object ↔ Payload.letter raw = ';'
  item : kind = .item ↔ Payload.letter raw = ')'

theorem isCarrier_object (h : letter raw = ';') : IsCarrier raw .object :=
  ⟨by decide, h ▸ by decide, not_isPosition_of_letter h (by decide), iff_of_true rfl h,
    iff_of_false (by decide) (h ▸ by decide)⟩

theorem isCarrier_item (h : letter raw = ')') : IsCarrier raw .item :=
  ⟨by decide, h ▸ by decide, not_isPosition_of_letter h (by decide),
    iff_of_false (by decide) (h ▸ by decide), iff_of_true rfl h⟩

/-- A carrier is an object or an item and nothing else. -/
theorem IsCarrier.ne {kind other : Kind} (h : IsCarrier raw kind) (hother : other ∉ [.object, .item]) :
    kind ≠ other := fun hsame => hother (hsame ▸ h.mem)

theorem IsCarrier.letter_ne {kind : Kind} (h : IsCarrier raw kind) : Payload.letter raw ≠ '_' :=
  fun hletter => h.letter (hletter.symm ▸ show '_' ∈ ['/', '@', '_'] by decide)

/-! ## The ways of decoding -/

section Ways

variable {p : Payload α} {kind : Kind} {piece : Piece α} {time : Option Timestamp}

/-- A position report has the kind of its weather report, if it has one. -/
theorem consistent_of_direct (h : Around .position (.position report) report (stamped time) p.pieces)
    (hposition : IsPosition p.raw) (htime : time.isSome ↔ letter p.raw ∈ ['/', '@', '_'])
    (hkind : p.kind = if (p.pieces.get? .weather).isSome then .weather else .position) :
    p.Consistent := by
  have hletter {c : Char} (hc : c ∉ ['/', '@', '!', '=', '\x60', '\x27', '$']) : letter p.raw ≠ c :=
    fun h => not_isPosition_of_letter h hc hposition
  exact consistent_of_around h rfl (by decide) htime (hletter (by decide)) (iff_of_true rfl hposition)
    (iff_of_false (by decide) (hletter (by decide))) (iff_of_false (by decide) (hletter (by decide)))
    (fun _ => hkind) (absurd rfl)

/-- An object or an item has its own kind, whether a weather report stands behind it or not. -/
theorem consistent_of_carried (h : Around kind piece report [] p.pieces) (hcarrier : IsCarrier p.raw kind)
    (hreport : piece.positionReport? = some report) (hkind : p.kind = kind) : p.Consistent := by
  have hdirect : kind ≠ .position := hcarrier.ne (by decide)
  have haround : Around kind piece report (stamped none) p.pieces := h
  exact consistent_of_around haround hreport (List.mem_cons_of_mem _ hcarrier.mem)
    (iff_of_false Bool.false_ne_true hcarrier.letter) hcarrier.letter_ne
    (iff_of_false hdirect hcarrier.indirect) hcarrier.object hcarrier.item
    (fun hsame => absurd hsame hdirect) fun _ => hkind

/-- Where no piece gives a position, what is consistent hangs on the kinds of the pieces alone. -/
theorem consistent_of_unplaced (hpieces : p.pieces.WellFormed)
    (hnone : ∀ entry ∈ p.pieces, entry.2.positionReport? = none) (hindirect : ¬IsPosition p.raw)
    (hposition : ¬(p.pieces.get? .position).isSome)
    (hweather : (p.pieces.get? .weather).isSome ↔ letter p.raw = '_')
    (htimestamp : (p.pieces.get? .timestamp).isSome ↔ letter p.raw ∈ ['/', '@', '_'])
    (hobject : (p.pieces.get? .object).isSome ↔ letter p.raw = ';')
    (hitem : (p.pieces.get? .item).isSome ↔ letter p.raw = ')')
    (hobject_kind : letter p.raw = ';' → p.kind = .object)
    (hitem_kind : letter p.raw = ')' → p.kind = .item) : p.Consistent where
  wellFormed := hpieces
  position entry hentry report hreport := by
    rw [hnone entry hentry] at hreport
    contradiction
  weather := by
    have hplace : p.position? = none := List.findSome?_eq_none_iff.mpr hnone
    rw [hplace]
    simpa using hweather
  timestamp := htimestamp
  direct := iff_of_false hposition hindirect
  object := hobject
  item := hitem
  direct_kind hdirect := absurd hdirect hindirect
  object_kind := hobject_kind
  item_kind := hitem_kind
  faultReason := p.faultReason_eq_nil_iff

/-- The fault of an object or an item stands under its kind. -/
theorem consistent_of_broken {cause : PieceFault} (hpieces : p.pieces = [(kind, .fault cause)])
    (hcarrier : IsCarrier p.raw kind) (hkind : p.kind = kind) : p.Consistent := by
  have hget (k : Kind) : (p.pieces.get? k).isSome ↔ kind = k := by
    rw [hpieces, Pieces.get?_cons]
    split
    · next hsame => exact iff_of_true rfl hsame.symm
    · next hother => exact iff_of_false Bool.false_ne_true (Ne.symm hother)
  have hfault : kind ∈ (Piece.fault cause : Piece α).kinds :=
    List.mem_append_left [_] (List.mem_cons_of_mem _ hcarrier.mem)
  refine consistent_of_unplaced (hpieces ▸ Pieces.WellFormed.nil.put hfault (Or.inl rfl)) ?_
    hcarrier.indirect (mt (hget .position).mp (hcarrier.ne (by decide)))
    ((hget .weather).trans (iff_of_false (hcarrier.ne (by decide)) hcarrier.letter_ne))
    ((hget .timestamp).trans (iff_of_false (hcarrier.ne (by decide)) hcarrier.letter))
    ((hget .object).trans hcarrier.object) ((hget .item).trans hcarrier.item)
    (fun hletter => hkind.trans (hcarrier.object.mpr hletter))
    (fun hletter => hkind.trans (hcarrier.item.mpr hletter))
  intro entry hentry
  rw [hpieces] at hentry
  rw [List.mem_singleton.mp hentry]
  rfl

/-- A weather report without a position stands behind a timestamp. -/
theorem consistent_of_weather {t : Timestamp} {w : Weather}
    (hpieces : p.pieces = (stamped (some t)).put .weather (.weather w)) (h : letter p.raw = '_') :
    p.Consistent := by
  have hletter {c : Char} (hc : c ≠ '_') : letter p.raw ≠ c := fun hsame => hc (hsame.symm.trans h)
  have hget (k : Kind) (hk : k ∉ [.timestamp, .weather]) : ¬(p.pieces.get? k).isSome := by
    obtain ⟨htimestamp, hweather⟩ := not_or.mp (mt List.mem_cons.mpr hk)
    rw [hpieces, Pieces.get?_put, if_neg (mt List.mem_singleton.mpr hweather), get?_stamped htimestamp]
    exact Bool.false_ne_true
  refine consistent_of_unplaced
    (hpieces ▸ (stamped_wellFormed (some t)).put (List.mem_singleton_self _) (Or.inl rfl)) ?_
    (not_isPosition_of_letter h (by decide)) (hget _ (by decide)) (iff_of_true (hpieces ▸ rfl) h)
    (iff_of_true (hpieces ▸ rfl) (h.symm ▸ show '_' ∈ ['/', '@', '_'] by decide))
    (iff_of_false (hget _ (by decide)) (hletter (by decide)))
    (iff_of_false (hget _ (by decide)) (hletter (by decide)))
    (fun hsemicolon => absurd hsemicolon (hletter (by decide)))
    (fun hparenthesis => absurd hparenthesis (hletter (by decide)))
  intro entry hentry
  rcases Pieces.mem_put (hpieces ▸ hentry) with rfl | hentry
  · rfl
  · exact positionReport?_of_mem_stamped entry hentry

/-- A field that holds neither a timestamp nor a position has no pieces that are asked for by these. -/
theorem consistent_of_isBare (h : IsBare p.raw) (hpieces : p.pieces.WellFormed)
    (hplain : ∀ entry ∈ p.pieces, entry.2.positionReport? = none ∧
      entry.1 ∉ [.timestamp, .position, .weather, .object, .item]) :
    p.Consistent := by
  obtain ⟨hposition, hletter⟩ := h
  have hslash : letter p.raw ∉ ['/', '@'] := fun hmem => hposition (Or.inl hmem)
  simp only [List.mem_cons, List.not_mem_nil, or_false, not_or] at hletter hslash
  obtain ⟨hobject, hitem, hweather⟩ := hletter
  have hget (k : Kind) (hk : k ∈ [.timestamp, .position, .weather, .object, .item]) :
      ¬(p.pieces.get? k).isSome := by
    rw [Option.not_isSome_iff_eq_none]
    refine List.lookup_eq_none_iff.mpr fun entry hentry => ?_
    exact bne_iff_ne.mpr fun hsame => (hplain entry hentry).2 (hsame ▸ hk)
  exact consistent_of_unplaced hpieces (fun entry hentry => (hplain entry hentry).1) hposition
    (hget _ (by decide)) (iff_of_false (hget _ (by decide)) hweather)
    (iff_of_false (hget _ (by decide)) (by simp [hslash, hweather]))
    (iff_of_false (hget _ (by decide)) hobject) (iff_of_false (hget _ (by decide)) hitem)
    (fun hsemicolon => absurd hsemicolon hobject) (fun hparenthesis => absurd hparenthesis hitem)

end Ways

/-! ## Decoding -/

variable [Scalar α]

/-- Contents with the octets they were found in and a comment. -/
def Contents.field (c : Contents α) (raw : Bytes) (comment : Text) : Payload α :=
  ⟨c.kind, raw, c.pieces, c.cursor, comment⟩

/-- **A position, timed or not, gives consistent contents**: the position is there, the timestamp exactly
behind the identifiers that have one, and weather only with its symbol. -/
theorem positionContents_consistent (time : Option Timestamp) (hposition : IsPosition raw)
    (htime : time.isSome ↔ letter raw ∈ ['/', '@', '_']) (destination : Callsign) (instant : Instant)
    (start : Nat) (comment : Text) :
    ((positionContents (α := α) raw destination instant (stamped time) start).field raw
      comment).Consistent := by
  let read : PositionReport α × Nat := PositionReport.decode raw start destination instant
  let contents : Contents α := positionContents raw destination instant (stamped time) start
  have haround : Around .position (.position read.1) read.1 (stamped time) contents.pieces :=
    around_put (stamped_wellFormed time) positionReport?_of_mem_stamped (List.mem_singleton_self _)
      (by decide)
  -- the kind is chosen before the position is put among the pieces
  have hweather : contents.pieces.get? .weather =
      (addWeather raw read.1 read.2 (stamped time)).1.get? .weather :=
    (Pieces.get?_put _ _ _ _).trans (if_neg (by decide))
  refine consistent_of_direct (p := contents.field raw comment) haround hposition htime ?_
  show _ = if (contents.pieces.get? .weather).isSome then Kind.weather else .position
  rw [hweather]
  rfl

/-- An information field with any comment. -/
theorem contents_consistent (raw : Bytes) (destination : Callsign) (comment : Text) :
    ∀ now, ((contents (α := α) raw destination now).field raw comment).Consistent := by
  have haround {kind : Kind} {piece : Piece α} {report : PositionReport α} {cursor : Nat}
      (hcarrier : IsCarrier raw kind) (hkind : kind ∈ piece.kinds) :
      Around kind piece report [] ((addWeather raw report cursor []).1.put kind piece) :=
    around_put .nil (List.forall_mem_nil _) hkind (hcarrier.ne (by decide))
  refine contents_cases (motive := fun f => ∀ now, ((f now).field raw comment).Consistent) raw destination
    ?timed ?plain ?message ?object ?item ?weather ?none ?fault
  case timed =>
    intro hletter now
    exact positionContents_consistent (some (Timestamp.decode raw 1 now).1) (Or.inl hletter)
      (iff_of_true rfl (List.mem_append_left ['_'] hletter)) destination _ _ comment
  case plain =>
    intro hletter hposition now
    have huntimed : ∀ c ∈ ['!', '=', '\x60', '\x27', '$'], c ∉ ['/', '@', '_'] := by simp
    exact positionContents_consistent none hposition
      (iff_of_false Bool.false_ne_true (huntimed _ hletter)) destination now 1 comment
  case message =>
    intro hbare now
    refine consistent_of_isBare hbare ?_ fun entry hentry => ?_
    · exact Pieces.WellFormed.nil.put (List.mem_singleton_self _) (Or.inl rfl)
    · rw [List.mem_singleton.mp hentry]
      exact ⟨rfl, show Kind.message ∉ _ by decide⟩
  case object =>
    intro hletter now
    have hcarrier := isCarrier_object hletter
    unfold objectContents
    split
    · exact consistent_of_broken rfl hcarrier rfl
    · exact consistent_of_carried (haround hcarrier (List.mem_singleton_self _)) hcarrier rfl rfl
  case item =>
    intro hletter now
    have hcarrier := isCarrier_item hletter
    unfold itemContents
    split
    · exact consistent_of_broken rfl hcarrier rfl
    · exact consistent_of_carried (haround hcarrier (List.mem_singleton_self _)) hcarrier rfl rfl
  case weather => exact fun hletter now => consistent_of_weather rfl hletter
  case none => exact fun hbare kind now => consistent_of_isBare hbare .nil (List.forall_mem_nil _)
  case fault =>
    intro hbare kind hkind cursor cause now
    have hkinds : ∀ kind ∈ [Kind.unspecified, .telemetry],
        kind ∈ [Kind.unspecified, .object, .item, .telemetry] ∧
          kind ∉ [.timestamp, .position, .weather, .object, .item] := by decide
    obtain ⟨hfault, hother⟩ := hkinds kind hkind
    refine consistent_of_isBare hbare ?_ fun entry hentry => ?_
    · exact Pieces.WellFormed.nil.put hfault (Or.inl rfl)
    · rw [List.mem_singleton.mp hentry]
      exact ⟨rfl, hother⟩

/-- **The pieces of an information field fit each other**, its kind and its identifier, whatever was
received. -/
theorem decode_consistent (raw : Bytes) (destination : Callsign) (now : Instant) :
    (decode (α := α) raw destination now).raw = raw ∧
      (decode (α := α) raw destination now).Consistent :=
  ⟨rfl, contents_consistent raw destination _ now⟩

end Payload

end Aprs
