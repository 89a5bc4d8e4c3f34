import Aprs.Payload.Decode
import Aprs.Text.Utf8.Ascii

/-!
# What an information field contains

The identifier chooses among eight ways in which an information field is decoded. They are told apart once
(`Payload.contents_cases`), for the field as a function of the instant at which it came in, so that one
field may be looked at with two instants. Objects and items are opened here too: each is a name, a flag and
a position behind them (`Payload.objectContents_eq`, `Item.decode_eq`).

Specification: 4.6 (Packet Framer/Dispatcher).
-/

namespace Aprs

variable {α : Type}

/-! ## Pieces -/

/-- Putting a piece among others adds no other. -/
theorem Pieces.mem_put {kind : Kind} {piece : Piece α} {entry : Kind × Piece α} :
    ∀ {pieces : Pieces α},
      entry ∈ pieces.put kind piece → entry = (kind, piece) ∨ entry ∈ pieces := by
  intro pieces
  induction pieces with
  | nil => intro h; exact Or.inl (List.mem_singleton.mp h)
  | cons first rest ih =>
    obtain ⟨k, p⟩ := first
    intro h
    unfold Pieces.put at h
    split at h
    · rcases List.mem_cons.mp h with rfl | h
      · exact Or.inl rfl
      · exact Or.inr h
    split at h
    · rcases List.mem_cons.mp h with rfl | h
      · exact Or.inl rfl
      · exact Or.inr (List.mem_cons_of_mem _ h)
    · rcases List.mem_cons.mp h with rfl | h
      · exact Or.inr List.mem_cons_self
      · exact (ih h).imp_right (List.mem_cons_of_mem _)

namespace Payload

/-! ## Weather behind a position -/

/-- A position of a weather station, which a weather report follows. -/
def OfWeatherStation (report : PositionReport α) : Prop :=
  report.fault = none ∧ report.position.code = weatherSymbol

section Weather

variable {report : PositionReport α}

/-- Behind the position of a weather station there is weather. -/
theorem addWeather_of_station (h : OfWeatherStation report) (raw : Bytes) (cursor : Nat)
    (pieces : Pieces α) :
    addWeather raw report cursor pieces =
      (pieces.put .weather (.weather (Weather.decode raw cursor).1), (Weather.decode raw cursor).2) := by
  unfold addWeather
  refine if_neg ?_
  rintro (hfault | hcode)
  · rw [h.1] at hfault
    contradiction
  · exact hcode h.2

/-- Behind any other there is none. -/
theorem addWeather_of_not_station (h : ¬OfWeatherStation report) (raw : Bytes) (cursor : Nat)
    (pieces : Pieces α) : addWeather raw report cursor pieces = (pieces, cursor) := by
  unfold addWeather
  refine if_pos ?_
  by_cases hfault : report.fault = none
  · exact Or.inr fun hcode => h ⟨hfault, hcode⟩
  · exact Or.inl (Option.isSome_iff_ne_none.mpr hfault)

/-- Behind a position none is added but a weather report. -/
theorem mem_addWeather {raw : Bytes} {cursor : Nat} {pieces : Pieces α} {entry : Kind × Piece α}
    (hentry : entry ∈ (addWeather raw report cursor pieces).1) :
    (∃ w, entry.2 = .weather w) ∨ entry ∈ pieces := by
  by_cases hstation : OfWeatherStation report
  · rw [addWeather_of_station hstation] at hentry
    exact (Pieces.mem_put hentry).imp_left fun heq => ⟨_, congrArg Prod.snd heq⟩
  · rw [addWeather_of_not_station hstation] at hentry
    exact Or.inr hentry

end Weather

/-! ## Ways of decoding -/

variable [Scalar α] {raw : Bytes} {destination : Callsign}

/-- The identifier of an information field as a character. -/
def letter (raw : Bytes) : Char := charOfByte (raw.headD 0)

/-- A field that has an identifier is not empty. -/
theorem ne_nil_of_letter {letters : List Char} (h : letter raw ∈ letters)
    (hzero : letter [] ∉ letters) : raw ≠ [] := by
  rintro rfl
  exact hzero h

/-- A field whose identifier is neither that of a Mic-E report nor that of a receiver, so that the octet
where its position begins tells the encoding. -/
def Plain (raw : Bytes) : Prop := letter raw ∉ ['\x60', '\x27', '$']

theorem plain_of_letter {letters : List Char} (h : letter raw ∈ letters)
    (hplain : ∀ c ∈ letters, c ∉ ['\x60', '\x27', '$']) : Plain raw := hplain _ h

/-- The position of a plain field has a plain encoding. -/
theorem Plain.decode_eq (h : Plain raw) (start : Nat) (destination : Callsign) (instant : Instant) :
    PositionReport.decode (α := α) raw start destination instant =
      PositionReport.decodePlain raw start instant := by
  unfold PositionReport.decode
  cases raw with
  | nil => rfl
  | cons b rest =>
    have h : charOfByte b ∉ ['\x60', '\x27', '$'] := h
    dsimp only [List.head?_cons]
    split
    · next hmicE => rcases hmicE with rfl | rfl <;> exact absurd (by decide) h
    split
    · next hnmea =>
      rw [hnmea] at h
      exact absurd (by decide) h
    · rfl

omit [Scalar α] in
/-- A choice that does not look at the instant. -/
theorem cases_ite {motive : (Instant → Contents α) → Prop} {p : Prop} [Decidable p]
    {f g : Instant → Contents α} (hf : p → motive f) (hg : ¬p → motive g) :
    motive fun now => if p then f now else g now := by
  by_cases h : p
  · simpa only [if_pos h] using hf h
  · simpa only [if_neg h] using hg h

/-- Whether an information field reports where its sender is. Two texts with the identifiers of such reports
begin a raw weather report. -/
def IsPosition (raw : Bytes) : Prop :=
  letter raw ∈ ['/', '@'] ∨
    letter raw ∈ ['!', '=', '\x60', '\x27', '$'] ∧
      ¬(beginsWith "$ULTW".toList raw ∨ beginsWith "!!".toList raw)

/-- Whether an information field is none of those that hold a timestamp, a position or both. -/
def IsBare (raw : Bytes) : Prop := ¬IsPosition raw ∧ letter raw ∉ [';', ')', '_']

/-- A field that begins with a text has the identifier of the text. -/
theorem letter_of_beginsWith {c : Char} {t : Text} (h : beginsWith (c :: t) raw) (hc : c.toNat < 128) :
    letter raw = c := by
  have htake : raw.take (t.length + 1) = UInt8.ofNat c.toNat :: Utf8.encode t := by
    rw [← Utf8.encode_cons_ascii hc]
    exact of_decide_eq_true h
  cases raw with
  | nil => contradiction
  | cons identifier rest =>
    obtain ⟨hfirst, -⟩ := List.cons.inj htake
    exact hfirst ▸ Utf8.charOfByte_ofNat hc

/-- **What an information field contains, by its identifier.** What is not decoded further has no piece, or
one that could not be made. -/
theorem contents_cases {motive : (Instant → Contents α) → Prop} (raw : Bytes) (destination : Callsign)
    (timed : letter raw ∈ ['/', '@'] → motive (timedPosition raw destination))
    (plain : letter raw ∈ ['!', '=', '\x60', '\x27', '$'] → IsPosition raw →
      motive fun now => positionContents raw destination now [] 1)
    (message : IsBare raw → motive fun _ => messageContents raw)
    (object : letter raw = ';' → motive (objectContents raw destination))
    (item : letter raw = ')' → motive (itemContents raw destination))
    (weather : letter raw = '_' → motive (weatherContents raw))
    (none : IsBare raw → ∀ kind, motive fun _ => bare kind)
    (fault : IsBare raw → ∀ kind ∈ [Kind.unspecified, .telemetry], ∀ cursor cause,
      motive fun _ => broken kind cursor cause) :
    motive (contents raw destination) := by
  cases raw with
  | nil => exact fault ⟨by simp [IsPosition, letter, charOfByte], by decide⟩ _ (by decide) _ _
  | cons identifier rest =>
    show motive fun now => contents (identifier :: rest) destination now
    unfold contents
    have hletter : letter (identifier :: rest) = charOfByte identifier := rfl
    refine cases_ite (fun h => timed ?_) fun hslash => ?_
    · simpa [letter] using h
    refine cases_ite (fun hraw => none ⟨?_, ?_⟩ _) fun hraw => ?_
    · rintro (htimed | ⟨-, hnot⟩)
      · exact hslash (by simpa [letter] using htimed)
      · exact hnot hraw
    · rcases hraw with hraw | hraw
      · rw [letter_of_beginsWith hraw (by decide)]
        decide
      · rw [letter_of_beginsWith hraw (by decide)]
        decide
    refine cases_ite (fun h => ?_) fun hplain => ?_
    · have hmem : letter (identifier :: rest) ∈ ['!', '=', '\x60', '\x27', '$'] := by
        simpa [letter] using h
      exact plain hmem (Or.inr ⟨hmem, hraw⟩)
    have hposition : ¬IsPosition (identifier :: rest) := by
      rintro (htimed | ⟨hmem, -⟩)
      · exact hslash (by simpa [letter] using htimed)
      · exact hplain (by simpa [letter] using hmem)
    refine cases_ite (fun h => message ⟨hposition, ?_⟩) fun _ => ?_
    · rw [hletter, h]
      decide
    refine cases_ite object fun hobject => ?_
    refine cases_ite item fun hitem => ?_
    refine cases_ite weather fun hweather => ?_
    -- nothing is decoded behind the identifiers that are left
    have hbare : IsBare (identifier :: rest) := ⟨hposition, by simp [hletter, hobject, hitem, hweather]⟩
    refine cases_ite (fun _ => none hbare _) fun _ => cases_ite (fun _ => none hbare _) fun _ => ?_
    refine cases_ite (fun _ => none hbare _) fun _ => cases_ite (fun _ => none hbare _) fun _ => ?_
    refine cases_ite (fun _ => ?_) fun _ => ?_
    · exact cases_ite (fun _ => fault hbare _ (by decide) _ _) fun _ => none hbare _
    refine cases_ite (fun _ => none hbare _) fun _ => cases_ite (fun _ => none hbare _) fun _ => ?_
    exact fault hbare _ (by decide) _ _

end Payload

/-! ## Objects and items -/

variable [Scalar α] {raw payload : Bytes} {destination : Callsign} {now : Instant}

/-- A field that is long enough for an object has a name, a flag, a timestamp and a position, one behind the
other, and the weather report of a weather station. -/
theorem Payload.objectContents_eq (h : Object.minLength ≤ raw.length) :
    objectContents (α := α) raw destination now =
      let time := Timestamp.decode raw 11 now
      let read := PositionReport.decode raw time.2 destination (time.1.generated now)
      let added := addWeather raw read.1 read.2 []
      ⟨.object, added.1.put .object (.object ⟨Text.trim (Utf8.lossy ((raw.drop 1).take 9)),
        raw.getD 10 0 == 0x2A, time.1, read.1⟩), added.2⟩ := by
  unfold objectContents Object.decode
  rw [if_neg (Nat.not_lt.mpr h)]
  rfl

theorem Payload.objectContents_eq_broken (h : raw.length < Object.minLength) :
    objectContents (α := α) raw destination now = broken .object 1 (.object (.tooShort raw.length)) := by
  unfold objectContents Object.decode
  rw [if_pos h]

/-- The octets of the name of an item: those in front of the first flag. -/
def Item.nameOctets (payload : Bytes) : Bytes := (payload.drop 1).takeWhile fun b => !isFlag b

/-- Where a flag is found among the first octets, the name is what stands in front of the first flag of
all. -/
theorem Item.takeWhile_take {octets behind : Bytes} {count : Nat} {flag : UInt8}
    (h : (octets.take count).drop ((octets.take count).takeWhile fun b => !isFlag b).length =
      flag :: behind) :
    (octets.take count).takeWhile (fun b => !isFlag b) = octets.takeWhile fun b => !isFlag b := by
  have hstops : ((octets.take count).takeWhile fun b => !isFlag b).length ≠ (octets.take count).length := by
    intro hall
    rw [hall, List.drop_length] at h
    contradiction
  have hwhole : (octets.take count ++ octets.drop count).takeWhile (fun b => !isFlag b) = _ :=
    List.takeWhile_append
  rw [List.take_append_drop, if_neg hstops] at hwhole
  exact hwhole.symm

/-- The octets of the name and whether the item is live, if a name and a flag can be told. -/
def Item.named (payload : Bytes) : Except Item.Fault (Bytes × Bool) :=
  if payload.length < minLength then .error (.tooShort payload.length)
  else
    let search := (payload.drop 1).take (maxName + 1)
    let name := search.takeWhile fun b => !isFlag b
    match search.drop name.length with
    | [] => .error .notTerminated
    | flag :: _ => if name.isEmpty then .error .notTerminated else .ok (name, flag == 0x21)

/-- The name of an item is what stands in front of the first flag. -/
theorem Item.eq_nameOctets_of_named {name : Bytes} {live : Bool}
    (h : named payload = .ok (name, live)) : name = nameOctets payload := by
  unfold named at h
  split at h
  · contradiction
  dsimp only at h
  split at h
  · contradiction
  next flag behind hflag =>
    split at h
    · contradiction
    · obtain ⟨rfl, rfl⟩ := Prod.mk.inj (Except.ok.inj h)
      exact takeWhile_take hflag

/-- An item is a name, the flag behind it and a position behind that. -/
theorem Item.decode_eq (payload : Bytes) (destination : Callsign) (now : Instant) :
    Item.decode (α := α) payload destination now = (named payload).map fun (name, live) =>
      let read := PositionReport.decode payload (name.length + 2) destination now
      (⟨Utf8.lossy name, live, read.1⟩, read.2) := by
  unfold Item.decode named
  split
  · rfl
  dsimp only
  generalize ((payload.drop 1).take (maxName + 1)).takeWhile (fun b => !isFlag b) = name
  cases ((payload.drop 1).take (maxName + 1)).drop name.length with
  | nil => rfl
  | cons flag behind => cases name <;> rfl

end Aprs
