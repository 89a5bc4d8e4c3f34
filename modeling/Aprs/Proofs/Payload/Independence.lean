import Aprs.Proofs.Packet.RoundTrip
import Aprs.Proofs.Payload.Widths

/-!
# What an information field means whenever it came in

Two readings of an information field may differ in the instant `now`, in the six characters of a
timestamp in front of its indicator, and in the destination. The first two matter for instants and for the
faults of timestamps, and for nothing else: they are set aside by `untimed`, and all else of one reading is
shown to be that of the other, decoder by decoder. A timestamp hands on the same place whether it is sound
or not (`Timestamp.decode_snd`), so what stands behind it is read alike. An object that is too short for its
parts is no exception, but as none of it is taken, its timestamp stands in the comment.

> `Payload.decode_independent`: all of an information field but its instants is independent of `now` and of
> the six characters, and the field is independent of the destination unless it is a Mic-E report.

Specification: 4.2 (Time Decoder) and 5 (Concurrency and Resource Model).
-/

namespace Aprs

variable {α : Type}

/-! ## Instants set aside -/

/-- The form of a timestamp, without its instant and its fault. -/
def Timestamp.untimed (t : Timestamp) : Timestamp := ⟨t.format, none, none⟩

/-- A position without the instant at which it was made. -/
def PositionReport.untimed (r : PositionReport α) : PositionReport α :=
  { r with position := { r.position with instant := .epoch } }

/-- A piece without the instants in it and the faults of its timestamp. -/
def Piece.untimed : Piece α → Piece α
  | .time t => .time t.untimed
  | .position r => .position r.untimed
  | .weather w => .weather w
  | .message m => .message m
  | .object o => .object { o with time := o.time.untimed, report := o.report.untimed }
  | .item i => .item { i with report := i.report.untimed }
  | .fault cause => .fault cause

namespace Pieces

/-- Pieces without the instants in them. -/
def untimed (pieces : Pieces α) : Pieces α := pieces.map fun (kind, piece) => (kind, piece.untimed)

/-- Instants are dropped piece by piece. -/
theorem untimed_put (kind : Kind) (piece : Piece α) (pieces : Pieces α) :
    (pieces.put kind piece).untimed = pieces.untimed.put kind piece.untimed := by
  induction pieces with
  | nil => rfl
  | cons first rest ih =>
    obtain ⟨k, p⟩ := first
    show untimed (put kind piece ((k, p) :: rest)) =
      put kind piece.untimed ((k, p.untimed) :: untimed rest)
    unfold put
    split
    · rfl
    split
    · rfl
    · exact congrArg (List.cons (k, p.untimed)) ih

theorem get?_untimed (kind : Kind) (pieces : Pieces α) :
    pieces.untimed.get? kind = (pieces.get? kind).map Piece.untimed := by
  induction pieces with
  | nil => rfl
  | cons first rest ih =>
    obtain ⟨k, p⟩ := first
    show List.lookup kind ((k, p.untimed) :: untimed rest) = (List.lookup kind ((k, p) :: rest)).map _
    rw [List.lookup_cons, List.lookup_cons]
    split
    · rfl
    · exact ih

end Pieces

/-! ## Positions read alike -/

variable [Scalar α] {raw raw' : Bytes} {start place : Nat} {destination : Callsign}
  {now now' instant instant' : Instant}

/-- A position that was read, without its instant, and the place behind it. -/
def PositionReport.untimedRead (read : PositionReport α × Nat) : PositionReport α × Nat :=
  (read.1.untimed, read.2)

/-- An uncompressed position depends on the octets from its start on, and its instant is nothing but handed
on. -/
theorem Uncompressed.decode_untimed (h : raw.drop start = raw'.drop start) :
    PositionReport.untimedRead (Uncompressed.decode (α := α) raw start instant) =
      PositionReport.untimedRead (Uncompressed.decode raw' start instant') := by
  have hbehind (k : Nat) : raw.drop (start + k) = raw'.drop (start + k) := by
    rw [← List.drop_drop, h, List.drop_drop]
  unfold Uncompressed.decode Extension.ofUncompressed?
  simp only [h, hbehind, Nat.add_assoc start]
  split
  · rfl
  split <;> rfl

/-- A compressed position depends on the octets from its start on. -/
theorem Compressed.decode_untimed (h : raw.drop start = raw'.drop start) :
    PositionReport.untimedRead (Compressed.decode (α := α) raw start instant) =
      PositionReport.untimedRead (Compressed.decode raw' start instant') := by
  have hbehind (k : Nat) : raw.drop (start + k) = raw'.drop (start + k) := by
    rw [← List.drop_drop, h, List.drop_drop]
  unfold Compressed.decode
  simp only [h, hbehind]
  split
  · rfl
  split
  · rfl
  split <;> rfl

/-- And so does the choice between the two. -/
theorem PositionReport.decodePlain_untimed (h : raw.drop start = raw'.drop start) :
    untimedRead (decodePlain (α := α) raw start instant) =
      untimedRead (decodePlain raw' start instant') := by
  have hfirst : raw[start]? = raw'[start]? := by
    have hhead := congrArg List.head? h
    rwa [List.head?_drop, List.head?_drop] at hhead
  unfold decodePlain
  rw [hfirst]
  split
  · rfl
  split
  · exact Compressed.decode_untimed h
  split
  · exact Uncompressed.decode_untimed h
  · rfl

/-- A Mic-E report is refused for one reason at any two instants, or read alike. -/
theorem MicE.read_untimed (raw call : Bytes) (instant instant' : Instant) :
    (∃ cause, MicE.read (α := α) raw call instant = .error cause ∧
      MicE.read (α := α) raw call instant' = .error cause) ∨
    (∃ read read', MicE.read (α := α) raw call instant = .ok read ∧
      MicE.read (α := α) raw call instant' = .ok read' ∧
      PositionReport.untimedRead read = PositionReport.untimedRead read') := by
  unfold MicE.read
  cases MicE.destination call with
  | error cause => exact Or.inl ⟨cause, rfl, rfl⟩
  | ok d =>
    dsimp only [bind, Except.bind]
    split
    · split
      · exact Or.inl ⟨_, rfl, rfl⟩
      · exact Or.inr ⟨_, _, rfl, rfl, rfl⟩
    · exact Or.inl ⟨_, rfl, rfl⟩

/-- A Mic-E report is handed its instant, and no more. -/
theorem MicE.decode_untimed :
    PositionReport.untimedRead (MicE.decode (α := α) raw destination instant) =
      PositionReport.untimedRead (MicE.decode raw destination instant') := by
  unfold MicE.decode
  rcases MicE.read_untimed (α := α) raw (Utf8.encode destination.call) instant instant' with
    ⟨cause, hread, hread'⟩ | ⟨read, read', hread, hread', hsame⟩
  · rw [hread, hread']
    rfl
  · rw [hread, hread']
    exact hsame

/-- A sentence of a receiver is handed its instant, and no more. -/
theorem Nmea.decode_untimed :
    PositionReport.untimedRead (Nmea.decode (α := α) raw instant) =
      PositionReport.untimedRead (Nmea.decode raw instant') := by
  unfold Nmea.decode
  split
  · rfl
  split <;> rfl

/-- A position is read alike at any two instants. -/
theorem PositionReport.decode_untimed :
    untimedRead (PositionReport.decode (α := α) raw start destination instant) =
      untimedRead (PositionReport.decode raw start destination instant') := by
  unfold PositionReport.decode
  split
  · split
    · exact MicE.decode_untimed
    split
    · exact Nmea.decode_untimed
    · exact decodePlain_untimed rfl
  · exact decodePlain_untimed rfl

/-! ## Fields that differ in the six characters of a timestamp -/

/-- Two fields of one length that differ at most in the six characters of a timestamp at a place. -/
structure AgreeOutside (place : Nat) (raw raw' : Bytes) : Prop where
  length : raw.length = raw'.length
  front : raw.take place = raw'.take place
  back : raw.drop (place + 6) = raw'.drop (place + 6)

namespace AgreeOutside

theorem refl (place : Nat) (raw : Bytes) : AgreeOutside place raw raw := ⟨rfl, rfl, rfl⟩

/-- Octets that agree outside a timestamp agree in front of it. -/
theorem getElem? (h : AgreeOutside place raw raw') {i : Nat} (hi : i < place) : raw[i]? = raw'[i]? := by
  rw [← List.getElem?_take_of_lt hi, h.front, List.getElem?_take_of_lt hi]

/-- They agree behind it. -/
theorem drop (h : AgreeOutside place raw raw') (hstart : place + 6 ≤ start) :
    raw.drop start = raw'.drop start := by
  obtain ⟨k, rfl⟩ := Nat.exists_eq_add_of_le hstart
  rw [← List.drop_drop, h.back, List.drop_drop]

/-- They have the same identifier if the timestamp is not in front. -/
theorem letter (h : AgreeOutside place raw raw') (hplace : 0 < place) :
    Payload.letter raw = Payload.letter raw' := by
  unfold Payload.letter
  rw [List.headD_eq_head?_getD, List.headD_eq_head?_getD, List.head?_eq_getElem?,
    List.head?_eq_getElem?, h.getElem? hplace]

/-- A timestamp at the place has the same form, and the place behind it is the same. -/
theorem timestamp (h : AgreeOutside place raw raw') (now now' : Instant) :
    (Timestamp.decode raw place now).1.untimed = (Timestamp.decode raw' place now').1.untimed ∧
      (Timestamp.decode raw place now).2 = (Timestamp.decode raw' place now').2 := by
  have hindicator : raw[place + 6]? = raw'[place + 6]? := by
    rw [← List.head?_drop, h.back, List.head?_drop]
  constructor
  · unfold Timestamp.untimed
    rw [Timestamp.decode_format, Timestamp.decode_format, hindicator]
  · rw [Timestamp.decode_snd, Timestamp.decode_snd, hindicator, h.length]

/-- Behind a timestamp at the place there stands the same. -/
theorem behind (h : AgreeOutside place raw raw') (now : Instant)
    (hstart : (Timestamp.decode raw place now).2 ≤ start) : raw.drop start = raw'.drop start := by
  rw [Timestamp.decode_snd] at hstart
  by_cases hend : start < raw.length
  · exact h.drop (by split at hstart <;> omega)
  · rw [List.drop_eq_nil_of_le (Nat.not_lt.mp hend),
      List.drop_eq_nil_of_le (h.length ▸ Nat.not_lt.mp hend)]

end AgreeOutside

/-! ## Contents read alike -/

/-- A weather report is the same in fields of one length with the same octets from its place on. -/
theorem Weather.decode_congr (hlength : raw.length = raw'.length)
    (h : raw.drop start = raw'.drop start) : Weather.decode raw start = Weather.decode raw' start := by
  unfold Weather.decode
  rw [h, hlength]

namespace Payload

/-- Contents without the instants in their pieces. -/
def Contents.untimed (c : Contents α) : Contents α := { c with pieces := Pieces.untimed c.pieces }

omit [Scalar α] in
/-- The weather report behind positions that were read alike is the same. -/
theorem addWeather_untimed {read read' : PositionReport α × Nat} {pieces pieces' : Pieces α}
    (hlength : raw.length = raw'.length) (hbehind : raw.drop read.2 = raw'.drop read.2)
    (hread : PositionReport.untimedRead read = PositionReport.untimedRead read')
    (hpieces : Pieces.untimed pieces = Pieces.untimed pieces') :
    Pieces.untimed (addWeather raw read.1 read.2 pieces).1 =
        Pieces.untimed (addWeather raw' read'.1 read'.2 pieces').1 ∧
      (addWeather raw read.1 read.2 pieces).2 = (addWeather raw' read'.1 read'.2 pieces').2 := by
  obtain ⟨report, cursor⟩ := read
  obtain ⟨report', cursor'⟩ := read'
  obtain ⟨hreport, rfl⟩ : report.untimed = report'.untimed ∧ cursor = cursor' := Prod.mk.inj hread
  have hweather : Weather.decode raw cursor = Weather.decode raw' cursor :=
    Weather.decode_congr hlength hbehind
  have hfault : report.fault = report'.fault :=
    show report.untimed.fault = report'.untimed.fault by rw [hreport]
  have hcode : report.position.code = report'.position.code :=
    show report.untimed.position.code = report'.untimed.position.code by rw [hreport]
  have hsame : OfWeatherStation report ↔ OfWeatherStation report' := by
    unfold OfWeatherStation
    rw [hfault, hcode]
  by_cases hstation : OfWeatherStation report
  · rw [addWeather_of_station hstation, addWeather_of_station (hsame.mp hstation), hweather]
    refine ⟨?_, rfl⟩
    rw [Pieces.untimed_put, Pieces.untimed_put, hpieces]
  · rw [addWeather_of_not_station hstation, addWeather_of_not_station (mt hsame.mpr hstation)]
    exact ⟨hpieces, rfl⟩

omit [Scalar α] in
/-- Pieces that are alike stay so when alike pieces are put among them. -/
theorem put_untimed (kind pieceKind : Kind) {piece piece' : Piece α} {added added' : Pieces α × Nat}
    (hpiece : piece.untimed = piece'.untimed)
    (hadded : Pieces.untimed added.1 = Pieces.untimed added'.1) (hplace : added.2 = added'.2) :
    Contents.untimed ⟨kind, added.1.put pieceKind piece, added.2⟩ =
      Contents.untimed ⟨kind, added'.1.put pieceKind piece', added'.2⟩ := by
  unfold Contents.untimed
  dsimp only
  rw [Pieces.untimed_put, Pieces.untimed_put, hpiece, hadded, hplace]

/-- The contents with a position, of which it is told whether there is a weather report among them. -/
def withPosition (report : PositionReport α) (added : Pieces α × Nat) : Contents α :=
  ⟨if (added.1.get? .weather).isSome then .weather else .position,
    added.1.put .position (.position report), added.2⟩

omit [Scalar α] in
/-- What is put together of a position and the weather behind it is the same up to instants, if its parts
are. -/
theorem withPosition_untimed {report report' : PositionReport α} {added added' : Pieces α × Nat}
    (hreport : report.untimed = report'.untimed)
    (hadded : Pieces.untimed added.1 = Pieces.untimed added'.1) (hplace : added.2 = added'.2) :
    (withPosition report added).untimed = (withPosition report' added').untimed := by
  have hweather : (added.1.get? .weather).isSome = (added'.1.get? .weather).isSome := by
    have hget := congrArg (fun p => (Pieces.get? .weather p).isSome) hadded
    simpa only [Pieces.get?_untimed, Option.isSome_map] using hget
  unfold withPosition
  rw [hweather]
  exact put_untimed _ .position (congrArg Piece.position hreport) hadded hplace

/-- The contents of a position are its report and the weather behind it. -/
theorem positionContents_eq (pieces : Pieces α) :
    positionContents raw destination instant pieces start =
      withPosition (PositionReport.decode raw start destination instant).1
        (addWeather raw (PositionReport.decode raw start destination instant).1
          (PositionReport.decode (α := α) raw start destination instant).2 pieces) := rfl

/-- Positions that were read alike, in front of the same octets, give contents that differ in instants
alone. -/
theorem positionContents_untimed {pieces pieces' : Pieces α} (hlength : raw.length = raw'.length)
    (hbehind : raw.drop (PositionReport.decode (α := α) raw start destination instant).2 =
      raw'.drop (PositionReport.decode (α := α) raw start destination instant).2)
    (hread : PositionReport.untimedRead (PositionReport.decode (α := α) raw start destination instant) =
      PositionReport.untimedRead (PositionReport.decode raw' place destination instant'))
    (hpieces : Pieces.untimed pieces = Pieces.untimed pieces') :
    (positionContents raw destination instant pieces start).untimed =
      (positionContents raw' destination instant' pieces' place).untimed := by
  obtain ⟨hadded, hplace⟩ := addWeather_untimed hlength hbehind hread hpieces
  rw [positionContents_eq, positionContents_eq]
  exact withPosition_untimed (congrArg Prod.fst hread) hadded hplace

/-! ## Ways of decoding, twice -/

omit [Scalar α] in
/-- Weather moves the cursor forwards only. -/
theorem le_addWeather_snd {cursor : Nat} (h : cursor ≤ raw.length) (report : PositionReport α)
    (pieces : Pieces α) : cursor ≤ (addWeather raw report cursor pieces).2 := by
  by_cases hstation : OfWeatherStation report
  · rw [addWeather_of_station hstation]
    exact Weather.le_decode_snd h
  · exact Nat.le_of_eq (congrArg Prod.snd (addWeather_of_not_station hstation raw cursor pieces)).symm

/-- A position in a plain field is read alike where the same octets stand behind. -/
theorem Plain.decode_untimed (hplain : Plain raw) (hletter : letter raw = letter raw')
    (h : raw.drop start = raw'.drop start) :
    PositionReport.untimedRead (PositionReport.decode (α := α) raw start destination instant) =
      PositionReport.untimedRead (PositionReport.decode raw' start destination instant') := by
  have hplain' : Plain raw' := show letter raw' ∉ _ from hletter ▸ hplain
  rw [hplain.decode_eq, hplain'.decode_eq]
  exact PositionReport.decodePlain_untimed h

/-- A position in a plain field ends no earlier than where it was looked for. -/
theorem Plain.le_decode_snd (hplain : Plain raw) (start : Nat) (destination : Callsign)
    (instant : Instant) :
    start ≤ (PositionReport.decode (α := α) raw start destination instant).2 := by
  rw [(PositionReport.decode_accounted (Or.inr hplain)).place]
  exact Nat.le_add_right _ _

/-- **Behind the identifier of a timed position, the timestamp decides on instants only.** -/
theorem timedPosition_untimed (h : AgreeOutside 1 raw raw') (hplain : Plain raw) :
    (timedPosition (α := α) raw destination now).untimed =
      (timedPosition raw' destination now').untimed := by
  obtain ⟨htime, hcursor⟩ := h.timestamp now now'
  have hbehind : raw.drop (Timestamp.decode raw 1 now).2 = raw'.drop (Timestamp.decode raw 1 now).2 :=
    h.behind now (Nat.le_refl _)
  unfold timedPosition
  dsimp only
  rw [← hcursor]
  refine positionContents_untimed h.length (h.behind now (hplain.le_decode_snd _ _ _))
    (hplain.decode_untimed (h.letter (Nat.le_refl 1)) hbehind) ?_
  exact congrArg (fun t => [(Kind.timestamp, Piece.time t)]) htime

omit [Scalar α] in
/-- So it does in a report of weather without a position. -/
theorem weatherContents_untimed (h : AgreeOutside 1 raw raw') :
    (weatherContents (α := α) raw now).untimed = (weatherContents raw' now').untimed := by
  obtain ⟨htime, hcursor⟩ := h.timestamp now now'
  have hweather : Weather.decode raw (Timestamp.decode raw 1 now).2 =
      Weather.decode raw' (Timestamp.decode raw 1 now).2 :=
    Weather.decode_congr h.length (h.behind now (Nat.le_refl _))
  unfold weatherContents Contents.untimed
  dsimp only
  rw [← hcursor, ← hweather]
  exact congrArg (fun t => Contents.mk .weather [(Kind.timestamp, Piece.time t), _] _) htime

/-- So it does in an object, where it stands behind the name and the flag. -/
theorem objectContents_untimed (h : AgreeOutside 11 raw raw') (hplain : Plain raw) :
    (objectContents (α := α) raw destination now).untimed =
      (objectContents raw' destination now').untimed := by
  by_cases hlength : Object.minLength ≤ raw.length
  · obtain ⟨htime, hcursor⟩ := h.timestamp now now'
    have hbehind : raw.drop (Timestamp.decode raw 11 now).2 =
        raw'.drop (Timestamp.decode raw 11 now).2 := h.behind now (Nat.le_refl _)
    have hname : (raw.drop 1).take 9 = (raw'.drop 1).take 9 := by
      have hfront : ((raw.take 11).drop 1).take 9 = ((raw'.take 11).drop 1).take 9 := by rw [h.front]
      rw [List.drop_take, List.drop_take, List.take_take, List.take_take] at hfront
      exact hfront
    have hflag : raw.getD 10 0 = raw'.getD 10 0 := by
      rw [List.getD_eq_getElem?_getD, List.getD_eq_getElem?_getD, h.getElem? (by decide)]
    rw [objectContents_eq hlength, objectContents_eq (h.length ▸ hlength)]
    dsimp only
    rw [← hcursor, ← hname, ← hflag]
    have hread : PositionReport.untimedRead (PositionReport.decode (α := α) raw
          (Timestamp.decode raw 11 now).2 destination ((Timestamp.decode raw 11 now).1.generated now)) =
        PositionReport.untimedRead (PositionReport.decode raw' (Timestamp.decode raw 11 now).2
          destination ((Timestamp.decode raw' 11 now').1.generated now')) :=
      hplain.decode_untimed (h.letter (by decide)) hbehind
    have hrest := h.behind now (hplain.le_decode_snd (α := α) _ destination
      ((Timestamp.decode raw 11 now).1.generated now))
    obtain ⟨hadded, hplace⟩ := addWeather_untimed h.length hrest hread
      (rfl : Pieces.untimed [] = Pieces.untimed [])
    obtain ⟨hreport, -⟩ := Prod.mk.inj hread
    refine put_untimed .object .object ?_ hadded hplace
    unfold Piece.untimed
    dsimp only
    rw [htime, hreport]
  · have hshort : raw.length < Object.minLength := Nat.not_le.mp hlength
    rw [objectContents_eq_broken hshort, objectContents_eq_broken (h.length ▸ hshort), h.length]

/-- An item has no timestamp; its instant is that of its receipt. -/
theorem itemContents_untimed :
    (itemContents (α := α) raw destination now).untimed =
      (itemContents raw destination now').untimed := by
  unfold itemContents
  rw [Item.decode_eq, Item.decode_eq]
  cases Item.named raw with
  | error cause => rfl
  | ok named =>
    obtain ⟨name, live⟩ := named
    have hread : PositionReport.untimedRead
        (PositionReport.decode (α := α) raw (name.length + 2) destination now) =
        PositionReport.untimedRead (PositionReport.decode raw (name.length + 2) destination now') :=
      PositionReport.decode_untimed
    obtain ⟨hadded, hplace⟩ := addWeather_untimed rfl rfl hread
      (rfl : Pieces.untimed [] = Pieces.untimed [])
    refine put_untimed .item .item ?_ hadded hplace
    exact congrArg (fun r => Piece.item ⟨Utf8.lossy name, live, r⟩) (congrArg Prod.fst hread)

/-! ## The cursor behind a timestamp -/

/-- The cursor does not go back in front of the position. -/
theorem le_positionContents_cursor (hplain : Plain raw) (hstart : IsCursor raw start)
    (pieces : Pieces α) :
    start ≤ (positionContents raw destination instant pieces start).cursor := by
  refine Nat.le_trans (hplain.le_decode_snd (α := α) start destination instant) ?_
  exact le_addWeather_snd (PositionReport.decode_isCursor hstart destination instant).2 _ pieces

/-- The comment of an object is behind its timestamp. -/
theorem le_objectContents_cursor (hplain : Plain raw) (hlength : Object.minLength ≤ raw.length) :
    (Timestamp.decode raw 11 now).2 ≤ (objectContents (α := α) raw destination now).cursor := by
  have hstart : IsCursor raw 11 := ⟨by decide, Nat.le_trans (by decide) hlength⟩
  have htime := Timestamp.decode_isCursor hstart now
  let instant := (Timestamp.decode raw 11 now).1.generated now
  rw [objectContents_eq hlength]
  refine Nat.le_trans (hplain.le_decode_snd (α := α) _ destination instant) ?_
  exact le_addWeather_snd (PositionReport.decode_isCursor htime destination instant).2 _ []

/-! ## Fields with a timestamp -/

theorem exists_cons_of_letter {c : Char} (h : letter raw = c) (hc : c ≠ letter []) :
    ∃ rest, raw = UInt8.ofNat c.toNat :: rest := by
  cases raw with
  | nil => exact absurd h.symm hc
  | cons identifier rest => exact ⟨rest, congrArg (· :: rest) (Utf8.eq_ofNat_of_charOfByte h)⟩

theorem contents_of_slash (h : letter raw ∈ ['/', '@']) :
    contents (α := α) raw destination now = timedPosition raw destination now := by
  rcases List.mem_cons.mp h with h | h
  · obtain ⟨rest, rfl⟩ := exists_cons_of_letter h (by decide)
    rfl
  · obtain ⟨rest, rfl⟩ := exists_cons_of_letter (List.mem_singleton.mp h) (by decide)
    rfl

theorem contents_of_semicolon (h : letter raw = ';') :
    contents (α := α) raw destination now = objectContents raw destination now := by
  obtain ⟨rest, rfl⟩ := exists_cons_of_letter h (by decide)
  rfl

theorem contents_of_underscore (h : letter raw = '_') :
    contents (α := α) raw destination now = weatherContents raw now := by
  obtain ⟨rest, rfl⟩ := exists_cons_of_letter h (by decide)
  rfl

/-- The place of the timestamp in a field that has one. -/
def timePlace (raw : Bytes) : Nat := if letter raw = ';' then 11 else 1

/-- Of a field with a timestamp all but the instants is independent of the six characters. They are not left
for the comment either, unless the field is too short for an object. -/
theorem contents_untimed_of_agree (hletter : letter raw ∈ ['/', '@', '_', ';'])
    (h : AgreeOutside (timePlace raw) raw raw') (destination : Callsign) (now now' : Instant) :
    (contents (α := α) raw destination now).untimed = (contents raw' destination now').untimed ∧
      ((letter raw = ';' → Object.minLength ≤ raw.length) →
        raw.drop (contents (α := α) raw destination now).cursor =
          raw'.drop (contents (α := α) raw destination now).cursor) := by
  have hplain : Plain raw := plain_of_letter hletter (by simp)
  have hcases : ∀ c ∈ ['/', '@', '_', ';'], c ∈ ['/', '@'] ∧ c ≠ ';' ∨ c = '_' ∨ c = ';' := by
    simp
  have hone (hother : letter raw ≠ ';') : timePlace raw = 1 := if_neg hother
  rcases hcases _ hletter with ⟨hslash, hother⟩ | hunderscore | hsemicolon
  · rw [hone hother] at h
    have hsame := h.letter (by decide)
    have hstart : IsCursor raw 1 := IsCursor.one (ne_nil_of_letter hslash (by decide))
    rw [contents_of_slash hslash, contents_of_slash (hsame ▸ hslash)]
    exact ⟨timedPosition_untimed h hplain, fun _ => h.behind now
      (le_positionContents_cursor hplain (Timestamp.decode_isCursor hstart now) _)⟩
  · rw [hone (by rw [hunderscore]; decide)] at h
    have hsame := h.letter (by decide)
    have hstart : IsCursor raw 1 := IsCursor.one (ne_nil_of_letter hletter (by decide))
    rw [contents_of_underscore hunderscore, contents_of_underscore (hsame ▸ hunderscore)]
    exact ⟨weatherContents_untimed h, fun _ => h.behind now
      (Weather.le_decode_snd (Timestamp.decode_isCursor hstart now).2)⟩
  · rw [show timePlace raw = 11 from if_pos hsemicolon] at h
    have hsame := h.letter (by decide)
    rw [contents_of_semicolon hsemicolon, contents_of_semicolon (hsame ▸ hsemicolon)]
    exact ⟨objectContents_untimed h hplain, fun hlong => h.behind now
      (le_objectContents_cursor hplain (hlong hsemicolon))⟩

/-- Of any field all but the instants is independent of the instant at which it came in. -/
theorem contents_untimed (raw : Bytes) (destination : Callsign) :
    ∀ now now', (contents (α := α) raw destination now).untimed =
      (contents raw destination now').untimed := by
  refine contents_cases (motive := fun f => ∀ now now', (f now).untimed = (f now').untimed) raw destination
    ?timed ?plain ?message ?object ?item ?weather ?none ?fault
  case timed =>
    exact fun hletter _ _ =>
      timedPosition_untimed (AgreeOutside.refl 1 raw) (plain_of_letter hletter (by simp))
  case plain => exact fun _ _ now now' => positionContents_untimed rfl rfl PositionReport.decode_untimed rfl
  case message => exact fun _ _ _ => rfl
  case object =>
    exact fun hletter _ _ => objectContents_untimed (AgreeOutside.refl 11 raw)
      (plain_of_letter (List.mem_singleton.mpr hletter) (by simp))
  case item => exact fun _ now now' => itemContents_untimed
  case weather => exact fun _ now now' => weatherContents_untimed (AgreeOutside.refl 1 raw)
  case none => exact fun _ _ _ _ => rfl
  case fault => exact fun _ _ _ _ _ _ _ => rfl

/-! ## The information field -/

/-- A field without the instants in its pieces and the faults of its timestamp. -/
def untimed (p : Payload α) : Payload α := { p with pieces := Pieces.untimed p.pieces }

/-- Two fields have the same kind, cursor and pieces but for the instants in these and the faults of
timestamps. -/
structure SameButInstants (p q : Payload α) : Prop where
  kind : p.kind = q.kind
  cursor : p.cursor = q.cursor
  pieces : Pieces.untimed p.pieces = Pieces.untimed q.pieces

/-- An object that is too short leaves all behind its identifier for the comment. -/
theorem comment_of_short_object (hletter : letter raw = ';')
    (hshort : raw.length < Object.minLength) :
    (decode (α := α) raw destination now).comment = Utf8.lossy (raw.drop 1) := by
  unfold decode
  rw [contents_of_semicolon hletter, objectContents_eq_broken hshort]
  rfl

/-- **What an information field means is independent of what should not matter.** (1) Where a field has a
timestamp, the six characters in front of its indicator and `now` matter for nothing but instants and the
faults of timestamps, and for the comment only if they are part of it, in an object too short to be one.
(2) In no field does `now` matter for anything else. (3) The destination matters in Mic-E reports alone. -/
theorem decode_independent (raw : Bytes) (destination : Callsign) (now : Instant) :
    (∀ raw' now', letter raw ∈ ['/', '@', '_', ';'] → AgreeOutside (timePlace raw) raw raw' →
      SameButInstants (decode (α := α) raw destination now) (decode raw' destination now') ∧
        ((letter raw = ';' → Object.minLength ≤ raw.length) →
          (decode (α := α) raw destination now).comment =
            (decode (α := α) raw' destination now').comment)) ∧
    (∀ now', (decode (α := α) raw destination now).untimed = (decode raw destination now').untimed) ∧
    (∀ destination', letter raw ∉ ['\x60', '\x27'] →
      decode (α := α) raw destination now = decode raw destination' now) := by
  refine ⟨fun raw' now' hletter h => ?characters, fun now' => ?instant,
    fun destination' h => ?destination⟩
  case characters =>
    obtain ⟨hsame, hbehind⟩ :=
      contents_untimed_of_agree (α := α) hletter h destination now now'
    obtain ⟨hkind, hpieces, hcursor⟩ := Contents.mk.inj hsame
    refine ⟨⟨hkind, hcursor, hpieces⟩, fun hlong => ?_⟩
    show Utf8.lossy (raw.drop (contents (α := α) raw destination now).cursor) =
      Utf8.lossy (raw'.drop (contents (α := α) raw' destination now').cursor)
    rw [← hcursor, hbehind hlong]
  case instant =>
    obtain ⟨hkind, hpieces, hcursor⟩ :=
      Contents.mk.inj (contents_untimed (α := α) raw destination now now')
    unfold decode untimed
    dsimp only
    rw [hkind, hpieces, hcursor]
  case destination =>
    have hother (b : UInt8) (hb : charOfByte b ∈ ['\x60', '\x27']) : raw.headD 0 ≠ b := by
      rintro rfl
      exact h hb
    exact decode_congr (Or.inr ⟨hother 0x60 (by decide), hother 0x27 (by decide)⟩)

/-- An object whose time is no time at all, at another instant and with the destination of a Mic-E report. -/
theorem decode_independent_object :
    let raw := Utf8.encode ";LEADER   *092345z4903.50N/07201.75W>088/036".toList
    let raw' := Utf8.encode ";LEADER   *??????z4903.50N/07201.75W>088/036".toList
    let later : Instant := ⟨⟨2024, 2, 29, by decide⟩, 12, 0, 0, by decide⟩
    let payload : Payload Exact := decode raw (Callsign.parse "APRS".toList) .epoch
    (letter raw ∈ ['/', '@', '_', ';'] ∧ AgreeOutside (timePlace raw) raw raw' ∧
        Object.minLength ≤ raw.length ∧ letter raw ∉ ['\x60', '\x27']) ∧
      SameButInstants payload (decode raw' (Callsign.parse "APRS".toList) later) ∧
      payload.comment = (decode (α := Exact) raw' (Callsign.parse "APRS".toList) later).comment ∧
      payload.untimed = (decode raw (Callsign.parse "APRS".toList) later).untimed ∧
      payload = decode raw (Callsign.parse "S32U6T".toList) .epoch := by
  intro raw raw' later payload
  have hletter : letter raw ∈ ['/', '@', '_', ';'] := by decide
  have hagree : AgreeOutside (timePlace raw) raw raw' := ⟨by decide, by decide, by decide⟩
  have hlong : Object.minLength ≤ raw.length := by decide
  have hother : letter raw ∉ ['\x60', '\x27'] := by decide
  obtain ⟨hcharacters, hinstant, hdestination⟩ :=
    decode_independent (α := Exact) raw (Callsign.parse "APRS".toList) .epoch
  obtain ⟨hsame, hcomment⟩ := hcharacters raw' later hletter hagree
  exact ⟨⟨hletter, hagree, hlong, hother⟩, hsame, hcomment fun _ => hlong, hinstant later,
    hdestination _ hother⟩

/-- The six characters of an object that is too short are part of the comment. -/
theorem comment_of_short_object_differs :
    let raw := Utf8.encode ";LEADER   *092345z".toList
    let raw' := Utf8.encode ";LEADER   *092346z".toList
    letter raw = ';' ∧ AgreeOutside (timePlace raw) raw raw' ∧
      (decode (α := Exact) raw (Callsign.parse "APRS".toList) .epoch).comment ≠
        (decode (α := Exact) raw' (Callsign.parse "APRS".toList) .epoch).comment := by
  intro raw raw'
  refine ⟨by decide, ⟨by decide, by decide, by decide⟩, ?_⟩
  rw [comment_of_short_object (by decide) (by decide), comment_of_short_object (by decide) (by decide)]
  decide +kernel

end Payload

end Aprs
