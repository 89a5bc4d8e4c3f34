import Aprs.Proofs.Cursor
import Aprs.Proofs.Payload.Contents
import Aprs.Proofs.Timestamp
import Aprs.Scalar.Exact

/-!
# Every octet in front of the comment is accounted for

An information field with a position is a header, the position, the weather report of a weather
station, and the comment. How wide each is can be told from the field and from what was decoded: what is
reported beside a position was taken from the field, and what was taken is reported. A position that
could not be read gives back all it looked at (`PositionReport.Accounted`).

> `Payload.decode_widths`: the cursor of a field with a position is the width of its header, its
> position and its weather report; a faulty position has nothing beside it.

Specification: 3 (Data Model) and 8 (Testable Properties).
-/

namespace Aprs

variable {α : Type}

/-! ## The width of a position -/

namespace PositionReport

/-- How many octets a position took from a field, by its encoding and what was found beside it. A
sentence of a receiver is all there is behind the identifier. -/
def width (raw : Bytes) (r : PositionReport α) : Nat :=
  if r.fault.isSome then 0
  else
    match r.source with
    | .uncompressed => 19 + if r.extension.isSome then 7 else 0
    | .compressed => 13
    | .micE =>
      8 + (if raw[9]?.any MicE.isDeviceType then 1 else 0) +
        if r.position.altitude.isSome then 4 else 0
    | .nmea => raw.length - 1

/-- A position with nothing beside it. -/
structure Bare (r : PositionReport α) : Prop where
  extension : r.extension = none
  status : r.status = none
  altitude : r.position.altitude = none

/-- A position was read from a place on as wide as it is, and if it is faulty, has nothing beside it. -/
structure Accounted (raw : Bytes) (start : Nat) (read : PositionReport α × Nat) : Prop where
  place : read.2 = start + read.1.width raw
  bare : read.1.fault ≠ none → read.1.Bare

variable [Scalar α] {raw : Bytes} {start : Nat} {destination : Callsign} {instant : Instant}

/-- A position that is not read takes no octets. -/
theorem failed_accounted (source : PositionSource) (fault : Position.Fault) :
    Accounted (α := α) raw start (failed start source instant fault) :=
  ⟨rfl, fun _ => ⟨rfl, rfl, rfl⟩⟩

omit [Scalar α] in
/-- A report without a fault has nothing to give back. -/
theorem accounted_of_sound {r : PositionReport α} {cursor : Nat} (hsound : r.fault = none)
    (hplace : cursor = start + r.width raw) : Accounted raw start (r, cursor) :=
  ⟨hplace, fun h => absurd hsound h⟩

end PositionReport

section

open PositionReport

variable [Scalar α] {raw : Bytes} {start : Nat} {destination : Callsign} {instant : Instant}

/-- An uncompressed position takes nineteen octets and its extension. -/
theorem Uncompressed.decode_accounted :
    Accounted (α := α) raw start (Uncompressed.decode raw start instant) := by
  unfold Uncompressed.decode
  dsimp only
  split
  · exact failed_accounted _ _
  split
  · exact ⟨rfl, fun _ => ⟨rfl, rfl, rfl⟩⟩
  · exact accounted_of_sound rfl (Nat.add_assoc _ _ _)

/-- A compressed position takes thirteen. -/
theorem Compressed.decode_accounted :
    Accounted (α := α) raw start (Compressed.decode raw start instant) := by
  unfold Compressed.decode
  dsimp only
  split
  · exact failed_accounted _ _
  split
  · exact failed_accounted _ _
  split
  · exact accounted_of_sound rfl rfl
  · exact failed_accounted _ _

/-- Either plain form is accounted for. -/
theorem PositionReport.decodePlain_accounted :
    Accounted (α := α) raw start (decodePlain raw start instant) := by
  unfold decodePlain
  split
  · exact failed_accounted _ _
  split
  · exact Compressed.decode_accounted
  split
  · exact Uncompressed.decode_accounted
  · exact failed_accounted _ _

/-- A sentence takes all of its octets. -/
theorem Nmea.decode_accounted : Accounted (α := α) raw 1 (Nmea.decode raw instant) := by
  unfold Nmea.decode
  split
  · exact failed_accounted _ _
  next hlength =>
  split
  · exact failed_accounted _ _
  · have hminimum : minLength = 11 := rfl
    refine accounted_of_sound rfl ?_
    show raw.length = 1 + (raw.length - 1)
    omega

/-- A Mic-E report takes nine octets, one for the device and four for an altitude if they are there. -/
theorem MicE.read_accounted {call : Bytes} {read : PositionReport α × Nat}
    (h : MicE.read raw call instant = .ok read) : Accounted raw 1 read := by
  unfold MicE.read at h
  cases hd : MicE.destination call with
  | error cause =>
    rw [hd] at h
    exact nomatch h
  | ok d =>
    rw [hd] at h
    dsimp only [bind, Except.bind] at h
    split at h
    · next kind deg min hun sp dc se code table rest =>
      split at h
      · exact nomatch h
      · cases Except.ok.inj h
        refine accounted_of_sound rfl ?_
        have hhead : (kind :: deg :: min :: hun :: sp :: dc :: se :: code :: table :: rest)[9]? =
            rest.head? := List.head?_eq_getElem?.symm
        show 9 + _ + _ = 1 + (8 + _ + _)
        rw [hhead, Nat.add_assoc 8, ← Nat.add_assoc 1]
        exact Nat.add_assoc 9 _ _
    · exact nomatch h

theorem MicE.decode_accounted :
    Accounted (α := α) raw 1 (MicE.decode raw destination instant) := by
  unfold MicE.decode
  split
  · next hread => exact MicE.read_accounted hread
  · exact failed_accounted _ _

/-- **A position takes as many octets as it is wide**, and a faulty one has nothing beside it. The reports
whose identifier tells their encoding begin behind it. -/
theorem PositionReport.decode_accounted (h : start = 1 ∨ Payload.Plain raw) :
    Accounted (α := α) raw start (PositionReport.decode raw start destination instant) := by
  rcases h with rfl | h
  · unfold PositionReport.decode
    split
    · split
      · exact MicE.decode_accounted
      split
      · exact Nmea.decode_accounted
      · exact decodePlain_accounted
    · exact decodePlain_accounted
  · rw [h.decode_eq]
    exact decodePlain_accounted

end

/-! ## The width of an information field -/

namespace Payload

/-- How many octets stand in front of the position: the identifier, and behind it the timestamp, or the name
and the flag. A timestamp of eight octets has a digit in the place of its indicator. -/
def header (raw : Bytes) : Nat :=
  if letter raw = '/' ∨ letter raw = '@' then
    min (if raw[7]?.any Decimal.isDigit then 9 else 8) raw.length
  else if letter raw = ';' then if raw[17]?.any Decimal.isDigit then 19 else 18
  else if letter raw = ')' then (Item.nameOctets raw).length + 2
  else 1

/-- How many octets the weather report behind a position takes: none unless the position is sound and
that of a weather station. -/
def weatherWidth (raw : Bytes) (r : PositionReport α) (place : Nat) : Nat :=
  if r.fault = none ∧ r.position.code = '_' then (Weather.decode raw place).2 - place else 0

/-- Everything in front of the cursor is the header, a position or the weather report behind it, and a
faulty position has nothing beside it. -/
structure Accounts (raw : Bytes) (cursor : Nat) (r : PositionReport α) : Prop where
  place : cursor = header raw + r.width raw + weatherWidth raw r (header raw + r.width raw)
  bare : r.fault ≠ none → r.Bare

variable [Scalar α] {raw : Bytes} {cursor : Nat} {destination : Callsign} {now : Instant}

omit [Scalar α] in
/-- What stands behind the header and a position is the weather report of a weather station. -/
theorem addWeather_accounts {report : PositionReport α} (hcursor : IsCursor raw cursor)
    (h : PositionReport.Accounted raw (header raw) (report, cursor)) (pieces : Pieces α) :
    Accounts raw (addWeather raw report cursor pieces).2 report := by
  obtain ⟨hplace, hbare⟩ := h
  have hplace : cursor = header raw + report.width raw := hplace
  refine ⟨?_, hbare⟩
  rw [← hplace]
  unfold weatherWidth
  by_cases hweather : report.fault = none ∧ report.position.code = '_'
  · have hstation : OfWeatherStation report := hweather
    rw [addWeather_of_station hstation, if_pos hweather]
    exact (Nat.add_sub_of_le (Weather.le_decode_snd hcursor.2)).symm
  · have hstation : ¬OfWeatherStation report := hweather
    rw [addWeather_of_not_station hstation, if_neg hweather]
    rfl

omit [Scalar α] in
/-- A weather report adds no position. -/
theorem mem_of_mem_addWeather {report report' : PositionReport α} {pieces : Pieces α}
    {entry : Kind × Piece α} (hentry : entry ∈ (addWeather raw report cursor pieces).1)
    (hreport : entry.2.positionReport? = some report') : entry ∈ pieces := by
  rcases mem_addWeather hentry with ⟨w, hweather⟩ | hentry
  · rw [hweather] at hreport
    exact nomatch hreport
  · exact hentry

/-- The positions of contents are accounted for, and an item is named by the octets in front of its flag. -/
def Contents.Accounted (raw : Bytes) (c : Contents α) : Prop :=
  ∀ entry ∈ c.pieces, ∀ report, entry.2.positionReport? = some report →
    Accounts raw c.cursor report ∧
      ∀ item, entry.2 = .item item → item.name = Utf8.lossy (Item.nameOctets raw)

/-- **The octets behind the header are those of the position and of the weather.** -/
theorem positionContents_accounted {start : Nat} {pieces : Pieces α} {instant : Instant}
    (hstart : IsCursor raw start) (hheader : header raw = start)
    (hplain : start = 1 ∨ Plain raw)
    (hpieces : ∀ entry ∈ pieces, entry.2.positionReport? = none) :
    (positionContents raw destination instant pieces start).Accounted raw := by
  intro entry hentry report hreport
  rcases Pieces.mem_put hentry with rfl | hentry
  · cases Option.some.inj hreport
    have hposition : PositionReport.Accounted (α := α) raw start
        (PositionReport.decode raw start destination instant) :=
      PositionReport.decode_accounted hplain
    rw [← hheader] at hposition hstart ⊢
    exact ⟨addWeather_accounts (PositionReport.decode_isCursor hstart destination instant) hposition
      pieces, fun _ hitem => nomatch hitem⟩
  · have hnone := hpieces entry (mem_of_mem_addWeather hentry hreport)
    rw [hnone] at hreport
    exact nomatch hreport

omit [Scalar α] in
/-- Contents without a position have nothing to account for. -/
theorem accounted_of_no_position {c : Contents α}
    (h : ∀ entry ∈ c.pieces, entry.2.positionReport? = none) : c.Accounted raw := by
  intro entry hentry report hreport
  rw [h entry hentry] at hreport
  exact nomatch hreport

/-- In an object the header ends with the timestamp. -/
theorem objectContents_accounted (hletter : letter raw = ';') :
    (objectContents (α := α) raw destination now).Accounted raw := by
  have hplain : Plain raw := plain_of_letter (List.mem_singleton.mpr hletter) (by simp)
  by_cases hlength : Object.minLength ≤ raw.length
  · have hlong : 30 ≤ raw.length := hlength
    have hheader : header raw = (Timestamp.decode raw 11 now).2 := by
      rw [Timestamp.decode_snd]
      unfold header
      rw [hletter, if_neg (by decide), if_pos rfl]
      show _ = min (11 + if raw[17]?.any Decimal.isDigit then 8 else 7) raw.length
      split <;> omega
    have hstart : IsCursor raw 11 := ⟨by decide, by omega⟩
    have hcursor := PositionReport.decode_isCursor (α := α) (Timestamp.decode_isCursor hstart now)
      destination ((Timestamp.decode raw 11 now).1.generated now)
    rw [objectContents_eq hlength]
    intro entry hentry report hreport
    rcases Pieces.mem_put hentry with rfl | hentry
    · cases Option.some.inj hreport
      refine ⟨addWeather_accounts hcursor ?_ [], fun _ hitem => nomatch hitem⟩
      rw [hheader]
      exact PositionReport.decode_accounted (Or.inr hplain)
    · exact absurd (mem_of_mem_addWeather hentry hreport) List.not_mem_nil
  · rw [objectContents_eq_broken (Nat.not_le.mp hlength)]
    exact accounted_of_no_position fun entry hentry => by rw [List.mem_singleton.mp hentry]; rfl

/-- In an item the header ends with the flag behind the name. -/
theorem itemContents_accounted (hletter : letter raw = ')') :
    (itemContents (α := α) raw destination now).Accounted raw := by
  have hplain : Plain raw := plain_of_letter (List.mem_singleton.mpr hletter) (by simp)
  unfold itemContents
  cases hitem : Item.decode (α := α) raw destination now with
  | error cause =>
    exact accounted_of_no_position fun entry hentry => by rw [List.mem_singleton.mp hentry]; rfl
  | ok read =>
    obtain ⟨item, cursor⟩ := read
    have hcursor : IsCursor raw cursor := Item.decode_isCursor hitem
    rw [Item.decode_eq] at hitem
    cases hnamed : Item.named raw with
    | error cause =>
      rw [hnamed] at hitem
      exact nomatch hitem
    | ok named =>
      obtain ⟨name, live⟩ := named
      rw [hnamed] at hitem
      obtain ⟨rfl, rfl⟩ := Prod.mk.inj (Except.ok.inj hitem)
      have hname : name = Item.nameOctets raw := Item.eq_nameOctets_of_named hnamed
      have hheader : header raw = name.length + 2 := by
        unfold header
        rw [hletter, if_neg (by decide), if_neg (by decide), if_pos rfl, hname]
      intro entry hentry report hreport
      rcases Pieces.mem_put hentry with rfl | hentry
      · cases Option.some.inj hreport
        refine ⟨addWeather_accounts hcursor ?_ [], ?_⟩
        · rw [hheader]
          exact PositionReport.decode_accounted (Or.inr hplain)
        · rintro item ⟨⟩
          exact congrArg Utf8.lossy hname
      · exact absurd (mem_of_mem_addWeather hentry hreport) List.not_mem_nil

theorem contents_accounted (raw : Bytes) (destination : Callsign) :
    ∀ now, (contents (α := α) raw destination now).Accounted raw := by
  refine contents_cases (motive := fun f => ∀ now, (f now).Accounted raw) raw destination
    ?timed ?plain ?message ?object ?item ?weather ?none ?fault
  case timed =>
    intro hletter now
    have hone : IsCursor raw 1 := IsCursor.one (ne_nil_of_letter hletter (by decide))
    have hheader : header raw = (Timestamp.decode raw 1 now).2 := by
      rw [Timestamp.decode_snd]
      unfold header
      rw [if_pos (by simpa using hletter)]
      show _ = min (1 + if raw[7]?.any Decimal.isDigit then 8 else 7) raw.length
      split <;> rfl
    refine positionContents_accounted (Timestamp.decode_isCursor hone now) hheader
      (Or.inr (plain_of_letter hletter (by simp))) ?_
    intro entry hentry
    rw [List.mem_singleton.mp hentry]
    rfl
  case plain =>
    intro hletter _ now
    have hone : IsCursor raw 1 := IsCursor.one (ne_nil_of_letter hletter (by decide))
    have hother : ∀ c ∈ ['!', '=', '\x60', '\x27', '$'],
        ¬(c = '/' ∨ c = '@') ∧ c ≠ ';' ∧ c ≠ ')' := by simp
    obtain ⟨htimed, hobject, hitem⟩ := hother _ hletter
    have hheader : header raw = 1 := by
      unfold header
      rw [if_neg htimed, if_neg hobject, if_neg hitem]
    exact positionContents_accounted hone hheader (Or.inl rfl) fun _ hentry =>
      absurd hentry List.not_mem_nil
  case message =>
    intro _ now
    exact accounted_of_no_position fun entry hentry => by rw [List.mem_singleton.mp hentry]; rfl
  case object => exact fun hletter now => objectContents_accounted hletter
  case item => exact fun hletter now => itemContents_accounted hletter
  case weather =>
    intro _ now
    refine accounted_of_no_position fun entry hentry => ?_
    rcases List.mem_cons.mp hentry with rfl | hentry
    · rfl
    · rw [List.mem_singleton.mp hentry]
      rfl
  case none =>
    exact fun _ kind now =>
      accounted_of_no_position fun _ hentry => absurd hentry List.not_mem_nil
  case fault =>
    intro _ kind _ cursor cause now
    exact accounted_of_no_position fun entry hentry => by rw [List.mem_singleton.mp hentry]; rfl

/-- **Every octet in front of the comment is accounted for.** Where a position, an object or an item was
found, the cursor is the width of the header, of the position and of the weather report behind it; the
name in the header of an item is that of the item, and a faulty position has nothing beside it. -/
theorem decode_widths {raw : Bytes} {destination : Callsign} {now : Instant}
    {entry : Kind × Piece α} {report : PositionReport α}
    (hentry : entry ∈ (decode raw destination now).pieces)
    (hreport : entry.2.positionReport? = some report) :
    (decode (α := α) raw destination now).cursor = header raw + report.width raw +
        weatherWidth raw report (header raw + report.width raw) ∧
      (report.fault ≠ none → report.Bare) ∧
      ∀ item, entry.2 = .item item → item.name = Utf8.lossy (Item.nameOctets raw) := by
  obtain ⟨⟨hplace, hbare⟩, hname⟩ :=
    contents_accounted raw destination now entry hentry report hreport
  exact ⟨hplace, hbare, hname⟩

/-- An object of a weather station: a header of eighteen octets, a position of nineteen and a weather report
of fifteen. -/
theorem decode_widths_weather :
    let raw := Utf8.encode ";WX5      *092345z4903.50N/07201.75W_220/004g005t077 dry".toList
    let payload : Payload Exact := decode raw (Callsign.parse "APRS".toList) .epoch
    ∃ entry report, entry ∈ payload.pieces ∧ entry.2.positionReport? = some report ∧
      payload.cursor = 18 + 19 + 15 ∧
      payload.cursor = header raw + report.width raw +
        weatherWidth raw report (header raw + report.width raw) ∧
      (report.fault ≠ none → report.Bare) ∧
      ∀ item, entry.2 = .item item → item.name = Utf8.lossy (Item.nameOctets raw) := by
  intro raw payload
  have hposition : payload.position?.isSome := by decide +kernel
  have hcursor : payload.cursor = 18 + 19 + 15 := by decide +kernel
  obtain ⟨report, hfound⟩ := Option.isSome_iff_exists.mp hposition
  obtain ⟨entry, hentry, hreport⟩ := List.exists_of_findSome?_eq_some hfound
  exact ⟨entry, report, hentry, hreport, hcursor, decode_widths hentry hreport⟩

end Payload

end Aprs
