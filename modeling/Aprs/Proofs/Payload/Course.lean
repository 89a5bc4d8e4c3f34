import Aprs.Proofs.Payload.Origin
import Aprs.Scalar.Exact

/-!
# The course of a station

A course is given in degrees, from north through east, so no course is beyond 360. Four encodings carry one,
and each is read by a decoder of its own. Of them only the base-91 digit of a compressed position cannot say
more: the three digits of an uncompressed one go up to 999, the two octets of a Mic-E report, four hundred
taken off, up to 727, and the number in a sentence of a receiver as far as its word.

For each decoder it is said which octets its course stands in (`PositionReport.CourseTold`), and every
position in an information field was read by one of them (`Payload.position?_readFrom`).

> `Payload.course_le_iff`: the course of a payload is at most 360 **exactly if** the octets that it was read
> from say so (`CourseWithin`), which those of a compressed position always do.

Specification: 3 (Data Model) and 4.4 (Data Extension Decoder).
-/

namespace Aprs

open Payload (OfWeatherStation)

variable {α : Type} [Scalar α] {raw : Bytes} {destination : Callsign} {now instant : Instant}
  {start course speed : Nat}

/-! ## What the octets say -/

/-- The greatest course. -/
def Extension.fullCircle : Nat := 360

open Extension (fullCircle)

/-- The course in two octets of a Mic-E report, which may have been raised by four hundred. -/
def MicE.sentCourse (raw : Bytes) : Nat :=
  ((raw.getD 5 0).toNat - Extension.micEOffset) % 10 * 100 +
    ((raw.getD 6 0).toNat - Extension.micEOffset)

/-- The number in the ninth field of a sentence, where the recommended minimum has the course. -/
def Nmea.sentCourse? (α : Type) [Scalar α] (raw : Bytes) : Option α :=
  (Utf8.decode? raw).bind fun sentence => number? (fields sentence) 8

/-- Whether the octets that a course is read from keep it within the circle. The three digits of an
uncompressed position begin the seven characters in front of the cursor. -/
def PositionSource.CourseWithin (α : Type) [Scalar α] (raw : Bytes) (cursor : Nat) :
    PositionSource → Prop
  | .uncompressed => Extension.slot ((raw.drop (cursor - Extension.width)).take 3) ≤ fullCircle
  | .compressed => True
  | .micE =>
    MicE.sentCourse raw ≤ fullCircle ∨
      400 ≤ MicE.sentCourse raw ∧ MicE.sentCourse raw ≤ 400 + fullCircle
  | .nmea => ∀ degrees ∈ Nmea.sentCourse? α raw, Scalar.rounded16 degrees ≤ fullCircle

/-- A course is within the circle exactly if the octets say so that it was read from. The cursor stands
behind the position unless a weather report follows. -/
def PositionReport.CourseTold (raw : Bytes) (read : PositionReport α × Nat) : Prop :=
  ∀ course speed cursor, read.1.extension = some (.courseSpeed course speed) →
    (¬OfWeatherStation read.1 → cursor = read.2) →
    (course ≤ fullCircle ↔ read.1.source.CourseWithin α raw cursor)

open PositionReport (CourseTold)

/-- Without an extension there is no course. -/
theorem PositionReport.courseTold_of_none {read : PositionReport α × Nat}
    (h : read.1.extension = none) : CourseTold raw read := by
  intro course speed cursor hextension
  rw [h] at hextension
  cases hextension

/-! ## Uncompressed -/

/-- Three digits, a slash and three more. -/
theorem Extension.ofField?_eq_courseSpeed {field : Bytes}
    (h : ofField? field = some (.courseSpeed course speed)) : course = slot (field.take 3) := by
  unfold ofField? at h
  split at h
  · split at h
    · cases h
    split at h
    · cases h
    split at h
    · cases h
    split at h
    · cases h
      rfl
    · cases h
  · cases h

/-- An uncompressed position with a course is not that of a weather station, and the cursor stands behind
the seven characters. -/
theorem Uncompressed.decode_courseTold :
    CourseTold raw (decode (α := α) raw start instant) := by
  unfold decode
  dsimp only
  split
  · exact PositionReport.courseTold_of_none rfl
  split
  · exact PositionReport.courseTold_of_none rfl
  intro course speed cursor hextension hcursor
  dsimp only at hextension hcursor
  have hsome : (Extension.ofUncompressed? raw (start + width)
      (((raw.drop start).take width).getD 18 0)).isSome := Option.isSome_of_eq_some hextension
  unfold Extension.ofUncompressed? at hextension
  split at hextension
  · cases hextension
  next hsymbol =>
    have hbehind := hcursor fun hstation => hsymbol (Utf8.eq_ofNat_of_charOfByte hstation.2)
    rw [if_pos hsome] at hbehind
    have hcourse := Extension.ofField?_eq_courseSpeed hextension
    rw [List.take_take] at hcourse
    show course ≤ fullCircle ↔
      Extension.slot ((raw.drop (cursor - Extension.width)).take 3) ≤ fullCircle
    rw [hcourse, hbehind, Nat.add_sub_cancel]
    rfl

/-! ## Compressed -/

/-- The digit goes up to ninety, and each is four degrees. -/
theorem Extension.ofCompressed?_eq_courseSpeed {c s t symbol : UInt8}
    (h : ofCompressed? α c s t symbol = some (.courseSpeed course speed)) : course ≤ fullCircle := by
  unfold ofCompressed? at h
  split at h
  · cases h
  dsimp only at h
  split at h
  · cases h
  split at h
  · next hdigit =>
    cases h
    show _ ≤ 360
    omega
  · cases h

/-- The course of a compressed position is four times a number below ninety. -/
theorem Compressed.decode_courseTold :
    CourseTold raw (decode (α := α) raw start instant) := by
  unfold decode
  dsimp only
  split
  · exact PositionReport.courseTold_of_none rfl
  split
  · exact PositionReport.courseTold_of_none rfl
  split
  · intro course speed cursor hextension _
    exact iff_of_true (Extension.ofCompressed?_eq_courseSpeed hextension) trivial
  · exact PositionReport.courseTold_of_none rfl

/-! ## Mic-E -/

/-- The course of a Mic-E report, as its octets are added up, before it is lowered. -/
theorem Extension.ofMicE?_eq_courseSpeed {sp dc se : UInt8}
    (h : ofMicE? sp dc se = some (.courseSpeed course speed)) :
    let sent := (dc.toNat - micEOffset) % 10 * 100 + (se.toNat - micEOffset)
    course = if 400 ≤ sent then sent - 400 else sent := by
  unfold ofMicE? at h
  split at h
  · cases h
  · cases h
    rfl

/-- What is above four hundred is lowered by as much. -/
theorem MicE.lowered_le_iff (sent : Nat) :
    (if 400 ≤ sent then sent - 400 else sent) ≤ fullCircle ↔
      sent ≤ fullCircle ∨ 400 ≤ sent ∧ sent ≤ 400 + fullCircle := by
  have hcircle : fullCircle = 360 := rfl
  split <;> omega

theorem MicE.decode_courseTold :
    CourseTold raw (decode (α := α) raw destination instant) := by
  rcases decode_cases (α := α) raw destination instant with ⟨cause, hread⟩ | ⟨hsource, -, hoctets, -⟩
  · rw [hread]
    exact PositionReport.courseTold_of_none rfl
  · intro course speed cursor hextension _
    rw [hoctets] at hextension
    rw [hsource, Extension.ofMicE?_eq_courseSpeed hextension]
    exact lowered_le_iff _

/-! ## Sentences of a receiver -/

/-- The course of a sentence is its number, rounded. -/
theorem Nmea.courseSpeed?_eq_some {fields : List Text}
    (h : courseSpeed? α fields start = some (.courseSpeed course speed)) :
    ∃ degrees : α, number? fields (start + 1) = some degrees ∧ course = Scalar.rounded16 degrees := by
  unfold courseSpeed? at h
  split at h
  · next degrees _ hdegrees =>
    cases h
    exact ⟨_, hdegrees, rfl⟩
  · cases h

/-- Of the sentences the recommended minimum alone has a course. -/
theorem Nmea.fix_course {f : Fix α} (h : fix raw = .ok f)
    (hextension : f.extension = some (.courseSpeed course speed)) :
    ∃ degrees, sentCourse? α raw = some degrees ∧ course = Scalar.rounded16 degrees := by
  unfold fix at h
  split at h
  · cases h
  next sentence htext =>
    dsimp only at h
    split at h
    · cases h
    split at h
    · unfold recommendedMinimum at h
      obtain ⟨status, -, h⟩ := bind_eq_ok_iff.mp h
      split at h
      · cases h
      · obtain ⟨⟨latitude, longitude⟩, -, h⟩ := bind_eq_ok_iff.mp h
        cases Except.ok.inj h
        obtain ⟨degrees, hdegrees, hcourse⟩ := courseSpeed?_eq_some hextension
        refine ⟨degrees, ?_, hcourse⟩
        unfold sentCourse?
        rw [htext]
        exact hdegrees
    split at h
    · unfold fixData at h
      obtain ⟨quality, -, h⟩ := bind_eq_ok_iff.mp h
      split at h
      · cases h
      · obtain ⟨⟨latitude, longitude⟩, -, h⟩ := bind_eq_ok_iff.mp h
        cases Except.ok.inj h
        cases hextension
    split at h
    · unfold geographicPosition at h
      split at h
      · cases h
      · obtain ⟨⟨latitude, longitude⟩, -, h⟩ := bind_eq_ok_iff.mp h
        cases Except.ok.inj h
        cases hextension
    · cases h

/-- The course of a sentence is the number in its ninth field, rounded. -/
theorem Nmea.decode_courseTold : CourseTold raw (decode (α := α) raw instant) := by
  unfold decode
  split
  · exact PositionReport.courseTold_of_none rfl
  split
  · exact PositionReport.courseTold_of_none rfl
  next f hfix =>
    intro course speed cursor hextension _
    obtain ⟨degrees, hsent, hcourse⟩ := fix_course hfix hextension
    show course ≤ fullCircle ↔ ∀ degrees ∈ sentCourse? α raw, Scalar.rounded16 degrees ≤ fullCircle
    simp [hsent, hcourse]

/-! ## All encodings -/

/-- **The course of every encoding is told by its octets.** -/
theorem PositionReport.decode_courseTold :
    CourseTold raw (decode (α := α) raw start destination instant) :=
  decode_cases MicE.decode_courseTold Nmea.decode_courseTold Compressed.decode_courseTold
    Uncompressed.decode_courseTold (courseTold_of_none rfl) fun _ _ => courseTold_of_none rfl

namespace Payload

/-- **The course of a payload is at most 360 exactly if the octets say so that it was read from**, whichever
of the four encodings they are in; those of a compressed position cannot say anything else. -/
theorem course_le_iff (raw : Bytes) (destination : Callsign) (now : Instant) (course speed : Nat)
    (h : (decode (α := α) raw destination now).extension? = some (.courseSpeed course speed)) :
    ∃ report, (decode (α := α) raw destination now).position? = some report ∧
      (course ≤ fullCircle ↔
        report.source.CourseWithin α raw (decode (α := α) raw destination now).cursor) := by
  obtain ⟨report, hposition, hextension⟩ := Option.bind_eq_some_iff.mp h
  obtain ⟨start, instant, rfl, hcursor⟩ := position?_readFrom hposition
  exact ⟨_, hposition, PositionReport.decode_courseTold course speed _ hextension hcursor⟩

/-- A car that drives eastward. -/
theorem course_le_iff_eastward :
    let raw := Utf8.encode "!4903.50N/07201.75W>088/036".toList
    let payload : Payload Exact := decode raw (Callsign.parse "APRS".toList) .epoch
    payload.extension? = some (.courseSpeed 88 36) ∧
      ∃ report, payload.position? = some report ∧
        (88 ≤ fullCircle ↔ report.source.CourseWithin Exact raw payload.cursor) := by
  intro raw payload
  have hextension : payload.extension? = some (.courseSpeed 88 36) := by decide +kernel
  exact ⟨hextension, course_le_iff raw _ _ 88 36 hextension⟩

/-- Three digits, two octets of a Mic-E report and a number in a sentence are read as courses beyond the
circle. -/
theorem course_beyond_circle :
    let read (raw destination : Text) : Payload Exact :=
      decode (Utf8.encode raw) (Callsign.parse destination) .epoch
    (read "!4903.50N/07201.75W>999/000".toList "APRS".toList).extension? =
        some (.courseSpeed 999 0) ∧
      (read "\x60(_fn%~j/".toList "S32U6T".toList).extension? = some (.courseSpeed 598 20) ∧
      (read "$GPRMC,063909,A,3349.4302,N,11700.3721,W,43.022,889.3,291099,13.6,E*52".toList
        "APRS".toList).extension? = some (.courseSpeed 889 43) ∧
      ¬999 ≤ fullCircle ∧ ¬598 ≤ fullCircle ∧ ¬889 ≤ fullCircle := by
  intro read
  have huncompressed : (read "!4903.50N/07201.75W>999/000".toList "APRS".toList).extension? =
      some (.courseSpeed 999 0) := by decide +kernel
  have hmicE : (read "\x60(_fn%~j/".toList "S32U6T".toList).extension? =
      some (.courseSpeed 598 20) := by decide +kernel
  have hnmea : (read
      "$GPRMC,063909,A,3349.4302,N,11700.3721,W,43.022,889.3,291099,13.6,E*52".toList
      "APRS".toList).extension? = some (.courseSpeed 889 43) := by decide +kernel
  exact ⟨huncompressed, hmicE, hnmea, by decide, by decide, by decide⟩

end Payload

end Aprs
