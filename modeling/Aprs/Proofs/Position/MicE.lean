import Aprs.Position.Decode
import Aprs.Position.MicE.Encoding
import Aprs.Proofs.Position.Angle
import Aprs.Proofs.Position.Text
import Aprs.Text.Utf8.Ascii

/-!
# Mic-E reports are read as they are sent

A tracker spreads its report over the six characters of the destination and eight octets of the
information (`Sending`), and the decoder gathers it again:

> the report that is read has the place, the symbol, the status, the course and the speed that were sent
> (`sent_roundTrip`).

The destination carries the latitude and six flags in its columns (`destination_octets`). The degrees of
longitude come in four intervals, which the offset tells apart (`longitudeDegrees_degreesOctet`), and what
was added to speed and course is taken off again (`ofMicE?_eq_some`). The digits that a station leaves
blank are zeros in both coordinates (`told`).

Specification: 4.3 (Position Decoder) and 12.2 (Position rendering and geometry).
-/

namespace Aprs.MicE

/-! ## The destination -/

/-- What a column says whose character stands in a row. -/
def columnOf (row : StatusBit) (digit : Option Nat) : DestinationCharacter :=
  ⟨digit, row = .standard, row⟩

theorem toNat_octet (row : StatusBit) {d : Nat} (h : d < 10) :
    (row.octet (some d)).toNat = row.firstDigit + d := by
  have hrow : row.firstDigit ≤ 0x50 := by cases row <;> decide
  exact UInt8.toNat_ofNat_of_lt' (show row.firstDigit + d < 256 by omega)

/-- The characters of the destination are those of ASCII. -/
theorem octet_ascii (row : StatusBit) {digit : Option Nat} (h : ∀ d ∈ digit, d < 10) :
    (row.octet digit).toNat < 0x80 := by
  cases digit with
  | none => cases row <;> decide
  | some d =>
    have hrow : row.firstDigit ≤ 0x50 := by cases row <;> decide
    have hd := h d rfl
    rw [toNat_octet row hd]
    omega

/-- A digit or a blank is read from its octet, and with it the row. -/
theorem destinationCharacter_octet (row : StatusBit) {digit : Option Nat} (h : ∀ d ∈ digit, d < 10) :
    destinationCharacter (row.octet digit) = .ok (columnOf row digit) := by
  cases digit with
  | none => cases row <;> rfl
  | some d =>
    have hd := h d rfl
    unfold destinationCharacter
    rw [toNat_octet row hd]
    cases row with
    | zero =>
      dsimp only [StatusBit.firstDigit]
      rw [if_pos (by omega), Nat.add_sub_cancel_left]
      rfl
    | custom =>
      dsimp only [StatusBit.firstDigit]
      rw [if_neg (by omega), if_pos (by omega), Nat.add_sub_cancel_left]
      rfl
    | standard =>
      dsimp only [StatusBit.firstDigit]
      rw [if_neg (by omega), if_neg (by omega), if_neg (by omega), if_neg (by omega),
        if_pos (by omega), Nat.add_sub_cancel_left]
      rfl

/-- **The characters of a destination are read as they were sent**, column by column. -/
theorem mapM_octets (rows : List StatusBit) :
    ∀ {digits : List (Option Nat)}, (∀ digit ∈ digits, ∀ d ∈ digit, d < 10) →
      (List.zipWith StatusBit.octet rows digits).mapM destinationCharacter =
        .ok (List.zipWith columnOf rows digits) := by
  induction rows with
  | nil => intro digits _; rfl
  | cons row rows ih =>
    intro digits h
    cases digits with
    | nil => rfl
    | cons digit digits =>
      obtain ⟨hdigit, hdigits⟩ := List.forall_mem_cons.mp h
      rw [List.zipWith_cons_cons, List.mapM_cons, destinationCharacter_octet row hdigit, ih hdigits]
      rfl

/-- Six digits with blanks for the last ones. -/
def blanked (ambiguity : Nat) (digits : List Nat) : List (Option Nat) :=
  (digits.take (6 - ambiguity)).map some ++ List.replicate ambiguity none

theorem blanked_lt (ambiguity : Nat) {digits : List Nat} (h : ∀ d ∈ digits, d < 10) :
    ∀ digit ∈ blanked ambiguity digits, ∀ d ∈ digit, d < 10 := by
  intro digit hdigit d hd
  rcases List.mem_append.mp hdigit with hkept | hblank
  · obtain ⟨e, he, rfl⟩ := List.mem_map.mp hkept
    exact Option.some.inj hd ▸ h e (List.mem_of_mem_take he)
  · rw [List.eq_of_mem_replicate hblank] at hd
    exact absurd hd (Option.not_mem_none d)

/-- Up to four blanks stand in the columns of the minutes, behind all digits, and count as zeros. -/
theorem blanked_minutes {ambiguity : Nat} (h : ambiguity ≤ 4) {u v w x y z : Nat} (hw : w < 10)
    (hx : x < 10) (hy : y < 10) (hz : z < 10) :
    ∃ third fourth fifth sixth : Option Nat,
      blanked ambiguity [u, v, w, x, y, z] = [some u, some v, third, fourth, fifth, sixth] ∧
      (∀ r₁ r₂ r₃ r₄ r₅ r₆ : StatusBit,
        ([columnOf r₆ sixth, columnOf r₅ fifth, columnOf r₄ fourth, columnOf r₃ third,
          columnOf r₂ (some v), columnOf r₁ (some u)].takeWhile fun c => c.digit.isNone).length =
            ambiguity ∧
        ([columnOf r₁ (some u), columnOf r₂ (some v), columnOf r₃ third, columnOf r₄ fourth,
          columnOf r₅ fifth, columnOf r₆ sixth].take (6 - ambiguity)).any
            (fun c => c.digit.isNone) = false) ∧
      third.getD 0 * 1000 + fourth.getD 0 * 100 + fifth.getD 0 * 10 + sixth.getD 0 =
        Angle.truncate ambiguity (w * 1000 + x * 100 + y * 10 + z) := by
  match ambiguity, h with
  | 0, _ =>
    exact ⟨some w, some x, some y, some z, rfl, fun _ _ _ _ _ _ => ⟨rfl, rfl⟩,
      by simp [Angle.truncate]⟩
  | 1, _ =>
    refine ⟨some w, some x, some y, none, rfl, fun _ _ _ _ _ _ => ⟨rfl, rfl⟩, ?_⟩
    show w * 1000 + x * 100 + y * 10 + 0 = (w * 1000 + x * 100 + y * 10 + z) / 10 * 10
    omega
  | 2, _ =>
    refine ⟨some w, some x, none, none, rfl, fun _ _ _ _ _ _ => ⟨rfl, rfl⟩, ?_⟩
    show w * 1000 + x * 100 + 0 * 10 + 0 = (w * 1000 + x * 100 + y * 10 + z) / 100 * 100
    omega
  | 3, _ =>
    refine ⟨some w, none, none, none, rfl, fun _ _ _ _ _ _ => ⟨rfl, rfl⟩, ?_⟩
    show w * 1000 + 0 * 100 + 0 * 10 + 0 = (w * 1000 + x * 100 + y * 10 + z) / 1000 * 1000
    omega
  | 4, _ =>
    refine ⟨none, none, none, none, rfl, fun _ _ _ _ _ _ => ⟨rfl, rfl⟩, ?_⟩
    show 0 * 1000 + 0 * 100 + 0 * 10 + 0 = (w * 1000 + x * 100 + y * 10 + z) / 10000 * 10000
    omega

/-- Six characters whose blanks are the last ones, and no more than four, are a destination if their
digits are within the limits of a latitude. -/
theorem destination_of_chars {call : Bytes} {a b c d e f : DestinationCharacter} {blanks : Nat}
    (hlength : call.length = 6) (hread : call.mapM destinationCharacter = .ok [a, b, c, d, e, f])
    (hblanks : ([f, e, d, c, b, a].takeWhile fun x => x.digit.isNone).length = blanks)
    (hfew : blanks ≤ 4)
    (hkept : ([a, b, c, d, e, f].take (6 - blanks)).any (fun x => x.digit.isNone) = false)
    (hdegrees : a.digit.getD 0 * 10 + b.digit.getD 0 ≤ 89)
    (hminutes : c.digit.getD 0 * 1000 + d.digit.getD 0 * 100 + e.digit.getD 0 * 10 + f.digit.getD 0 <
      6000) :
    destination call =
      .ok {
        latitude := ⟨a.digit.getD 0 * 10 + b.digit.getD 0,
          c.digit.getD 0 * 1000 + d.digit.getD 0 * 100 + e.digit.getD 0 * 10 + f.digit.getD 0, !d.flag⟩
        ambiguity := blanks
        offset := e.flag
        west := f.flag
        status := status a.bit b.bit c.bit } := by
  have hroom : ¬call.length < destinationLength := hlength ▸ Nat.lt_irrefl 6
  have htake : call.take destinationLength = call := List.take_of_length_le (Nat.le_of_eq hlength)
  have hgap : ¬(Angle.maxAmbiguity < blanks ∨
      ([a, b, c, d, e, f].take (destinationLength - blanks)).any (fun x => x.digit.isNone) = true) := by
    rintro (hmany | hany)
    · exact Nat.not_lt.mpr hfew hmany
    · exact Bool.false_ne_true (hkept.symm.trans hany)
  have hlimits : ¬(89 < a.digit.getD 0 * 10 + b.digit.getD 0 ∨ Angle.perDegree ≤
      c.digit.getD 0 * 1000 + d.digit.getD 0 * 100 + e.digit.getD 0 * 10 + f.digit.getD 0) := by
    show ¬(89 < _ ∨ 6000 ≤ _)
    omega
  unfold destination
  rw [if_neg hroom, htake, hread]
  subst hblanks
  exact (if_neg hgap).trans (if_neg hlimits)

/-- **The destination is read as it is sent**: the latitude but for its blanks, and what the rows tell. -/
theorem destination_octets (first second third north offset west : StatusBit) {ambiguity : Nat}
    (hambiguity : ambiguity ≤ 4) {u v w x y z : Nat} (hdigits : ∀ n ∈ [u, v, w, x, y, z], n < 10)
    (hdegrees : u * 10 + v ≤ 89) (hminutes : w * 1000 + x * 100 + y * 10 + z < 6000) :
    destination (List.zipWith StatusBit.octet [first, second, third, north, offset, west]
        (blanked ambiguity [u, v, w, x, y, z])) =
      .ok {
        latitude := ⟨u * 10 + v, Angle.truncate ambiguity (w * 1000 + x * 100 + y * 10 + z),
          !decide (north = .standard)⟩
        ambiguity
        offset := offset = .standard
        west := west = .standard
        status := status first second third } := by
  have hread := mapM_octets [first, second, third, north, offset, west] (blanked_lt ambiguity hdigits)
  simp only [List.forall_mem_cons] at hdigits
  obtain ⟨-, -, hw, hx, hy, hz, -⟩ := hdigits
  obtain ⟨a, b, c, d, hblanked, hblanks, hvalue⟩ := blanked_minutes hambiguity hw hx hy hz
  rw [hblanked] at hread ⊢
  have hless := Nat.lt_of_le_of_lt (Angle.truncate_le ambiguity _) hminutes
  rw [← hvalue] at hless ⊢
  obtain ⟨htrailing, hkept⟩ := hblanks first second third north offset west
  exact destination_of_chars rfl hread htrailing hambiguity hkept hdegrees hless

/-! ## The information -/

/-- Each of the four intervals of degrees is brought back to its place. -/
theorem longitudeDegrees_degreesOctet {degrees : Nat} (h : degrees ≤ 179) :
    longitudeDegrees (Sending.degreesOctet degrees) (degrees < 10 || 100 ≤ degrees) = degrees := by
  unfold Sending.degreesOctet
  by_cases hunits : degrees < 10
  · have hoctet : (UInt8.ofNat (degrees + 118)).toNat = degrees + 118 :=
      UInt8.toNat_ofNat_of_lt' (show degrees + 118 < 256 by omega)
    rw [if_pos hunits, decide_eq_true hunits, Bool.true_or, longitudeDegrees, hoctet]
    rw [if_pos rfl, if_neg (by omega), if_pos (by omega)]
    omega
  rw [if_neg hunits, decide_eq_false hunits, Bool.false_or]
  by_cases htens : degrees < 100
  · have hoctet : (UInt8.ofNat (degrees + 28)).toNat = degrees + 28 :=
      UInt8.toNat_ofNat_of_lt' (show degrees + 28 < 256 by omega)
    rw [if_pos htens, decide_eq_false (Nat.not_le.mpr htens), longitudeDegrees, hoctet]
    rw [if_neg Bool.false_ne_true, if_neg (by omega), if_neg (by omega)]
    omega
  rw [if_neg htens, decide_eq_true (Nat.not_lt.mp htens)]
  by_cases hhundred : degrees < 110
  · have hoctet : (UInt8.ofNat (degrees + 8)).toNat = degrees + 8 :=
      UInt8.toNat_ofNat_of_lt' (show degrees + 8 < 256 by omega)
    rw [if_pos hhundred, longitudeDegrees, hoctet]
    rw [if_pos rfl, if_pos (by omega)]
    omega
  · have hoctet : (UInt8.ofNat (degrees - 72)).toNat = degrees - 72 :=
      UInt8.toNat_ofNat_of_lt' (show degrees - 72 < 256 by omega)
    rw [if_neg hhundred, longitudeDegrees, hoctet]
    rw [if_pos rfl, if_neg (by omega), if_neg (by omega)]
    omega

/-- The minutes come back from their octet. -/
theorem longitudeMinutes_minutesOctet {minutes : Nat} (h : minutes < 60) :
    longitudeMinutes (Sending.minutesOctet minutes) = minutes := by
  unfold Sending.minutesOctet
  by_cases hunits : minutes < 10
  · have hoctet : (UInt8.ofNat (minutes + 88)).toNat = minutes + 88 :=
      UInt8.toNat_ofNat_of_lt' (show minutes + 88 < 256 by omega)
    rw [if_pos hunits, longitudeMinutes, hoctet]
    rw [if_pos (by omega)]
    omega
  · have hoctet : (UInt8.ofNat (minutes + 28)).toNat = minutes + 28 :=
      UInt8.toNat_ofNat_of_lt' (show minutes + 28 < 256 by omega)
    rw [if_neg hunits, longitudeMinutes, hoctet]
    rw [if_neg (by omega)]
    omega

/-- The longitude is read from its three octets, but for the digits that are blank in the latitude. -/
theorem longitude_octets (d : Destination) {degrees hundredths : Nat} (hdegrees : degrees ≤ 179)
    (hhundredths : hundredths < 6000) (hoffset : d.offset = (degrees < 10 || 100 ≤ degrees)) :
    longitude d (Sending.degreesOctet degrees) (Sending.minutesOctet (hundredths / 100))
        (UInt8.ofNat (28 + hundredths % 100)) =
      .ok ⟨degrees, Angle.truncate d.ambiguity hundredths, d.west⟩ := by
  have hlast : (UInt8.ofNat (28 + hundredths % 100)).toNat = 28 + hundredths % 100 :=
    UInt8.toNat_ofNat_of_lt' (show 28 + hundredths % 100 < 256 by omega)
  have hminutes : hundredths / 100 < 60 := by omega
  have hall : ((hundredths / 100 : Nat) * 100 + ((28 + hundredths % 100 : Nat) - 28) : Int).toNat =
      hundredths := by
    omega
  unfold longitude
  rw [hoffset, longitudeDegrees_degreesOctet hdegrees, longitudeMinutes_minutesOctet hminutes, hlast]
  dsimp only
  rw [if_pos (by omega), hall, Int.toNat_natCast]

/-- A speed below eight hundred and a course below four hundred are read as they are, raised or not. -/
theorem ofMicE?_eq_some {sp dc se : UInt8} {speed course speedRaise courseRaise : Nat}
    (hspeed : speed < 800) (hcourse : course < 400) (hspeedRaise : speedRaise = 0 ∨ speedRaise = 80)
    (hcourseRaise : courseRaise = 0 ∨ courseRaise = 4)
    (htens : sp.toNat = 28 + speed / 10 + speedRaise)
    (hshared : dc.toNat = 28 + 10 * (speed % 10) + course / 100 + courseRaise)
    (hrest : se.toNat = 28 + course % 100) :
    Extension.ofMicE? sp dc se = some (.courseSpeed course speed) := by
  have hroom : ¬(sp.toNat < Extension.micEOffset ∨ dc.toNat < Extension.micEOffset ∨
      se.toNat < Extension.micEOffset) := by
    show ¬(sp.toNat < 28 ∨ dc.toNat < 28 ∨ se.toNat < 28)
    omega
  have hspeedSent : (sp.toNat - 28) * 10 + (dc.toNat - 28) / 10 = speed + 10 * speedRaise := by
    omega
  have hcourseSent : (dc.toNat - 28) % 10 * 100 + (se.toNat - 28) = course + 100 * courseRaise := by
    omega
  unfold Extension.ofMicE?
  rw [if_neg hroom]
  show some (Extension.courseSpeed
    (if 400 ≤ (dc.toNat - 28) % 10 * 100 + (se.toNat - 28) then
      (dc.toNat - 28) % 10 * 100 + (se.toNat - 28) - 400
    else (dc.toNat - 28) % 10 * 100 + (se.toNat - 28))
    (if 800 ≤ (sp.toNat - 28) * 10 + (dc.toNat - 28) / 10 then
      (sp.toNat - 28) * 10 + (dc.toNat - 28) / 10 - 800
    else (sp.toNat - 28) * 10 + (dc.toNat - 28) / 10)) = _
  rw [hspeedSent, hcourseSent]
  rcases hspeedRaise with rfl | rfl <;> rcases hcourseRaise with rfl | rfl <;>
    grind

/-- Speed and course are read from the octets that they share. -/
theorem ofMicE?_octets (s : Sending) :
    Extension.ofMicE? s.speedOctet s.sharedOctet s.courseOctet =
      some (.courseSpeed s.course s.speed) := by
  have hspeed := s.speed_lt
  have hcourse := s.course_lt
  have hspeedRaise : (if s.speedRaised then 80 else 0) = 0 ∨ (if s.speedRaised then 80 else 0) = 80 := by
    cases s.speedRaised
    · exact Or.inl rfl
    · exact Or.inr rfl
  have hcourseRaise : (if s.courseRaised then 4 else 0) = 0 ∨ (if s.courseRaised then 4 else 0) = 4 := by
    cases s.courseRaised
    · exact Or.inl rfl
    · exact Or.inr rfl
  refine ofMicE?_eq_some hspeed hcourse hspeedRaise hcourseRaise ?_ ?_ ?_
  · exact UInt8.toNat_ofNat_of_lt' (show _ < 256 by omega)
  · exact UInt8.toNat_ofNat_of_lt' (show _ < 256 by omega)
  · exact UInt8.toNat_ofNat_of_lt' (show _ < 256 by omega)

/-! ## The report -/

/-- The angle that remains of one whose last digits are blank. -/
def told (ambiguity : Nat) (a : Angle) : Angle :=
  { a with hundredths := Angle.truncate ambiguity a.hundredths }

/-- The bits that were sent tell the status. -/
theorem status_eq (s : Sending) : status s.firstBit s.secondBit s.thirdBit = s.status := by
  unfold Sending.status Sending.bits
  cases s.firstBit <;> cases s.secondBit <;> cases s.thirdBit <;> rfl

theorem ofFlag_standard (flag : Bool) : decide (StatusBit.ofFlag flag = .standard) = flag := by
  cases flag <;> rfl

theorem digits_lt (s : Sending) : ∀ d ∈ s.digits, d < 10 := by
  have hdegrees := s.latitude_degrees
  have hhundredths := s.latitude_hundredths
  simp only [Sending.digits, List.forall_mem_cons]
  refine ⟨?_, ?_, ?_, ?_, ?_, ?_, fun _ h => absurd h List.not_mem_nil⟩ <;> omega

/-- The call of the destination takes an octet for a character. -/
theorem encode_call (s : Sending) :
    Utf8.encode s.call = List.zipWith StatusBit.octet s.rows s.sentDigits := by
  refine Utf8.encode_map_charOfByte fun b hb => ?_
  rw [← List.map_uncurry_zip_eq_zipWith] at hb
  obtain ⟨⟨row, digit⟩, hcolumn, rfl⟩ := List.mem_map.mp hb
  exact octet_ascii row (blanked_lt s.ambiguity (digits_lt s) digit (List.of_mem_zip hcolumn).2)

/-- The call that was sent is read as what it says. -/
theorem destination_call (s : Sending) :
    destination (Utf8.encode s.call) =
      .ok {
        latitude := told s.ambiguity s.latitude
        ambiguity := s.ambiguity
        offset := s.offset
        west := s.longitude.negative
        status := s.status } := by
  have hlimit := s.latitude_degrees
  have hminutes := s.latitude_hundredths
  have hdegrees : s.latitude.degrees / 10 * 10 + s.latitude.degrees % 10 = s.latitude.degrees := by
    omega
  have hhundredths : s.latitude.hundredths / 1000 * 1000 + s.latitude.hundredths / 100 % 10 * 100 +
      s.latitude.hundredths / 10 % 10 * 10 + s.latitude.hundredths % 10 = s.latitude.hundredths := by
    omega
  have hread := destination_octets s.firstBit s.secondBit s.thirdBit (.ofFlag !s.latitude.negative)
    (.ofFlag s.offset) (.ofFlag s.longitude.negative) s.ambiguity_le (digits_lt s) (by omega) (by omega)
  rw [hdegrees, hhundredths, ofFlag_standard, ofFlag_standard, ofFlag_standard, Bool.not_not,
    status_eq] at hread
  rw [encode_call]
  exact hread

/-- The whole of what is read from a report, and the place behind it: of the tail an octet for the kind
of device and an altitude at most. -/
theorem decode_sent {α : Type} [Scalar α] (s : Sending) (ssid : Text) (kind : UInt8) (tail : Bytes)
    (instant : Instant) :
    let device := if tail.head?.any isDeviceType then 1 else 0
    let altitude : Option α := altitude? (tail.drop device)
    decode (kind :: (s.information ++ tail)) ⟨s.call, ssid⟩ instant =
      (⟨{ Position.make (told s.ambiguity s.latitude).value (told s.ambiguity s.longitude).value
            s.ambiguity (charOfByte s.table) (charOfByte s.code) instant with altitude },
        .micE, some (.courseSpeed s.course s.speed), some s.status, none⟩,
        width + device + if altitude.isSome then 4 else 0) := by
  intro device altitude
  have hlongitude := longitude_octets ⟨told s.ambiguity s.latitude, s.ambiguity, s.offset,
    s.longitude.negative, s.status⟩ s.longitude_degrees s.longitude_hundredths rfl
  unfold decode read
  rw [destination_call]
  simp only [Sending.information, List.cons_append, List.nil_append, bind, Except.bind]
  rw [hlongitude, ofMicE?_octets]
  rfl

/-- The hundredths that were told are those of the angle, but for the blanks. -/
theorem hundredths_told {ambiguity : Nat} {a : Angle} (hdegrees : a.degrees ≤ 179)
    (hhundredths : a.hundredths < 6000) :
    Position.hundredths (Position.roundPlaces (told ambiguity a).value : Exact) =
      a.degrees * 6000 + Angle.truncate ambiguity a.hundredths := by
  have hless := Angle.truncate_le ambiguity a.hundredths
  refine Position.hundredths_roundPlaces_eq (Angle.abs_value (told ambiguity a)) ?_
  show a.degrees * 6000 + Angle.truncate ambiguity a.hundredths ≤ 0xFFFFFFFF
  omega

/-- **What a tracker sends is what is read**, whatever the identifier and the tail: its place but for the
digits that it left blank, its hemispheres, symbol and status, its course and speed. In exact arithmetic
the place read has the hemispheres and the hundredths of minutes that were sent, those of zero
included. -/
theorem sent_roundTrip (s : Sending) (ssid : Text) (kind : UInt8) (tail : Bytes) (instant : Instant) :
    (∀ (α : Type) [Scalar α],
      let read : PositionReport α × Nat :=
        decode (kind :: (s.information ++ tail)) ⟨s.call, ssid⟩ instant
      read.1.fault = none ∧ read.1.source = .micE ∧
        read.1.position.latitude = Position.roundPlaces (told s.ambiguity s.latitude).value ∧
        read.1.position.longitude = Position.roundPlaces (told s.ambiguity s.longitude).value ∧
        read.1.position.ambiguity = s.ambiguity ∧
        read.1.position.table = charOfByte s.table ∧ read.1.position.code = charOfByte s.code ∧
        read.1.extension = some (.courseSpeed s.course s.speed) ∧ read.1.status = some s.status) ∧
    (let p : Position Exact :=
      (decode (kind :: (s.information ++ tail)) ⟨s.call, ssid⟩ instant).1.position
     p.latitude.negative = s.latitude.negative ∧ p.longitude.negative = s.longitude.negative ∧
        Position.hundredths p.latitude =
          s.latitude.degrees * 6000 + Angle.truncate s.ambiguity s.latitude.hundredths ∧
        Position.hundredths p.longitude =
          s.longitude.degrees * 6000 + Angle.truncate s.ambiguity s.longitude.hundredths) := by
  constructor
  · intro α _ read
    have hread : read = _ := decode_sent s ssid kind tail instant
    rw [hread]
    exact ⟨rfl, rfl, rfl, rfl, Nat.min_eq_left s.ambiguity_le, rfl, rfl, rfl, rfl⟩
  · have hlatitude : s.latitude.degrees ≤ 179 := Nat.le_trans s.latitude_degrees (by decide)
    rw [decode_sent]
    exact ⟨(Position.negative_roundPlaces _).trans (Angle.negative_value _),
      (Position.negative_roundPlaces _).trans (Angle.negative_value _),
      hundredths_told hlatitude s.latitude_hundredths,
      hundredths_told s.longitude_degrees s.longitude_hundredths⟩

/-- Thirty-three degrees and twenty-five minutes north, a hundred and twelve degrees and seven minutes west,
with the hundredths of the minutes left blank, at twenty knots. The offset of the longitude is set, and both
the speed and the course are raised. -/
theorem sent_roundTrip_blanked :
    let s : Sending :=
      { latitude := ⟨33, 2564, false⟩, longitude := ⟨112, 774, true⟩, ambiguity := 2
        firstBit := .standard, secondBit := .zero, thirdBit := .zero
        speed := 20, course := 251, speedRaised := true, courseRaised := true
        code := 0x3E, table := 0x2F
        latitude_degrees := by decide, latitude_hundredths := by decide
        longitude_degrees := by decide, longitude_hundredths := by decide
        ambiguity_le := by decide, speed_lt := by decide, course_lt := by decide }
    let read : PositionReport Exact × Nat :=
      decode (Utf8.encode "`(_fn\"O>/".toList) ⟨"S32UZZ".toList, []⟩ .epoch
    s.offset = true ∧ s.call = "S32UZZ".toList ∧ s.information = Utf8.encode "(_fn\"O>/".toList ∧
      read.1.fault = none ∧ read.1.position.ambiguity = 2 ∧
      read.1.extension = some (.courseSpeed 251 20) ∧ read.1.status = some .returning ∧
      read.1.position.latitude.negative = false ∧ read.1.position.longitude.negative = true ∧
      Position.hundredths read.1.position.latitude = 33 * 6000 + 2500 ∧
      Position.hundredths read.1.position.longitude = 112 * 6000 + 700 := by
  intro s read
  have hcall : s.call = "S32UZZ".toList := by decide
  have hinformation : s.information = Utf8.encode "(_fn\"O>/".toList := by decide
  obtain ⟨hread, hplace⟩ := sent_roundTrip s [] 0x60 [] .epoch
  obtain ⟨hfault, -, -, -, hambiguity, -, -, hextension, hstatus⟩ := hread Exact
  rw [hcall, hinformation] at hfault hambiguity hextension hstatus hplace
  obtain ⟨hnorth, hwest, hlatitude, hlongitude⟩ := hplace
  exact ⟨by decide, hcall, hinformation, hfault, hambiguity, hextension, hstatus, hnorth, hwest,
    hlatitude.trans (by decide), hlongitude.trans (by decide)⟩

end Aprs.MicE
