import Aprs.Proofs.Position.Angle
import Aprs.Proofs.Position.Compressed

/-!
# Which positions are read without a fault

A compressed position is accepted by its octets alone. Their digits write two distances, and the same
distance is the greatest of both coordinates (`inRange_latitude_iff`, `inRange_longitude_iff`):

> `Compressed.decode_reachable_iff`: a compressed position is read without a fault exactly if thirteen octets
> are there whose digits write distances up to the greatest (`Reachable`).

A Mic-E report is accepted by its destination and its information together. Each character of the
destination says what it says by itself (`column`), so the destination is read exactly if it is `Legible`
(`destination_eq_ok_iff`); the fifth of its characters decides, with the octet of the degrees, on which side
of the limits the longitude lies (`Informative`):

> `MicE.decode_legible_iff`: a Mic-E report is read without a fault exactly if its destination is legible and
> its information tells a longitude.

Specification: 4.3 (Position Decoder) and 7 (Error Handling Design).
-/

namespace Aprs

variable {payload : Bytes} {start : Nat} {instant : Instant}

/-- A report of a position that could not be read has a fault, and takes and tells nothing. -/
theorem PositionReport.failed_outcome {α : Type} [Scalar α] {accepted : Prop} (h : ¬accepted) (cursor : Nat)
    (source : PositionSource) (instant : Instant) (cause : Position.Fault) :
    let read : PositionReport α × Nat := failed cursor source instant cause
    (read.1.fault = none ↔ accepted) ∧
      (read.1.fault ≠ none → read.2 = cursor ∧ read.1.position = .unknown instant) :=
  ⟨⟨fun hfault => (nomatch hfault), fun haccepted => absurd haccepted h⟩, fun _ => ⟨rfl, rfl⟩⟩

/-! ## Compressed positions -/

namespace Compressed

/-- Eight octets are read as two distances exactly if they are digits. -/
theorem distances_eq_ok_iff {field : Bytes} (h : field.length = 8) {north east : Nat} :
    distances field = .ok (north, east) ↔
      (∀ b ∈ field, Base91.IsDigit b) ∧ north = Base91.value (field.take 4) ∧
        east = Base91.value (field.drop 4) := by
  have hfront : (field.take 4).length ≤ 4 := List.length_take_le 4 field
  have hback : (field.drop 4).length ≤ 4 := by
    rw [List.length_drop]
    omega
  have hdigits : (∀ b ∈ field, Base91.IsDigit b) ↔
      (∀ b ∈ field.take 4, Base91.IsDigit b) ∧ ∀ b ∈ field.drop 4, Base91.IsDigit b := by
    rw [← List.forall_mem_append, List.take_append_drop]
  rw [hdigits]
  unfold distances
  constructor
  · intro h
    obtain ⟨n, hnorth, h⟩ := bind_eq_ok_iff.mp h
    obtain ⟨m, heast, h⟩ := bind_eq_ok_iff.mp h
    obtain ⟨rfl, rfl⟩ := Prod.mk.inj (Except.ok.inj h)
    obtain ⟨hnorthDigits, rfl⟩ := (Base91.decode_short_eq_ok_iff hfront).mp hnorth
    obtain ⟨heastDigits, rfl⟩ := (Base91.decode_short_eq_ok_iff hback).mp heast
    exact ⟨⟨hnorthDigits, heastDigits⟩, rfl, rfl⟩
  · rintro ⟨⟨hnorthDigits, heastDigits⟩, rfl, rfl⟩
    exact bind_eq_ok_iff.mpr ⟨_, (Base91.decode_short_eq_ok_iff hfront).mpr ⟨hnorthDigits, rfl⟩,
      bind_eq_ok_iff.mpr ⟨_, (Base91.decode_short_eq_ok_iff hback).mpr ⟨heastDigits, rfl⟩, rfl⟩⟩

/-- The digits of two distances in the octets at a place. -/
def digitsAt (payload : Bytes) (start : Nat) : Bytes := (payload.drop (start + 1)).take 8

/-- Thirteen octets are at a place, and their digits write distances up to the greatest. -/
structure Reachable (payload : Bytes) (start : Nat) : Prop where
  le_length : start + 13 ≤ payload.length
  digits : ∀ b ∈ digitsAt payload start, Base91.IsDigit b
  north_le : Base91.value ((digitsAt payload start).take 4) ≤ Position.greatestDistance
  east_le : Base91.value ((digitsAt payload start).drop 4) ≤ Position.greatestDistance

/-- What a compressed position is read as: a position that takes thirteen octets if it is reachable, and a
fault that takes none if it is not. -/
theorem decode_cases (payload : Bytes) (start : Nat) (instant : Instant) :
    (Reachable payload start ∧ (decode (α := Exact) payload start instant).1.fault = none ∧
        (decode (α := Exact) payload start instant).2 = start + 13) ∨
      ∃ cause, ¬Reachable payload start ∧
        decode (α := Exact) payload start instant =
          PositionReport.failed start .compressed instant cause := by
  have hlength : ((payload.drop start).take width).length = min 13 (payload.length - start) := by
    rw [List.length_take, List.length_drop]
    rfl
  have hfield : (((payload.drop start).take width).drop 1).take 8 = digitsAt payload start := by
    rw [List.drop_take, List.take_take, List.drop_drop]
    rfl
  have hwidth : width = 13 := rfl
  unfold decode
  dsimp only
  rw [hfield]
  split
  · next hroom =>
    refine Or.inr ⟨_, fun h => ?_, rfl⟩
    have := h.le_length
    omega
  next hroom =>
  have hlong : start + 13 ≤ payload.length := by omega
  have height : (digitsAt payload start).length = 8 := by
    unfold digitsAt
    rw [List.length_take, List.length_drop]
    omega
  split
  · next cause hread =>
    refine Or.inr ⟨_, fun h => ?_, rfl⟩
    rw [(distances_eq_ok_iff height).mpr ⟨h.digits, rfl, rfl⟩] at hread
    contradiction
  next north east hread =>
  obtain ⟨hdigits, rfl, rfl⟩ := (distances_eq_ok_iff height).mp hread
  split
  · next hrange =>
    obtain ⟨hnorth, heast⟩ := Bool.and_eq_true_iff.mp hrange
    exact Or.inl ⟨⟨hlong, hdigits, inRange_latitude_iff.mp hnorth, inRange_longitude_iff.mp heast⟩, rfl, rfl⟩
  · next hrange =>
    refine Or.inr ⟨_, fun h => hrange (Bool.and_eq_true_iff.mpr ?_), rfl⟩
    exact ⟨inRange_latitude_iff.mpr h.north_le, inRange_longitude_iff.mpr h.east_le⟩

/-- **A compressed position is read without a fault exactly if it is reachable**: thirteen octets are there,
and eight of them are base-91 digits that write distances up to the greatest. Then these octets are taken,
and otherwise none are, and the position is unknown. -/
theorem decode_reachable_iff (payload : Bytes) (start : Nat) (instant : Instant) :
    let read : PositionReport Exact × Nat := decode payload start instant
    (read.1.fault = none ↔ Reachable payload start) ∧
      (read.1.fault ≠ none → read.2 = start ∧ read.1.position = .unknown instant) ∧
      (read.1.fault = none → read.2 = start + 13) := by
  intro read
  rcases decode_cases payload start instant with ⟨hreachable, hfault, hcursor⟩ | ⟨cause, hnot, hread⟩
  · exact ⟨iff_of_true hfault hreachable, fun h => absurd hfault h, fun _ => hcursor⟩
  · obtain ⟨hiff, hnothing⟩ :=
      PositionReport.failed_outcome (α := Exact) hnot start .compressed instant cause
    rw [← hread] at hiff hnothing
    exact ⟨hiff, hnothing, fun h => absurd (hiff.mp h) hnot⟩

end Compressed

/-! ## The destination of a Mic-E report -/

namespace MicE

/-- A character of a digit or of a blank: from `0` to `9`, from `A` to `L`, or from `P` to `Z`. -/
def IsDestination (b : UInt8) : Prop :=
  0x30 ≤ b.toNat ∧ b.toNat ≤ 0x39 ∨ 0x41 ≤ b.toNat ∧ b.toNat ≤ 0x4C ∨
    0x50 ≤ b.toNat ∧ b.toNat ≤ 0x5A

/-- The characters of a blank are `K`, `L` and `Z`. -/
def isBlank (b : UInt8) : Bool := b.toNat = 0x4B || b.toNat = 0x4C || b.toNat = 0x5A

/-- The digit of a character, zero for a blank. -/
def digitOf (b : UInt8) : Nat :=
  if isBlank b then 0
  else if b.toNat ≤ 0x39 then b.toNat - 0x30
  else if b.toNat ≤ 0x4A then b.toNat - 0x41
  else b.toNat - 0x50

/-- The characters from `P` to `Z` set a flag. -/
def isFlag (b : UInt8) : Bool := 0x50 ≤ b.toNat && b.toNat ≤ 0x5A

/-- The bit of the status that a character sets. -/
def bitOf (b : UInt8) : StatusBit :=
  if isFlag b then .standard else if 0x41 ≤ b.toNat ∧ b.toNat ≤ 0x4B then .custom else .zero

/-- What a character of the destination says. -/
def column (b : UInt8) : DestinationCharacter :=
  ⟨if isBlank b then none else some (digitOf b), isFlag b, bitOf b⟩

/-- A character of one of the three rows is read as its column. -/
theorem destinationCharacter_of_isDestination {b : UInt8} (h : IsDestination b) :
    destinationCharacter b = .ok (column b) := by
  have hranges : b.toNat = 0x4B ∨ b.toNat = 0x4C ∨ b.toNat = 0x5A ∨
      (0x30 ≤ b.toNat ∧ b.toNat ≤ 0x39) ∨ (0x41 ≤ b.toNat ∧ b.toNat ≤ 0x4A) ∨
        0x50 ≤ b.toNat ∧ b.toNat ≤ 0x59 := by
    unfold IsDestination at h
    omega
  unfold destinationCharacter column digitOf bitOf isFlag isBlank
  dsimp only
  generalize b.toNat = n at hranges
  rcases hranges with rfl | rfl | rfl | hdigit | hdigit | hdigit
  · rfl
  · rfl
  · rfl
  all_goals
    simp (disch := omega) only [decide_eq_false, decide_eq_true, if_pos, if_neg, if_false, if_true,
      Bool.or_false, Bool.and_true, Bool.false_eq_true]

/-- Any other character is refused. -/
theorem destinationCharacter_of_not_isDestination {b : UInt8} (h : ¬IsDestination b) :
    destinationCharacter b = .error .destinationCharacter := by
  unfold IsDestination at h
  unfold destinationCharacter
  simp (disch := omega) only [if_neg]

/-- **The characters of the destination are read as what they say**, and no others are. -/
theorem destinationCharacter_eq_ok_iff {b : UInt8} {c : DestinationCharacter} :
    destinationCharacter b = .ok c ↔ IsDestination b ∧ c = column b := by
  by_cases h : IsDestination b
  · rw [destinationCharacter_of_isDestination h]
    exact ⟨fun hc => ⟨h, (Except.ok.inj hc).symm⟩, fun hc => congrArg Except.ok hc.2.symm⟩
  · rw [destinationCharacter_of_not_isDestination h]
    exact ⟨fun hc => (nomatch hc), fun hc => absurd hc.1 h⟩

/-- A destination is read exactly if each of its characters is. -/
theorem mapM_eq_ok_iff {octets : Bytes} :
    ∀ {chars : List DestinationCharacter}, octets.mapM destinationCharacter = .ok chars ↔
      (∀ b ∈ octets, IsDestination b) ∧ chars = octets.map column := by
  induction octets with
  | nil =>
    intro chars
    exact ⟨fun h => ⟨fun b hb => absurd hb List.not_mem_nil, (Except.ok.inj h).symm⟩,
      fun ⟨_, h⟩ => congrArg Except.ok h.symm⟩
  | cons b rest ih =>
    intro chars
    rw [List.mapM_cons, List.forall_mem_cons, List.map_cons]
    constructor
    · intro h
      obtain ⟨c, hc, h⟩ := bind_eq_ok_iff.mp h
      obtain ⟨others, hothers, h⟩ := bind_eq_ok_iff.mp h
      obtain ⟨hb, rfl⟩ := destinationCharacter_eq_ok_iff.mp hc
      obtain ⟨hrest, rfl⟩ := ih.mp hothers
      exact ⟨⟨hb, hrest⟩, (Except.ok.inj h).symm⟩
    · rintro ⟨⟨hb, hrest⟩, rfl⟩
      exact bind_eq_ok_iff.mpr ⟨_, destinationCharacter_eq_ok_iff.mpr ⟨hb, rfl⟩,
        bind_eq_ok_iff.mpr ⟨_, ih.mpr ⟨hrest, rfl⟩, rfl⟩⟩

/-- The blanks are the characters without a digit. -/
theorem isNone_column (b : UInt8) : (column b).digit.isNone = isBlank b := by
  unfold column
  cases isBlank b <;> rfl

theorem getD_column (b : UInt8) : (column b).digit.getD 0 = digitOf b := by
  unfold column digitOf
  cases isBlank b <;> rfl

/-- The degrees of latitude in the octets of a call. -/
def degreesOf (call : Bytes) : Nat := digitOf (call.getD 0 0) * 10 + digitOf (call.getD 1 0)

/-- The hundredths of minutes of latitude in the octets of a call, blanks counting as zeros. -/
def hundredthsOf (call : Bytes) : Nat :=
  digitOf (call.getD 2 0) * 1000 + digitOf (call.getD 3 0) * 100 + digitOf (call.getD 4 0) * 10 +
    digitOf (call.getD 5 0)

/-- How many of the last characters of a destination are blank. -/
def trailingBlanks (call : Bytes) : Nat := ((call.take 6).reverse.takeWhile isBlank).length

/-- A call of which the first six octets are a destination: its characters are allowed, up to four are blank
and stand behind all others, and its digits tell a latitude. -/
structure Legible (call : Bytes) : Prop where
  le_length : 6 ≤ call.length
  allowed : ∀ b ∈ call.take 6, IsDestination b
  blanks : ∃ digits blanks, call.take 6 = digits ++ blanks ∧ blanks.length ≤ 4 ∧
    (∀ b ∈ digits, isBlank b = false) ∧ ∀ b ∈ blanks, isBlank b = true
  degrees_le : degreesOf call ≤ 89
  hundredths_lt : hundredthsOf call < 6000

/-- What a legible call says. -/
def destinationOf (call : Bytes) : Destination where
  latitude := ⟨degreesOf call, hundredthsOf call, !isFlag (call.getD 3 0)⟩
  ambiguity := trailingBlanks call
  offset := isFlag (call.getD 4 0)
  west := isFlag (call.getD 5 0)
  status := status (bitOf (call.getD 0 0)) (bitOf (call.getD 1 0)) (bitOf (call.getD 2 0))

/-- Blanks leave a gap unless they are few and the last. -/
theorem blanks_iff {call : Bytes} (h : 6 ≤ call.length) :
    ¬(4 < trailingBlanks call ∨ ((call.take 6).take (6 - trailingBlanks call)).any isBlank = true) ↔
      ∃ digits blanks, call.take 6 = digits ++ blanks ∧ blanks.length ≤ 4 ∧
        (∀ b ∈ digits, isBlank b = false) ∧ ∀ b ∈ blanks, isBlank b = true := by
  have hsix : (call.take 6).length = 6 := List.length_take_of_le h
  have htrailing (count : Nat) := @Angle.trailing_iff _ isBlank (call.take 6) count
  rw [hsix] at htrailing
  constructor
  · intro hgap
    have hfew : trailingBlanks call ≤ 4 := Nat.not_lt.mp fun hmany => hgap (Or.inl hmany)
    have hkept := Bool.eq_false_iff.mpr fun hany => hgap (Or.inr hany)
    obtain ⟨digits, blanks, hsplit, hlast, hdigits, hblanks⟩ := (htrailing _).mp ⟨rfl, hkept⟩
    exact ⟨digits, blanks, hsplit, Nat.le_trans (Nat.le_of_eq hlast) hfew, hdigits, hblanks⟩
  · rintro ⟨digits, blanks, hsplit, hfew, hdigits, hblanks⟩
    obtain ⟨hlast, hkept⟩ := (htrailing _).mpr ⟨digits, blanks, hsplit, rfl, hdigits, hblanks⟩
    unfold trailingBlanks
    rw [hlast, hkept]
    rintro (hmany | hany)
    · exact Nat.not_lt.mpr hfew hmany
    · contradiction

theorem exists_six {call : Bytes} (h : 6 ≤ call.length) :
    ∃ u v w x y z rest, call = u :: v :: w :: x :: y :: z :: rest := by
  match call, h with
  | u :: v :: w :: x :: y :: z :: rest, _ => exact ⟨u, v, w, x, y, z, rest, rfl⟩

/-- Of characters that are allowed it matters where the blanks are and what the digits tell. -/
theorem destination_eq_ite {call : Bytes} (h : 6 ≤ call.length)
    (hallowed : ∀ b ∈ call.take 6, IsDestination b) :
    destination call =
      if 4 < trailingBlanks call ∨ ((call.take 6).take (6 - trailingBlanks call)).any isBlank = true then
        .error .gap
      else if 89 < degreesOf call ∨ 6000 ≤ hundredthsOf call then .error .latitudeOutOfRange
      else .ok (destinationOf call) := by
  have hroom : ¬call.length < destinationLength := Nat.not_lt.mpr h
  have hchars : (call.take destinationLength).mapM destinationCharacter =
      .ok ((call.take 6).map column) := mapM_eq_ok_iff.mpr ⟨hallowed, rfl⟩
  have hnone : (fun c : DestinationCharacter => c.digit.isNone) ∘ column = isBlank :=
    funext isNone_column
  have hblanks : (((call.take 6).map column).reverse.takeWhile fun c => c.digit.isNone).length =
      trailingBlanks call := by
    rw [← List.map_reverse, List.takeWhile_map, List.length_map, hnone]
    rfl
  unfold destination
  rw [if_neg hroom, hchars]
  simp only [bind, Except.bind]
  rw [hblanks, ← List.map_take, List.any_map, hnone]
  obtain ⟨u, v, w, x, y, z, rest, rfl⟩ := exists_six h
  simp only [degreesOf, hundredthsOf, destinationOf, List.getD_cons_zero, List.getD_cons_succ,
    ← getD_column]
  rfl

/-- **A destination is read exactly if it is legible**, and as what its characters say. -/
theorem destination_eq_ok_iff {call : Bytes} {d : Destination} :
    destination call = .ok d ↔ Legible call ∧ d = destinationOf call := by
  by_cases henough : 6 ≤ call.length
  case neg =>
    have hshort : destination call = .error .shortDestination := if_pos (Nat.not_le.mp henough)
    rw [hshort]
    exact ⟨fun h => (nomatch h), fun h => absurd h.1.le_length henough⟩
  by_cases hallowed : ∀ b ∈ call.take 6, IsDestination b
  case neg =>
    refine ⟨fun h => ?_, fun h => absurd h.1.allowed hallowed⟩
    have hroom : ¬call.length < destinationLength := Nat.not_lt.mpr henough
    unfold destination at h
    rw [if_neg hroom] at h
    obtain ⟨chars, hchars, -⟩ := bind_eq_ok_iff.mp h
    exact absurd (mapM_eq_ok_iff.mp hchars).1 hallowed
  rw [destination_eq_ite henough hallowed]
  constructor
  · intro h
    split at h
    · contradiction
    next hblanks =>
    split at h
    · contradiction
    next hlimits =>
      obtain ⟨hdegrees, hhundredths⟩ := not_or.mp hlimits
      exact ⟨⟨henough, hallowed, (blanks_iff henough).mp hblanks, Nat.not_lt.mp hdegrees, Nat.not_le.mp hhundredths⟩,
        (Except.ok.inj h).symm⟩
  · rintro ⟨h, rfl⟩
    have hlimits : ¬(89 < degreesOf call ∨ 6000 ≤ hundredthsOf call) :=
      not_or.mpr ⟨Nat.not_lt.mpr h.degrees_le, Nat.not_le.mpr h.hundredths_lt⟩
    rw [if_neg ((blanks_iff henough).mpr h.blanks), if_neg hlimits]

/-! ## The information of a Mic-E report -/

/-- The number that an octet of the information sends. -/
def sent (payload : Bytes) (place : Nat) : Int := ((payload.getD place 0).toNat : Int) - 28

/-- The degrees that a number of degrees stands for: those from 180 to 189 for 100 to 109, and those from
190 to 199 for 0 to 9. -/
def carried (degrees : Int) : Int :=
  if 180 ≤ degrees ∧ degrees ≤ 189 then degrees - 80
  else if 190 ≤ degrees ∧ degrees ≤ 199 then degrees - 190
  else degrees

/-- Nine octets of information that tell a longitude, with an offset or without one. -/
structure Informative (payload : Bytes) (offset : Bool) : Prop where
  le_length : 9 ≤ payload.length
  degrees : 0 ≤ carried (sent payload 1 + if offset then 100 else 0) ∧
    carried (sent payload 1 + if offset then 100 else 0) ≤ 179
  minutes : 0 ≤ sent payload 2 ∧ sent payload 2 ≤ 119
  hundredths : 0 ≤ sent payload 3 ∧ sent payload 3 ≤ 99

/-- Three octets are read as a longitude exactly if their information tells one. -/
theorem longitude_isOk_iff {d : Destination} {kind degrees minutes hundredths : UInt8} {behind : Bytes}
    (hbehind : 5 ≤ behind.length) :
    (∃ a, longitude d degrees minutes hundredths = .ok a) ↔
      Informative (kind :: degrees :: minutes :: hundredths :: behind) d.offset := by
  have hlength : 9 ≤ (kind :: degrees :: minutes :: hundredths :: behind).length := by
    simp only [List.length_cons]
    omega
  have hdegrees : carried (sent (kind :: degrees :: minutes :: hundredths :: behind) 1 +
      if d.offset then 100 else 0) = longitudeDegrees degrees d.offset := rfl
  have hminutes : sent (kind :: degrees :: minutes :: hundredths :: behind) 2 =
      (minutes.toNat : Int) - 28 := rfl
  have hhundredths : sent (kind :: degrees :: minutes :: hundredths :: behind) 3 =
      (hundredths.toNat : Int) - 28 := rfl
  have hsixty : 0 ≤ longitudeMinutes minutes ∧ longitudeMinutes minutes < 60 ↔
      0 ≤ (minutes.toNat : Int) - 28 ∧ (minutes.toNat : Int) - 28 ≤ 119 := by
    unfold longitudeMinutes
    dsimp only
    split <;> omega
  unfold longitude
  dsimp only
  split
  · next hrange =>
    refine ⟨fun _ => ⟨hlength, ?_, ?_, ?_⟩, fun _ => ⟨_, rfl⟩⟩
    · rw [hdegrees]
      omega
    · rw [hminutes]
      omega
    · rw [hhundredths]
      omega
  · next hrange =>
    refine ⟨fun ⟨_, h⟩ => (nomatch h), fun h => absurd ?_ hrange⟩
    have hall := And.intro h.degrees (And.intro h.minutes h.hundredths)
    rw [hdegrees, hminutes, hhundredths] at hall
    omega

/-! ## The report -/

variable {α : Type} [Scalar α]

theorem fault_of_read {call : Bytes} {result : PositionReport α × Nat}
    (h : read payload call instant = .ok result) : result.1.fault = none := by
  unfold read at h
  obtain ⟨d, -, h⟩ := bind_eq_ok_iff.mp h
  split at h
  · obtain ⟨lon, -, h⟩ := bind_eq_ok_iff.mp h
    rw [← Except.ok.inj h]
  · contradiction

/-- A report is read exactly if its destination is legible and its information tells a longitude. -/
theorem read_isOk_iff {call : Bytes} :
    (∃ result : PositionReport α × Nat, read payload call instant = .ok result) ↔
      Legible call ∧ Informative payload (isFlag (call.getD 4 0)) := by
  constructor
  · rintro ⟨result, h⟩
    unfold read at h
    obtain ⟨d, hdestination, h⟩ := bind_eq_ok_iff.mp h
    obtain ⟨hlegible, rfl⟩ := destination_eq_ok_iff.mp hdestination
    split at h
    · obtain ⟨lon, hlongitude, -⟩ := bind_eq_ok_iff.mp h
      exact ⟨hlegible, (longitude_isOk_iff (Nat.le_add_left 5 _)).mp ⟨lon, hlongitude⟩⟩
    · contradiction
  · rintro ⟨hlegible, hinformative⟩
    match payload, hinformative.le_length with
    | kind :: degrees :: minutes :: hundredths :: sp :: dc :: se :: code :: table :: rest, _ =>
      obtain ⟨lon, hlongitude⟩ :=
        (longitude_isOk_iff (d := destinationOf call) (Nat.le_add_left 5 _)).mpr hinformative
      unfold read
      rw [destination_eq_ok_iff.mpr ⟨hlegible, rfl⟩]
      simp only [bind, Except.bind, hlongitude]
      exact ⟨_, rfl⟩

/-- **A Mic-E report is read without a fault exactly if its destination is legible and its information tells
a longitude**, to which the fifth character of the destination may add an offset. Otherwise nothing but the
identifier is taken, and the position is unknown. -/
theorem decode_legible_iff (payload : Bytes) (destination : Callsign) (instant : Instant) :
    let call := Utf8.encode destination.call
    let read : PositionReport α × Nat := decode payload destination instant
    (read.1.fault = none ↔ Legible call ∧ Informative payload (isFlag (call.getD 4 0))) ∧
      (read.1.fault ≠ none → read.2 = 1 ∧ read.1.position = .unknown instant) := by
  intro call report
  have hreport : report = decode payload destination instant := rfl
  unfold decode at hreport
  split at hreport
  · next result hread =>
    have hfault : report.1.fault = none := hreport ▸ fault_of_read hread
    exact ⟨iff_of_true hfault (read_isOk_iff.mp ⟨result, hread⟩), fun h => absurd hfault h⟩
  · next cause hread =>
    rw [hreport]
    refine PositionReport.failed_outcome (fun h => ?_) 1 .micE instant (.micE cause)
    have hisOk : ∃ result : PositionReport α × Nat, read payload call instant = .ok result :=
      read_isOk_iff.mpr h
    obtain ⟨result, hresult⟩ := hisOk
    rw [hread] at hresult
    contradiction

end MicE

end Aprs
