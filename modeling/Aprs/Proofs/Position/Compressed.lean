import Aprs.Position.Decode
import Aprs.Proofs.Base91
import Aprs.Proofs.Position.Text
import Aprs.Text.Utf8.RoundTrip

/-!
# Compressed positions are read as they are written

A unit of the compressed form is finer than the fifth place of a degree. A coordinate is written as the
nearest number of units, half a unit away at most, which is less than half of the last place, so rounding
what is read finds the coordinate again (`latitude_compressedLatitude`, `longitude_compressedLongitude`).
From pole to pole and around the earth these numbers have room in four digits, and what they stand for is
within the limits:

> `compressed_roundTrip`: a position on the earth is read from its compressed form without fault, with the
> symbol and the coordinates that it had.

Specification: 4.3 (Position Decoder) and 8 (Testable Properties).
-/

namespace Aprs

/-! ## The last place of a coordinate -/

namespace Position

/-- A number that is rounded to five places is a whole number of the last of them. -/
theorem exists_value_roundPlaces (x : Exact) :
    ∃ k : Int, (roundPlaces x).value = (k : Rat) / (100000 : Nat) := by
  have hround : ∃ k : Int, (Scalar.round (x * Scalar.ofNat 100000)).value = (k : Rat) := by
    generalize x * Scalar.ofNat 100000 = scaled
    show ∃ k : Int, (if scaled.negative then _ else _) = (k : Rat)
    cases scaled.negative with
    | false => exact ⟨Exact.nearest (Exact.abs scaled.value), rfl⟩
    | true => exact ⟨-Exact.nearest (Exact.abs scaled.value), (Rat.intCast_neg _).symm⟩
  obtain ⟨k, hk⟩ := hround
  refine ⟨k, ?_⟩
  unfold roundPlaces
  rw [Exact.value_div, Exact.value_ofNat, hk]

/-- A number within less than half of the last place is rounded to that place. -/
theorem value_roundPlaces_eq {x : Exact} {k : Int} (hlow : (k : Rat) - 1 / 2 < x.value * (100000 : Nat))
    (hhigh : x.value * (100000 : Nat) < (k : Rat) + 1 / 2) :
    (roundPlaces x).value = (k : Rat) / (100000 : Nat) := by
  have hround : (Scalar.round (x * Scalar.ofNat 100000)).value = k := Exact.value_round_eq hlow hhigh
  unfold roundPlaces
  rw [Exact.value_div, Exact.value_ofNat, hround]

/-- A number within limits is rounded to one within them. -/
theorem roundPlaces_within {x : Exact} {limit : Nat} (hlow : -(limit : Rat) ≤ x.value)
    (hhigh : x.value ≤ limit) :
    -(limit : Rat) ≤ (roundPlaces x).value ∧ (roundPlaces x).value ≤ limit := by
  have habs := abs_roundPlaces_le (Exact.abs_le hlow hhigh)
  unfold Exact.abs at habs
  split at habs <;> constructor <;> grind

/-- A number that differs from one with five places by at most half a unit finer than the last of them
is rounded to it. -/
theorem value_roundPlaces_of_near {x y : Exact} {k : Int} {units : Nat} (hunits : 100000 < units)
    (hplaces : x.value = (k : Rat) / (100000 : Nat)) (hlow : -(1 / 2) ≤ (y.value - x.value) * units)
    (hhigh : (y.value - x.value) * units ≤ 1 / 2) : (roundPlaces y).value = x.value := by
  -- a difference counts for less in the last place than in units
  have hless {d : Rat} (hd : d * units ≤ 1 / 2) : d * (100000 : Nat) < 1 / 2 := by
    by_cases hpos : 0 < d
    · have hfiner := Rat.mul_lt_mul_of_pos_left (Rat.natCast_lt_natCast.mpr hunits) hpos
      grind
    · grind
  have hup := hless hhigh
  have hdown : -(y.value - x.value) * (100000 : Nat) < 1 / 2 := hless (by grind)
  rw [hplaces] at hup hdown ⊢
  exact value_roundPlaces_eq (by grind) (by grind)

/-! ## Distances in compressed units -/

/-- The distance from the north pole to the south pole, and once around the earth, in compressed units. -/
def greatestDistance : Nat := 68566680

theorem greatestDistance_lt : greatestDistance < Nat.pow Base91.radix 4 := by decide

/-- A distance is written within half a unit. -/
theorem rounded32_units {d : Exact} {units : Nat} (hunits : 0 < units) (hnonneg : 0 ≤ d.value)
    (hgreatest : units * d.value ≤ greatestDistance) :
    Scalar.rounded32 (Scalar.ofNat units * d) ≤ greatestDistance ∧
      -(1 / 2) ≤ ((Scalar.rounded32 (Scalar.ofNat units * d) : Rat) / units - d.value) * units ∧
      ((Scalar.rounded32 (Scalar.ofNat units * d) : Rat) / units - d.value) * units ≤ 1 / 2 := by
  have hpos : (0 : Rat) < units := Rat.natCast_pos.mpr hunits
  have hproduct : 0 ≤ (Scalar.ofNat units * d : Exact).value :=
    Rat.mul_nonneg (Rat.le_of_lt hpos) hnonneg
  obtain ⟨hroom, hnear, hnear'⟩ := Exact.rounded32_bounds hproduct hgreatest (by decide)
  have hvalue : (Scalar.ofNat units * d : Exact).value = units * d.value := rfl
  rw [hvalue] at hnear hnear'
  have hcancel : ((Scalar.rounded32 (Scalar.ofNat units * d) : Rat) / units - d.value) * units =
      Scalar.rounded32 (Scalar.ofNat units * d) - units * d.value := by
    have hquotient := Rat.div_mul_cancel (a := (Scalar.rounded32 (Scalar.ofNat units * d) : Rat))
      (Rat.ne_of_gt hpos)
    grind
  rw [hcancel]
  exact ⟨hroom, by grind, by grind⟩

/-- **A latitude is found again** at the distance at which it is written. -/
theorem latitude_compressedLatitude {x : Exact} {k : Int} (hplaces : x.value = (k : Rat) / (100000 : Nat))
    (hlow : -90 ≤ x.value) (hhigh : x.value ≤ 90) :
    compressedLatitude x ≤ greatestDistance ∧
      (roundPlaces (Compressed.latitude (compressedLatitude x) : Exact)).value = x.value := by
  have hdistance : (Scalar.ofNat 90 - x : Exact).value = 90 - x.value := rfl
  have hgreatest : (latitudeUnits : Rat) * (90 - x.value) ≤ greatestDistance := by
    have hunits : (latitudeUnits : Rat) = 380926 := rfl
    have hend : (greatestDistance : Rat) = 68566680 := rfl
    rw [hunits, hend]
    grind
  obtain ⟨hroom, hnear, hnear'⟩ := rounded32_units (d := Scalar.ofNat 90 - x)
    (show 0 < latitudeUnits by decide) (by rw [hdistance]; grind) hgreatest
  rw [hdistance] at hnear hnear'
  have hread : (Compressed.latitude (compressedLatitude x) : Exact).value =
      90 - (compressedLatitude x : Rat) / latitudeUnits := rfl
  refine ⟨hroom, value_roundPlaces_of_near (show 100000 < latitudeUnits by decide) hplaces ?_ ?_⟩
  · rw [hread]
    unfold compressedLatitude
    grind
  · rw [hread]
    unfold compressedLatitude
    grind

/-- **A longitude is found again** at the distance at which it is written. -/
theorem longitude_compressedLongitude {x : Exact} {k : Int}
    (hplaces : x.value = (k : Rat) / (100000 : Nat)) (hlow : -180 ≤ x.value) (hhigh : x.value ≤ 180) :
    compressedLongitude x ≤ greatestDistance ∧
      (roundPlaces (Compressed.longitude (compressedLongitude x) : Exact)).value = x.value := by
  have hdistance : (Scalar.ofNat 180 + x : Exact).value = 180 + x.value := rfl
  have hgreatest : (longitudeUnits : Rat) * (180 + x.value) ≤ greatestDistance := by
    have hunits : (longitudeUnits : Rat) = 190463 := rfl
    have hend : (greatestDistance : Rat) = 68566680 := rfl
    rw [hunits, hend]
    grind
  obtain ⟨hroom, hnear, hnear'⟩ := rounded32_units (d := Scalar.ofNat 180 + x)
    (show 0 < longitudeUnits by decide) (by rw [hdistance]; grind) hgreatest
  rw [hdistance] at hnear hnear'
  have hread : (Compressed.longitude (compressedLongitude x) : Exact).value =
      -180 + (compressedLongitude x : Rat) / longitudeUnits := rfl
  refine ⟨hroom, value_roundPlaces_of_near (show 100000 < longitudeUnits by decide) hplaces ?_ ?_⟩
  · rw [hread]
    unfold compressedLongitude
    grind
  · rw [hread]
    unfold compressedLongitude
    grind

end Position

/-! ## Symbols -/

namespace Compressed

/-- The symbol tables: the two tables and the overlays. -/
def symbolTables : List Char := "/\\ABCDEFGHIJKLMNOPQRSTUVWXYZ0123456789".toList

/-- The octet of a symbol table opens a compressed position and stands for the table, an overlay digit
included. -/
theorem table_compressedTable {table : Char} (h : table ∈ symbolTables) :
    (Position.compressedTable table).toNat < 0x80 ∧
      PositionReport.opensCompressed (UInt8.ofNat (Position.compressedTable table).toNat) = true ∧
      Compressed.table (UInt8.ofNat (Position.compressedTable table).toNat) = table := by
  have hall : symbolTables.all (fun table => (Position.compressedTable table).toNat < 0x80 ∧
      PositionReport.opensCompressed (UInt8.ofNat (Position.compressedTable table).toNat) = true ∧
      Compressed.table (UInt8.ofNat (Position.compressedTable table).toNat) = table) = true := by
    decide
  exact of_decide_eq_true (List.all_eq_true.mp hall table h)

/-! ## Limits -/

theorem inRange_iff {axis : Axis} {x : Exact} :
    inRange axis x = true ↔ -(axis.limit : Rat) ≤ x.value ∧ x.value ≤ axis.limit := by
  show (decide (-(axis.limit : Rat) ≤ x.value) && decide (x.value ≤ axis.limit)) = true ↔ _
  rw [Bool.and_eq_true, decide_eq_true_eq, decide_eq_true_eq]

/-- The distances up to the greatest are those that do not lead beyond a pole. -/
theorem inRange_latitude_iff {n : Nat} :
    inRange .latitude (latitude n : Exact) = true ↔ n ≤ Position.greatestDistance := by
  have hvalue : (latitude n : Exact).value = 90 - (n : Rat) / 380926 := rfl
  have hlimit : ((Axis.latitude.limit : Nat) : Rat) = 90 := rfl
  have hgreatest : ((Position.greatestDistance : Nat) : Rat) = 68566680 := rfl
  have hnonneg : (0 : Rat) ≤ n := Rat.natCast_nonneg
  rw [inRange_iff, hvalue, hlimit, ← Rat.natCast_le_natCast, hgreatest]
  constructor <;> grind

/-- The distances up to the greatest are those that do not lead beyond the date line. -/
theorem inRange_longitude_iff {n : Nat} :
    inRange .longitude (longitude n : Exact) = true ↔ n ≤ Position.greatestDistance := by
  have hvalue : (longitude n : Exact).value = -180 + (n : Rat) / 190463 := rfl
  have hlimit : ((Axis.longitude.limit : Nat) : Rat) = 180 := rfl
  have hgreatest : ((Position.greatestDistance : Nat) : Rat) = 68566680 := rfl
  have hnonneg : (0 : Rat) ≤ n := Rat.natCast_nonneg
  rw [inRange_iff, hvalue, hlimit, ← Rat.natCast_le_natCast, hgreatest]
  constructor <;> grind

/-! ## Positions -/

/-- Two coordinates within their limits are a position, whatever stands behind them. -/
theorem decode_eq_ok {payload north east rest : Bytes} {first code c s t : UInt8} {start n m : Nat}
    (hpayload : payload.drop start = first :: (north ++ east) ++ code :: c :: s :: t :: rest)
    (hnorth : north.length = 4) (heast : east.length = 4) (hn : Base91.decode north = .ok n)
    (hm : Base91.decode east = .ok m)
    (hlatitude : inRange .latitude (latitude n : Exact) = true)
    (hlongitude : inRange .longitude (longitude m : Exact) = true) (instant : Instant) :
    ∃ (altitude : Option Exact) (extension : Option Extension),
      decode payload start instant =
        (⟨{ Position.make (latitude n) (longitude m) 0 (table first) (charOfByte code) instant with
              altitude }, .compressed, extension, none, none⟩, start + width) := by
  have hlength : (first :: (north ++ east) ++ [code, c, s, t]).length = 13 := by
    simp only [List.length_append, List.length_cons, List.length_nil, hnorth, heast]
  have hfield : (payload.drop start).take width = first :: (north ++ east) ++ [code, c, s, t] := by
    have hsplit : first :: (north ++ east) ++ code :: c :: s :: t :: rest =
        (first :: (north ++ east) ++ [code, c, s, t]) ++ rest := by
      rw [List.append_assoc _ [code, c, s, t] rest]
      rfl
    rw [hpayload, hsplit]
    exact List.take_left' hlength
  have hroom : ¬(first :: (north ++ east) ++ [code, c, s, t]).length < width :=
    hlength ▸ Nat.lt_irrefl 13
  have height : (north ++ east).length = 8 := by rw [List.length_append, hnorth, heast]
  have hdistances : distances (((first :: (north ++ east) ++ [code, c, s, t]).drop 1).take 8) =
      .ok (n, m) := by
    have hdigits : ((first :: (north ++ east) ++ [code, c, s, t]).drop 1).take 8 = north ++ east :=
      List.take_left' height
    rw [hdigits]
    unfold distances
    rw [List.take_left' hnorth, List.drop_left' hnorth, hn, hm]
    rfl
  have hsymbol : (first :: (north ++ east) ++ [code, c, s, t]).getD 9 0 = code := by
    simp [List.getD_eq_getElem?_getD, hnorth, heast]
  unfold decode
  dsimp only
  rw [hfield, if_neg hroom, hdistances, hsymbol]
  dsimp only
  rw [hlatitude, hlongitude]
  exact ⟨_, _, rfl⟩

end Compressed

namespace PositionReport

/-- A payload in which a symbol table begins the position behind an exclamation mark is read as a
compressed one. -/
theorem decode_symbolTable {b : UInt8} (hopens : opensCompressed b = true) (more : Bytes)
    (destination : Callsign) (instant : Instant) :
    decode (α := Exact) (0x21 :: b :: more) 1 destination instant =
      Compressed.decode (0x21 :: b :: more) 1 instant := by
  show decodePlain (0x21 :: b :: more) 1 instant = _
  show (if opensCompressed b then _ else _) = _
  rw [hopens]
  rfl

end PositionReport

namespace Position

/-- A position that the compressed form can write: its coordinates are places on the earth, its table has
an octet of its own, and its code is a character of ASCII. -/
structure Compressible (p : Position Exact) : Prop where
  latitude : ∃ k : Int, p.latitude.value = (k : Rat) / (100000 : Nat)
  longitude : ∃ k : Int, p.longitude.value = (k : Rat) / (100000 : Nat)
  poles : -((90 : Nat) : Rat) ≤ p.latitude.value ∧ p.latitude.value ≤ (90 : Nat)
  dateLine : -((180 : Nat) : Rat) ≤ p.longitude.value ∧ p.longitude.value ≤ (180 : Nat)
  table : p.table ∈ Compressed.symbolTables
  code : p.code.toNat < 0x80

/-- A position made at a place on the earth is one. -/
theorem make_compressible {latitude longitude : Exact}
    (hlatitude : -90 ≤ latitude.value ∧ latitude.value ≤ 90)
    (hlongitude : -180 ≤ longitude.value ∧ longitude.value ≤ 180) {table code : Char}
    (htable : table ∈ Compressed.symbolTables) (hcode : code.toNat < 0x80) (ambiguity : Nat)
    (instant : Instant) : (make latitude longitude ambiguity table code instant).Compressible where
  latitude := exists_value_roundPlaces latitude
  longitude := exists_value_roundPlaces longitude
  poles := roundPlaces_within hlatitude.1 hlatitude.2
  dateLine := roundPlaces_within hlongitude.1 hlongitude.2
  table := htable
  code := hcode

/-- The octets of the compressed form, with three characters for the course and speed. -/
theorem encode_compressed {p : Position Exact} (h : p.Compressible) {c s t : Char}
    (hascii : ∀ x ∈ [c, s, t], x.toNat < 0x80) :
    Utf8.encode (p.compressed [c, s, t]) =
      UInt8.ofNat (compressedTable p.table).toNat ::
        (Base91.encode 4 (compressedLatitude p.latitude) ++
          Base91.encode 4 (compressedLongitude p.longitude)) ++
        [UInt8.ofNat p.code.toNat, UInt8.ofNat c.toNat, UInt8.ofNat s.toNat, UInt8.ofNat t.toNat] := by
  have hdigits (n : Nat) : Utf8.encode (compressedText n) = Base91.encode 4 n :=
    Utf8.encode_map_charOfByte fun b hb => Base91.digits_ascii hb
  have hsize : Utf8.size [c, s, t] = 3 := Utf8.length_encode_ascii hascii
  unfold compressed
  rw [if_pos hsize, Utf8.encode_append, Utf8.encode_append, Utf8.encode_cons_ascii h.code,
    Utf8.encode_cons_ascii (Compressed.table_compressedTable h.table).1, hdigits, hdigits,
    Utf8.encode_ascii hascii, List.cons_append]
  rfl

/-- The compressed form of a position is read as what its two distances stand for. -/
theorem decode_compressed {p : Position Exact} (h : p.Compressible) {c s t : Char}
    (hascii : ∀ x ∈ [c, s, t], x.toNat < 0x80) (rest : Bytes) (destination : Callsign)
    (instant : Instant) :
    ∃ (altitude : Option Exact) (extension : Option Extension),
      PositionReport.decode (Utf8.encode ('!' :: p.compressed [c, s, t]) ++ rest) 1 destination instant =
        (⟨{ make (Compressed.latitude (compressedLatitude p.latitude))
              (Compressed.longitude (compressedLongitude p.longitude)) 0 p.table p.code instant with
              altitude }, .compressed, extension, none, none⟩, 14) := by
  obtain ⟨k, hk⟩ := h.latitude
  obtain ⟨l, hl⟩ := h.longitude
  obtain ⟨hnorth, -⟩ := latitude_compressedLatitude hk h.poles.1 h.poles.2
  obtain ⟨heast, -⟩ := longitude_compressedLongitude hl h.dateLine.1 h.dateLine.2
  obtain ⟨-, hopens, htable⟩ := Compressed.table_compressedTable h.table
  have hcode := Utf8.charOfByte_ofNat h.code
  have hform := encode_compressed h hascii
  generalize UInt8.ofNat (compressedTable p.table).toNat = first at hform hopens htable
  generalize UInt8.ofNat p.code.toNat = code at hform hcode
  generalize hrow : first :: (Base91.encode 4 (compressedLatitude p.latitude) ++
    Base91.encode 4 (compressedLongitude p.longitude)) ++ code :: UInt8.ofNat c.toNat ::
      UInt8.ofNat s.toNat :: UInt8.ofNat t.toNat :: rest = row
  have hpayload : Utf8.encode ('!' :: p.compressed [c, s, t]) ++ rest = 0x21 :: row := by
    rw [← hrow, Utf8.encode_cons_ascii (by decide), hform, List.cons_append, List.append_assoc]
    rfl
  obtain ⟨more, hmore⟩ : ∃ more, row = first :: more := ⟨_, hrow.symm⟩
  have hdrop : (0x21 :: row).drop 1 = _ := hrow.symm
  obtain ⟨altitude, extension, hdecode⟩ :=
    Compressed.decode_eq_ok hdrop (Base91.length_digits 4 _) (Base91.length_digits 4 _)
      (Base91.decode_encode_four (Nat.lt_of_le_of_lt hnorth greatestDistance_lt))
      (Base91.decode_encode_four (Nat.lt_of_le_of_lt heast greatestDistance_lt))
      (Compressed.inRange_latitude_iff.mpr hnorth) (Compressed.inRange_longitude_iff.mpr heast) instant
  rw [htable, hcode] at hdecode
  refine ⟨altitude, extension, ?_⟩
  rw [hpayload, hmore, PositionReport.decode_symbolTable hopens, ← hmore]
  exact hdecode

/-- **A position is read from its compressed form as it was**, wherever on the earth it was made and
whatever stands behind it: its symbol, overlays included, and the places of its coordinates. -/
theorem compressed_roundTrip {latitude longitude : Exact}
    (hlatitude : -90 ≤ latitude.value ∧ latitude.value ≤ 90)
    (hlongitude : -180 ≤ longitude.value ∧ longitude.value ≤ 180) {table code : Char}
    (htable : table ∈ Compressed.symbolTables) (hcode : code.toNat < 0x80) {courseSpeedType : Text}
    (hthree : courseSpeedType.length = 3) (hascii : ∀ c ∈ courseSpeedType, c.toNat < 0x80)
    (ambiguity : Nat) (made received : Instant) (destination : Callsign) (rest : Bytes) :
    let p : Position Exact := make latitude longitude ambiguity table code made
    let read : PositionReport Exact × Nat :=
      PositionReport.decode (Utf8.encode ('!' :: p.compressed courseSpeedType) ++ rest) 1 destination
        received
    read.1.fault = none ∧ read.1.source = .compressed ∧ read.2 = 14 ∧
      read.1.position.table = table ∧ read.1.position.code = code ∧
      read.1.position.latitude.value = p.latitude.value ∧
      read.1.position.longitude.value = p.longitude.value := by
  intro p read
  have h : p.Compressible := make_compressible hlatitude hlongitude htable hcode ambiguity made
  obtain ⟨k, hk⟩ := h.latitude
  obtain ⟨l, hl⟩ := h.longitude
  obtain ⟨c, s, t, rfl⟩ : ∃ c s t, courseSpeedType = [c, s, t] := by
    match courseSpeedType, hthree with
    | [c, s, t], _ => exact ⟨c, s, t, rfl⟩
  obtain ⟨altitude, extension, hdecode⟩ := decode_compressed h hascii rest destination received
  have hread : read = _ := hdecode
  rw [hread]
  exact ⟨rfl, rfl, rfl, rfl, rfl, (latitude_compressedLatitude hk h.poles.1 h.poles.2).2,
    (longitude_compressedLongitude hl h.dateLine.1 h.dateLine.2).2⟩

/-- The south pole on the date line lies at the greatest distances, which have room in their digits, and
is read back under its overlay. -/
theorem compressed_roundTrip_southPole :
    let read : PositionReport Exact × Nat :=
      PositionReport.decode (Utf8.encode "!c\x7b\x7b!!\x7b\x7b!!# sT".toList) 1
        (Callsign.parse "APRS".toList) .epoch
    read.1.fault = none ∧ read.2 = 14 ∧ read.1.position.table = '2' ∧
      read.1.position.latitude.value = -90 ∧ read.1.position.longitude.value = 180 := by
  have hform : (make (.ofRat (-90)) (.ofRat 180) 0 '2' '#' .epoch : Position Exact).compressed
      " sT".toList = "c\x7b\x7b!!\x7b\x7b!!# sT".toList := by
    decide +kernel
  have hplace :
      (make (.ofRat (-90)) (.ofRat 180) 0 '2' '#' .epoch : Position Exact).latitude.value = -90 ∧
        (make (.ofRat (-90)) (.ofRat 180) 0 '2' '#' .epoch : Position Exact).longitude.value = 180 := by
    decide +kernel
  have hlatitude : -90 ≤ (Exact.ofRat (-90)).value ∧ (Exact.ofRat (-90)).value ≤ 90 := by decide
  have hlongitude : -180 ≤ (Exact.ofRat 180).value ∧ (Exact.ofRat 180).value ≤ 180 := by decide
  have hascii (c : Char) (hc : c ∈ " sT".toList) : c.toNat < 0x80 :=
    of_decide_eq_true (List.all_eq_true.mp
      (show " sT".toList.all (fun c => c.toNat < 0x80) = true by decide) c hc)
  have hread := compressed_roundTrip hlatitude hlongitude (show '2' ∈ Compressed.symbolTables by decide)
    (show '#'.toNat < 0x80 by decide) (show " sT".toList.length = 3 by decide) hascii 0 .epoch .epoch
    (Callsign.parse "APRS".toList) []
  dsimp only at hread
  rw [hform, hplace.1, hplace.2, List.append_nil] at hread
  obtain ⟨hfault, -, hcursor, htable, -, hlatitude, hlongitude⟩ := hread
  exact ⟨hfault, hcursor, htable, hlatitude, hlongitude⟩

end Position

end Aprs
