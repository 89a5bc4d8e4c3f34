import Aprs.Position.Basic
import Aprs.Proofs.Decimal
import Aprs.Proofs.Exact

/-!
# The text of a position

A coordinate is rounded to five places of a degree and then to hundredths of a minute, which are fewer,
so rounding it once more changes nothing (`hundredths_roundPlaces_eq`), and neither rounding takes it
beyond a whole number of degrees (`hundredths_roundPlaces_le`). The text is made of the digits of these
hundredths (`coordinateText_eq`), and an ambiguity blanks some of them:

> `text_eq_blanked`: the text with an ambiguity is the text without one in which the last digits of the
> minutes are blank.

Specification: 12.2 (Position rendering and geometry) and 8 (Testable Properties).
-/

namespace Aprs.Position

/-! ## Hundredths of minutes -/

/-- Rounding to places keeps the hemisphere. -/
theorem negative_roundPlaces (x : Exact) : (roundPlaces x).negative = x.negative := by
  unfold roundPlaces
  rw [Exact.negative_div_ofNat _ (by decide), Exact.negative_round,
    Exact.negative_mul_ofNat _ (by decide)]

/-- Rounding to places, as a fraction of the magnitude. -/
theorem abs_roundPlaces (x : Exact) :
    Exact.abs (roundPlaces x).value = Exact.nearest (Exact.abs x.value * 100000) / 100000 := by
  have hscaled : Exact.abs (x * Scalar.ofNat 100000).value = Exact.abs x.value * 100000 :=
    Exact.abs_mul_of_pos (by decide)
  unfold roundPlaces
  rw [Exact.value_div, Exact.value_ofNat, Rat.div_def,
    Exact.abs_mul_of_pos (Rat.inv_pos.mpr (Rat.natCast_pos.mpr (by decide))), Exact.abs_round, hscaled]
  rfl

/-- The hundredths of minutes, as the nearest whole number. -/
theorem hundredths_eq (x : Exact) :
    hundredths x = min Scalar.word32 (Exact.nearest (Exact.abs x.value * 6000)).toNat := by
  have hvalue : (Scalar.magnitude x * Scalar.ofNat Angle.perDegree : Exact).value =
      Exact.abs x.value * 6000 := rfl
  have hnonneg : 0 ≤ Exact.abs x.value * 6000 :=
    Rat.mul_nonneg (Exact.abs_nonneg x.value) (by decide)
  unfold hundredths
  rw [Exact.rounded32_eq (hvalue ▸ hnonneg), hvalue]

/-- **A whole number of hundredths survives the rounding to five places.** -/
theorem hundredths_roundPlaces_eq {x : Exact} {n : Nat} (h : Exact.abs x.value * 6000 = n)
    (hn : n ≤ Scalar.word32) : hundredths (roundPlaces x) = n := by
  have hbounds := Exact.nearest_bounds (Exact.abs x.value * 100000)
  have hnearest : Exact.nearest (Exact.abs (roundPlaces x).value * 6000) = n := by
    rw [Exact.nearest_eq_iff, abs_roundPlaces, Rat.intCast_natCast]
    constructor <;> grind
  rw [hundredths_eq, hnearest]
  exact Nat.min_eq_right hn

/-- A coordinate within a number of degrees is rounded to no more than these. -/
theorem abs_roundPlaces_le {x : Exact} {limit : Nat} (h : Exact.abs x.value ≤ limit) :
    Exact.abs (roundPlaces x).value ≤ limit := by
  have hplaces : Exact.nearest (Exact.abs x.value * 100000) ≤ (limit * 100000 : Nat) := by
    refine Exact.nearest_le ?_
    rw [Rat.intCast_natCast, Rat.natCast_mul]
    grind
  have hcast := Rat.intCast_le_intCast.mpr hplaces
  rw [Rat.intCast_natCast, Rat.natCast_mul] at hcast
  rw [abs_roundPlaces]
  grind

theorem hundredths_roundPlaces_le {x : Exact} {limit : Nat} (h : Exact.abs x.value ≤ limit) :
    hundredths (roundPlaces x) ≤ limit * 6000 := by
  have hrounded := abs_roundPlaces_le h
  have hnearest : Exact.nearest (Exact.abs (roundPlaces x).value * 6000) ≤ (limit * 6000 : Nat) := by
    refine Exact.nearest_le ?_
    rw [Rat.intCast_natCast, Rat.natCast_mul]
    grind
  rw [hundredths_eq]
  omega

/-! ## Digits -/

/-- A coordinate from the digits of its degrees, the four digits of its minutes, and its letter. -/
def coordinate (degrees minutes : Text) (letter : Char) : Text :=
  degrees ++ minutes.take 2 ++ '.' :: minutes.drop 2 ++ [letter]

/-- A coordinate with its four digits of minutes written out. -/
theorem coordinate_four (degrees : Text) (a b c d letter : Char) :
    coordinate degrees [a, b, c, d] letter = degrees ++ [a, b, '.', c, d, letter] := by
  unfold coordinate
  simp only [List.append_assoc]
  rfl

/-- The digits of the minutes with blanks for the last ones. -/
def blankedDigits (ambiguity minutes : Nat) : Text :=
  (Decimal.lowDigits 4 minutes).take (4 - ambiguity) ++ List.replicate ambiguity ' '

/-- Blanks stand for what division by a power of ten leaves out. -/
theorem blankedDigits_eq {ambiguity : Nat} (h : ambiguity ≤ 4) (minutes : Nat) :
    blankedDigits ambiguity minutes =
      Decimal.lowDigits (4 - ambiguity) (minutes / Nat.pow 10 ambiguity) ++
        List.replicate ambiguity ' ' := by
  have htake := Decimal.take_lowDigits (4 - ambiguity) ambiguity minutes
  rw [Nat.sub_add_cancel h] at htake
  unfold blankedDigits
  rw [htake]

theorem length_blankedDigits {ambiguity : Nat} (h : ambiguity ≤ 4) (minutes : Nat) :
    (blankedDigits ambiguity minutes).length = 4 := by
  unfold blankedDigits
  rw [List.length_append, List.length_take, Decimal.length_lowDigits, List.length_replicate]
  omega

theorem blankedDigits_ascii (ambiguity minutes : Nat) :
    ∀ c ∈ blankedDigits ambiguity minutes, c.toNat < 0x80 := by
  intro c hc
  rcases List.mem_append.mp hc with hdigit | hblank
  · have hbounds := Decimal.digit_of_mem_lowDigits (List.mem_of_mem_take hdigit)
    exact Nat.lt_of_le_of_lt hbounds.2 (by decide)
  · rw [List.eq_of_mem_replicate hblank]
    decide

/-- The digits of the degrees have room for the greatest number of degrees. -/
theorem degrees_lt {axis : Axis} {n : Nat} (h : n ≤ axis.limit * 6000) :
    n / 6000 < Nat.pow 10 axis.degreeDigits := by
  have hdegrees : n / 6000 ≤ axis.limit := Nat.div_le_of_le_mul (Nat.mul_comm _ _ ▸ h)
  have hroom : axis.limit < Nat.pow 10 axis.degreeDigits := by cases axis <;> decide
  exact Nat.lt_of_le_of_lt hdegrees hroom

/-- A coordinate within its limit is written in the digits of its degrees and its minutes. -/
theorem angleText_eq {axis : Axis} {n : Nat} (h : n ≤ axis.limit * 6000) (negative : Bool) :
    angleText axis n negative =
      coordinate (Decimal.lowDigits axis.degreeDigits (n / 6000)) (Decimal.lowDigits 4 (n % 6000))
        (axis.letter negative) := by
  have hpos : 0 < axis.degreeDigits := by cases axis <;> decide
  have hwhole : Decimal.padded 2 (n % 6000 / 100) = Decimal.lowDigits 2 (n % 6000 / 100) := by
    refine Decimal.padded_eq_lowDigits (by decide) ?_
    show n % 6000 / 100 < 100
    omega
  have hrest : Decimal.padded 2 (n % 100) = Decimal.lowDigits 2 (n % 6000) := by
    have hmod : n % 100 = n % 6000 % Nat.pow 10 2 := by
      show n % 100 = n % 6000 % 100
      omega
    rw [Decimal.padded_eq_lowDigits (by decide) (Nat.mod_lt n (by decide)), hmod, Decimal.lowDigits_mod]
  have hminutes : Decimal.lowDigits 4 (n % 6000) =
      Decimal.lowDigits 2 (n % 6000 / 100) ++ Decimal.lowDigits 2 (n % 6000) :=
    Decimal.lowDigits_add 2 2 (n % 6000)
  unfold angleText coordinate
  rw [show Angle.perDegree = 6000 from rfl, Decimal.padded_eq_lowDigits hpos (degrees_lt h), hwhole,
    hrest, hminutes, List.take_left' (Decimal.length_lowDigits 2 _),
    List.drop_left' (Decimal.length_lowDigits 2 _)]

/-- Blanking takes the last digits of the minutes. -/
theorem blankMinutes_coordinate {axis : Axis} {ambiguity : Nat} (hambiguity : ambiguity ≤ 4)
    {degrees minutes : Text} (hdegrees : degrees.length = axis.degreeDigits)
    (hminutes : minutes.length = 4) (letter : Char) :
    blankMinutes axis ambiguity (coordinate degrees minutes letter) =
      coordinate degrees (minutes.take (4 - ambiguity) ++ List.replicate ambiguity ' ') letter := by
  obtain ⟨a, b, c, d, rfl⟩ : ∃ a b c d, minutes = [a, b, c, d] := by
    match minutes, hminutes with
    | [a, b, c, d], _ => exact ⟨a, b, c, d, rfl⟩
  -- the places are counted from the digits of the degrees, two or three of them
  have hcases : ∀ k ≤ 4, blankMinutes axis k (coordinate degrees [a, b, c, d] letter) =
      coordinate degrees ([a, b, c, d].take (4 - k) ++ List.replicate k ' ') letter := by
    cases axis with
    | latitude =>
      match degrees, hdegrees with
      | [x, y], _ =>
        intro k hk
        match k, hk with
        | 0, _ | 1, _ | 2, _ | 3, _ | 4, _ => rfl
    | longitude =>
      match degrees, hdegrees with
      | [x, y, z], _ =>
        intro k hk
        match k, hk with
        | 0, _ | 1, _ | 2, _ | 3, _ | 4, _ => rfl
  exact hcases ambiguity hambiguity

/-- **The text of a coordinate**: the digits of its degrees and, as far as the ambiguity leaves them,
of its minutes. -/
theorem coordinateText_eq {α : Type} [Scalar α] {axis : Axis} {ambiguity : Nat} {x : α}
    (hambiguity : ambiguity ≤ 4) (h : hundredths x ≤ axis.limit * 6000) :
    coordinateText axis ambiguity x =
      coordinate (Decimal.lowDigits axis.degreeDigits (hundredths x / 6000))
        (blankedDigits ambiguity (hundredths x % 6000)) (axis.letter (Scalar.isNegative x)) := by
  unfold coordinateText
  rw [angleText_eq h]
  exact blankMinutes_coordinate hambiguity (Decimal.length_lowDigits _ _)
    (Decimal.length_lowDigits 4 _) _

/-- A position whose coordinates are written within their limits. -/
structure Writable {α : Type} [Scalar α] (p : Position α) : Prop where
  latitude : hundredths p.latitude ≤ Axis.latitude.limit * 6000
  longitude : hundredths p.longitude ≤ Axis.longitude.limit * 6000
  ambiguity : p.ambiguity ≤ 4

/-- A position made at a place on the earth is one. -/
theorem make_writable {latitude longitude : Exact} (hlatitude : Exact.abs latitude.value ≤ 90)
    (hlongitude : Exact.abs longitude.value ≤ 180) (ambiguity : Nat) (table code : Char)
    (instant : Instant) : (make latitude longitude ambiguity table code instant).Writable where
  latitude := hundredths_roundPlaces_le hlatitude
  longitude := hundredths_roundPlaces_le hlongitude
  ambiguity := Nat.min_le_right _ _

/-! ## Blanks -/

/-- The text with blanks at the given places. -/
def blank (places : List Nat) (t : Text) : Text := places.foldl (fun t place => t.set place ' ') t

@[simp] theorem length_blank (places : List Nat) (t : Text) : (blank places t).length = t.length := by
  unfold blank
  induction places generalizing t with
  | nil => rfl
  | cons place places ih => rw [List.foldl_cons, ih, List.length_set]

/-- Blanking puts a blank in each of the places and leaves the others. -/
theorem getElem?_blank {places : List Nat} {t : Text} (h : ∀ place ∈ places, place < t.length)
    (i : Nat) : (blank places t)[i]? = if i ∈ places then some ' ' else t[i]? := by
  unfold blank
  induction places generalizing t with
  | nil => rfl
  | cons place places ih =>
    obtain ⟨hplace, hplaces⟩ := List.forall_mem_cons.mp h
    have hset : ∀ other ∈ places, other < (t.set place ' ').length := by
      rw [List.length_set]
      exact hplaces
    rw [List.foldl_cons, ih hset, List.getElem?_set]
    grind

/-- Blanks in the first part of a text leave what is behind it. -/
theorem blank_append {places : List Nat} {s : Text} (h : ∀ place ∈ places, place < s.length)
    (t : Text) : blank places (s ++ t) = blank places s ++ t := by
  unfold blank
  induction places generalizing s with
  | nil => rfl
  | cons place places ih =>
    obtain ⟨hplace, hplaces⟩ := List.forall_mem_cons.mp h
    have hset : ∀ other ∈ places, other < (s.set place ' ').length := by
      rw [List.length_set]
      exact hplaces
    rw [List.foldl_cons, List.foldl_cons, List.set_append_left place ' ' hplace, ih hset]

/-- Blanks behind a text are counted from its end. -/
theorem append_blank (s : Text) (places : List Nat) (t : Text) :
    s ++ blank places t = blank (places.map (s.length + ·)) (s ++ t) := by
  unfold blank
  induction places generalizing t with
  | nil => rfl
  | cons place places ih =>
    rw [List.foldl_cons, List.map_cons, List.foldl_cons, ih,
      List.set_append_right (s.length + place) ' ' (Nat.le_add_right _ _), Nat.add_sub_cancel_left]

/-- The places of the last digits of the minutes in a position, as many of either coordinate as the
ambiguity says. -/
def blankedPlaces (ambiguity : Nat) : List Nat :=
  [6, 5, 3, 2].take ambiguity ++ [16, 15, 13, 12].take ambiguity

theorem lt_of_mem_blankedPlaces {ambiguity place : Nat} (h : place ∈ blankedPlaces ambiguity) :
    place < 19 := by
  have hfirst : ∀ place ∈ [6, 5, 3, 2], place < 19 := by decide
  have hsecond : ∀ place ∈ [16, 15, 13, 12], place < 19 := by decide
  rcases List.mem_append.mp h with hplace | hplace
  · exact hfirst place (List.mem_of_mem_take hplace)
  · exact hsecond place (List.mem_of_mem_take hplace)

theorem length_coordinate {degrees minutes : Text} (h : minutes.length = 4) (letter : Char) :
    (coordinate degrees minutes letter).length = degrees.length + 6 := by
  unfold coordinate
  simp only [List.length_append, List.length_cons, List.length_take, List.length_drop,
    List.length_nil]
  omega

/-- A coordinate is as wide as its axis asks for. -/
theorem length_coordinateText {axis : Axis} {ambiguity : Nat} {x : Exact} (hambiguity : ambiguity ≤ 4)
    (h : hundredths x ≤ axis.limit * 6000) :
    (coordinateText axis ambiguity x).length = axis.degreeDigits + 6 := by
  rw [coordinateText_eq hambiguity h, length_coordinate (length_blankedDigits hambiguity _),
    Decimal.length_lowDigits]

/-- The blanked places of a coordinate lie in it. -/
theorem minutePlaces_lt {axis : Axis} {ambiguity place : Nat}
    (h : place ∈ (minutePlaces axis).take ambiguity) : place < axis.degreeDigits + 6 := by
  have hplace := List.mem_of_mem_take h
  unfold minutePlaces at hplace
  simp only [List.mem_cons, List.not_mem_nil, or_false] at hplace
  omega

/-- The position without its ambiguity. -/
def unambiguous (p : Position Exact) : Position Exact := { p with ambiguity := 0 }

/-- **Ambiguity only blanks digits**: the text is the one without ambiguity in which the last digits of
the minutes are blank. -/
theorem text_eq_blanked {p : Position Exact} (h : p.Writable) :
    p.text = blank (blankedPlaces p.ambiguity) p.unambiguous.text := by
  have hlatitude := length_coordinateText (Nat.zero_le 4) h.latitude
  have hlongitude := length_coordinateText (Nat.zero_le 4) h.longitude
  generalize hfirst : coordinateText .latitude 0 p.latitude = first at hlatitude
  generalize hsecond : coordinateText .longitude 0 p.longitude = second at hlongitude
  generalize hA : (minutePlaces .latitude).take p.ambiguity = A
  generalize hB : (minutePlaces .longitude).take p.ambiguity = B
  have htext : p.text = blank A first ++ p.table :: blank B second ++ [p.code] := by
    rw [← hfirst, ← hsecond, ← hA, ← hB]
    rfl
  have hplain : p.unambiguous.text = first ++ p.table :: second ++ [p.code] := by
    rw [← hfirst, ← hsecond]
    rfl
  have hplaces : blankedPlaces p.ambiguity = A ++ B.map (9 + ·) := by
    rw [← hA, ← hB, List.map_take]
    rfl
  have hinFirst : ∀ place ∈ A, place < first.length := fun place hplace =>
    hlatitude ▸ minutePlaces_lt (hA ▸ hplace)
  have hinSecond : ∀ place ∈ B, place < second.length := fun place hplace =>
    hlongitude ▸ minutePlaces_lt (hB ▸ hplace)
  have hwidth : (blank A first ++ [p.table]).length = 9 := by
    rw [List.length_append, length_blank, hlatitude]
    rfl
  calc p.text
      = (blank A first ++ [p.table]) ++ blank B (second ++ [p.code]) := by
        rw [htext, blank_append hinSecond]
        simp only [List.append_assoc, List.cons_append, List.nil_append]
    _ = blank (B.map (9 + ·)) ((blank A first ++ [p.table]) ++ (second ++ [p.code])) := by
        rw [append_blank, hwidth]
    _ = blank (B.map (9 + ·)) (blank A (first ++ p.table :: second ++ [p.code])) := by
        rw [List.append_assoc first, blank_append hinFirst]
        simp only [List.append_assoc, List.cons_append, List.nil_append]
    _ = blank (blankedPlaces p.ambiguity) p.unambiguous.text := by
        rw [hplain, hplaces]
        exact List.foldl_append.symm

/-! ## What the blanks stand for -/

theorem length_text {p : Position Exact} (h : p.Writable) : p.text.length = 19 := by
  have hlatitude := length_coordinateText h.ambiguity h.latitude
  have hlongitude := length_coordinateText h.ambiguity h.longitude
  unfold text latitudeText longitudeText
  rw [List.length_append, List.length_append, List.length_cons, hlatitude, hlongitude]
  rfl

/-- The minutes of a coordinate without ambiguity are digits. -/
theorem digit_of_mem_minutePlaces {axis : Axis} {x : Exact} (h : hundredths x ≤ axis.limit * 6000)
    {place : Nat} (hplace : place ∈ minutePlaces axis) :
    ∃ c, (coordinateText axis 0 x)[place]? = some c ∧ c.isDigit := by
  have hdigit : ∀ c ∈ Decimal.lowDigits 4 (hundredths x % 6000), c.isDigit := by
    intro c hc
    obtain ⟨hlow, hhigh⟩ := Decimal.digit_of_mem_lowDigits hc
    rw [Char.isDigit, Bool.and_eq_true, decide_eq_true_eq, decide_eq_true_eq]
    exact ⟨hlow, hhigh⟩
  have hdegrees := Decimal.length_lowDigits axis.degreeDigits (hundredths x / 6000)
  have hminutes := Decimal.length_lowDigits 4 (hundredths x % 6000)
  rw [coordinateText_eq (Nat.zero_le 4) h]
  show ∃ c, (coordinate _ (Decimal.lowDigits 4 (hundredths x % 6000) ++ []) _)[place]? = some c ∧ _
  rw [List.append_nil]
  generalize Decimal.lowDigits axis.degreeDigits (hundredths x / 6000) = degrees at hdegrees
  match Decimal.lowDigits 4 (hundredths x % 6000), hminutes, hdigit with
  | [a, b, c, d], _, hdigit =>
    simp only [List.forall_mem_cons] at hdigit
    obtain ⟨ha, hb, hc, hd, -⟩ := hdigit
    have hbehind (letter : Char) (k : Nat) :
        (coordinate degrees [a, b, c, d] letter)[axis.degreeDigits + k]? =
          [a, b, '.', c, d, letter][k]? := by
      rw [coordinate_four, ← hdegrees, List.getElem?_append_right (Nat.le_add_right _ _),
        Nat.add_sub_cancel_left]
    unfold minutePlaces at hplace
    simp only [List.mem_cons, List.not_mem_nil, or_false] at hplace
    rcases hplace with rfl | rfl | rfl | rfl
    · exact ⟨d, hbehind _ 4, hd⟩
    · exact ⟨c, hbehind _ 3, hc⟩
    · exact ⟨b, hbehind _ 1, hb⟩
    · exact ⟨a, hbehind _ 0, ha⟩

/-- Where an ambiguity puts its blanks there are digits without it. -/
theorem digit_of_mem_blankedPlaces {p : Position Exact} (h : p.Writable) {place : Nat}
    (hplace : place ∈ blankedPlaces 4) :
    ∃ c, p.unambiguous.text[place]? = some c ∧ c.isDigit := by
  have hlatitude : (coordinateText .latitude 0 p.latitude).length = 8 :=
    length_coordinateText (Nat.zero_le 4) h.latitude
  have htext : p.unambiguous.text = coordinateText .latitude 0 p.latitude ++
      p.table :: (coordinateText .longitude 0 p.longitude ++ [p.code]) := List.append_assoc _ _ _
  rw [htext]
  rcases List.mem_append.mp hplace with hfirst | hsecond
  · have hin : place ∈ minutePlaces .latitude := hfirst
    obtain ⟨c, hc, hdigit⟩ := digit_of_mem_minutePlaces h.latitude hin
    refine ⟨c, ?_, hdigit⟩
    rw [List.getElem?_append_left (List.getElem?_eq_some_iff.mp hc).choose]
    exact hc
  · have hin : place ∈ (minutePlaces .longitude).map (· + 9) := hsecond
    obtain ⟨other, hother, rfl⟩ := List.mem_map.mp hin
    obtain ⟨c, hc, hdigit⟩ := digit_of_mem_minutePlaces h.longitude hother
    refine ⟨c, ?_, hdigit⟩
    have hbehind : other + 9 - 8 = other + 1 := by omega
    rw [List.getElem?_append_right (hlatitude ▸ Nat.le_add_left_of_le (by decide)), hlatitude, hbehind,
      List.getElem?_cons_succ, List.getElem?_append_left (List.getElem?_eq_some_iff.mp hc).choose]
    exact hc

end Aprs.Position
