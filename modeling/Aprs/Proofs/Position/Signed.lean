import Aprs.Position.Basic
import Aprs.Scalar.Signed

/-!
# Positions with a sign throughout

The decoders and the command compute in `Float`, which has one undefined value. A caller that makes a
position of its own may hand in an undefined value of either sign, and the sign is written: that is what
`Signed` is for. Here it is shown to be `Float` otherwise.

> `text_make`: coordinates that are defined once rounded have the text in `Signed` that they have in `Float`.
>
> `coordinateText_undefined`: an undefined coordinate is written as zero degrees in the hemisphere that its
> sign tells.

The compressed form does not write the sign, so there the two never differ (`compressed_make`).

Specification: 12.2 (Position rendering and geometry).
-/

namespace Aprs

namespace Signed

/-- Rounding to places is done on the values. -/
@[simp] theorem value_roundPlaces (x : Signed) :
    (Position.roundPlaces x).value = Position.roundPlaces x.value := rfl

/-- The sign of a defined value is its own. -/
theorem negative_of {undefinedSign : Bool} {x : Float} (h : x.isNaN = false) :
    (of undefinedSign x).negative = Binary.isNegative x := by
  refine if_neg ?_
  rw [h]
  exact Bool.false_ne_true

/-- Where rounding gives a defined value, the sign of what was rounded is forgotten. -/
theorem isNegative_roundPlaces {x : Signed} (h : (Position.roundPlaces x.value).isNaN = false) :
    Scalar.isNegative (Position.roundPlaces x) = Scalar.isNegative (Position.roundPlaces x.value) :=
  negative_of h

/-- The hundredths of minutes are those of the value. -/
theorem hundredths_value (x : Signed) : Position.hundredths x = Position.hundredths x.value := rfl

end Signed

namespace Position

/-- A coordinate that is defined once rounded has the text that `Float` gives it. -/
theorem coordinateText_roundPlaces (axis : Axis) (ambiguity : Nat) {x : Signed}
    (h : (roundPlaces x.value).isNaN = false) :
    coordinateText axis ambiguity (roundPlaces x) = coordinateText axis ambiguity (roundPlaces x.value) := by
  unfold coordinateText
  rw [Signed.isNegative_roundPlaces h, Signed.hundredths_value, Signed.value_roundPlaces]

/-- **`Signed` differs from `Float` in undefined coordinates only.** -/
theorem text_make {latitude longitude : Signed} (ambiguity : Nat) (table code : Char) (instant : Instant)
    (hlatitude : (roundPlaces latitude.value).isNaN = false)
    (hlongitude : (roundPlaces longitude.value).isNaN = false) :
    (make latitude longitude ambiguity table code instant).text
      = (make latitude.value longitude.value ambiguity table code instant).text := by
  have hlat := coordinateText_roundPlaces .latitude (min ambiguity Angle.maxAmbiguity) hlatitude
  have hlon := coordinateText_roundPlaces .longitude (min ambiguity Angle.maxAmbiguity) hlongitude
  exact congr (congrArg (fun t t' => t ++ table :: t' ++ [code]) hlat) hlon

/-- In the compressed form the signs are not written, so there is no difference at all. -/
theorem compressed_make (latitude longitude : Signed) (ambiguity : Nat) (table code : Char)
    (instant : Instant) (courseSpeedType : Text) :
    (make latitude longitude ambiguity table code instant).compressed courseSpeedType
      = (make latitude.value longitude.value ambiguity table code instant).compressed courseSpeedType := rfl

/-- An undefined value has no hundredths, and keeps the sign that it was written with. -/
theorem coordinateText_undefined (axis : Axis) (ambiguity : Nat) (negative : Bool) :
    coordinateText axis ambiguity (roundPlaces (Signed.ofNumeral (.undefined negative)))
      = blankMinutes axis ambiguity (angleText axis 0 negative) := by
  have hhundredths : hundredths (roundPlaces (Binary.ofNumeral (.undefined negative))) = 0 := by
    cases negative <;> decide +kernel
  have hsign : (roundPlaces (Signed.ofNumeral (.undefined negative))).negative = negative := by
    cases negative <;> decide +kernel
  unfold coordinateText
  rw [Signed.hundredths_value, Signed.value_roundPlaces, show Scalar.isNegative _ = negative from hsign]
  exact congrArg (fun h => blankMinutes axis ambiguity (angleText axis h negative)) hhundredths

end Position

end Aprs
