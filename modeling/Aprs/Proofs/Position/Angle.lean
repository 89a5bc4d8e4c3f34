import Aprs.Position.Angle
import Aprs.Proofs.Exact

/-!
# The value of an angle

The value of an angle holds its hundredths of minutes (`abs_value`) and its sign, that of a zero included
(`negative_value`). Setting the last digits of the minutes to zero takes nothing but these digits, and an
encoding in which they can be blank counts the blanks from the end (`trailing_iff`).

Specification: 4.3 (Position Decoder).
-/

namespace Aprs.Angle

/-- An angle does not lead beyond the end of an axis. -/
def Within (axis : Axis) (a : Angle) : Prop :=
  a.degrees * perDegree + a.hundredths ≤ axis.limit * perDegree

theorem size_nonneg (a : Angle) : (0 : Rat) ≤ a.degrees + (a.hundredths : Rat) / (6000 : Nat) := by
  have hdegrees : (0 : Rat) ≤ a.degrees := Rat.natCast_nonneg
  have hhundredths : (0 : Rat) ≤ a.hundredths := Rat.natCast_nonneg
  grind

/-- The hundredths of minutes in an angle are found in its value. -/
theorem abs_value (a : Angle) :
    Exact.abs (a.value : Exact).value * 6000 = (a.degrees * 6000 + a.hundredths : Nat) := by
  have habs : Exact.abs (a.value : Exact).value = a.degrees + (a.hundredths : Rat) / (6000 : Nat) := by
    unfold value
    cases a.negative with
    | false => exact Exact.abs_of_nonneg a.size_nonneg
    | true => exact (Exact.abs_neg _).trans (Exact.abs_of_nonneg a.size_nonneg)
  rw [habs, Rat.natCast_add, Rat.natCast_mul]
  grind

/-- The value of an angle has its sign, even if it is zero. -/
theorem negative_value (a : Angle) : (a.value : Exact).negative = a.negative := by
  have hsign : (Scalar.ofNat a.degrees + Scalar.ofNat a.hundredths / Scalar.ofNat perDegree :
      Exact).negative = false := by
    show (Exact.signed ((Scalar.ofNat a.degrees : Exact).negative && _) _).negative = false
    rw [Exact.negative_ofNat, Bool.false_and]
    exact Exact.negative_signed_of_nonneg a.size_nonneg
  unfold value
  cases a.negative with
  | false => exact hsign
  | true =>
    show (Exact.signed (!_) (-(_ : Rat))).negative = true
    rw [hsign]
    exact Exact.negative_signed_of_nonpos (Rat.neg_le_neg a.size_nonneg)

/-- Truncating sets as many digits to zero as the ambiguity says. -/
theorem truncate_eq {ambiguity : Nat} (h : ambiguity ≤ 4) (hundredths : Nat) :
    truncate ambiguity hundredths = hundredths / Nat.pow 10 ambiguity * Nat.pow 10 ambiguity := by
  unfold truncate
  rw [show min ambiguity maxAmbiguity = ambiguity from Nat.min_eq_left h]

@[simp] theorem truncate_zero (hundredths : Nat) : truncate 0 hundredths = hundredths :=
  Nat.div_mul_cancel (Nat.one_dvd hundredths)

/-- Digits that are set to zero already stay so. -/
theorem truncate_truncate {disregarded ambiguity : Nat} (h : disregarded ≤ ambiguity)
    (hundredths : Nat) :
    truncate disregarded (truncate ambiguity hundredths) = truncate ambiguity hundredths := by
  have hpow : Nat.pow 10 (min disregarded maxAmbiguity) ∣ Nat.pow 10 (min ambiguity maxAmbiguity) :=
    Nat.pow_dvd_pow 10 (Nat.le_min.mpr ⟨Nat.le_trans (Nat.min_le_left _ _) h, Nat.min_le_right _ _⟩)
  exact Nat.div_mul_cancel (Nat.dvd_mul_left_of_dvd hpow _)

theorem truncate_le (ambiguity hundredths : Nat) : truncate ambiguity hundredths ≤ hundredths :=
  Nat.div_mul_le_self _ _

/-! ## Blanks -/

/-- The elements of a kind at the end of a list are all it has of that kind exactly if it is a list without
them followed by them. -/
theorem trailing_iff {β : Type} {p : β → Bool} {xs : List β} {count : Nat} :
    (xs.reverse.takeWhile p).length = count ∧ (xs.take (xs.length - count)).any p = false ↔
      ∃ front back, xs = front ++ back ∧ back.length = count ∧ (∀ x ∈ front, p x = false) ∧
        ∀ x ∈ back, p x = true := by
  constructor
  · rintro ⟨hcount, hfront⟩
    have hall := List.all_takeWhile (p := p) (l := xs.reverse)
    have hsplit : xs = (xs.reverse.dropWhile p).reverse ++ (xs.reverse.takeWhile p).reverse := by
      rw [← List.reverse_append, List.takeWhile_append_dropWhile, List.reverse_reverse]
    generalize (xs.reverse.dropWhile p).reverse = front at hsplit
    generalize xs.reverse.takeWhile p = back at hsplit hcount hall
    subst hsplit
    rw [List.length_append, List.length_reverse, hcount, Nat.add_sub_cancel, List.take_left' rfl,
      List.any_eq_false] at hfront
    refine ⟨front, back.reverse, rfl, by rw [List.length_reverse, hcount],
      fun x hx => Bool.eq_false_iff.mpr (hfront x hx), fun x hx => ?_⟩
    exact List.all_eq_true.mp hall x (List.mem_reverse.mp hx)
  · rintro ⟨front, back, rfl, rfl, hfront, hback⟩
    have hnone : front.reverse.takeWhile p = [] := by
      cases hreverse : front.reverse with
      | nil => rfl
      | cons x rest =>
        have hx : x ∈ front := List.mem_reverse.mp (hreverse ▸ List.mem_cons_self)
        rw [List.takeWhile_cons, hfront x hx]
        rfl
    constructor
    · rw [List.reverse_append, List.takeWhile_append_of_pos fun x hx => hback x (List.mem_reverse.mp hx),
        hnone, List.append_nil, List.length_reverse]
    · rw [List.length_append, Nat.add_sub_cancel, List.take_left' rfl, List.any_eq_false]
      exact fun x hx => Bool.eq_false_iff.mp (hfront x hx)

end Aprs.Angle
