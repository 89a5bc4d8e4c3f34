import Aprs.Checked.Extension
import Aprs.Proofs.Checked.Timestamp

/-!
# No check of a data extension fails

The seven octets of a field are all there before the first of them is looked at, each offset is taken
off only from an octet that has it, and no octet is great enough to leave a word of 16 bits.

Specification: 4.4 (Data Extension Decoder).
-/

namespace Aprs.Checked

/-- A digit of a code is taken down from its octet without going below zero. -/
theorem code_eq (b : UInt8) : code b = .ok (Extension.code b) := by
  unfold code Extension.code
  by_cases hb : Decimal.isDigit b = true
  · obtain ⟨low, -, hdigit⟩ := isDigit_eq_true hb
    rw [if_pos hb, sub_eq low, hdigit]
    rfl
  · rw [if_neg hb, digit?_of_not_isDigit hb]
    rfl

/-- Three octets are a number, or none, as they are without the checks. -/
theorem slot_eq (field : Bytes) : slot field = .ok (Extension.slot field) := by
  unfold slot Extension.slot
  rw [field?_eq]
  rfl

/-- **The seven octets of an extension are read without an abort.** -/
theorem extensionOfField?_eq {field : Bytes} (h : field.length = Extension.width) :
    extensionOfField? field = .ok (Extension.ofField? field) := by
  match field, h with
  | [a, b, c, d, e, f, g], _ =>
    have h₃ : octet [a, b, c, d, e, f, g] 3 = .ok d := rfl
    have h₄ : octet [a, b, c, d, e, f, g] 4 = .ok e := rfl
    have h₅ : octet [a, b, c, d, e, f, g] 5 = .ok f := rfl
    have h₆ : octet [a, b, c, d, e, f, g] 6 = .ok g := rfl
    have hletters : before [a, b, c, d, e, f, g] 3 = .ok [a, b, c] := rfl
    have hdigits : behind [a, b, c, d, e, f, g] 3 = .ok [d, e, f, g] := rfl
    have hspeed : behind [a, b, c, d, e, f, g] 4 = .ok [e, f, g] := rfl
    unfold extensionOfField? Extension.ofField?
    simp only [h₃, h₄, h₅, h₆, hletters, hdigits, hspeed, ok_bind, code_eq, slot_eq]
    split
    · rfl
    split
    · rfl
    split
    · rfl
    split <;> rfl

/-- They are taken only where there are seven. -/
theorem extensionOfUncompressed?_eq {limit start : Nat} {payload : Bytes}
    (h : start + Extension.width ≤ limit) (symbol : UInt8) :
    extensionOfUncompressed? limit payload start symbol =
      .ok (Extension.ofUncompressed? payload start symbol) := by
  unfold extensionOfUncompressed? Extension.ofUncompressed?
  split
  · rfl
  · rw [add_eq h, ok_bind]
    by_cases hroom : start + Extension.width ≤ payload.length
    · rw [piece?_eq (Nat.le_add_right _ _) hroom, Nat.add_sub_cancel_left]
      refine extensionOfField?_eq ?_
      rw [List.length_take, List.length_drop]
      omega
    · -- fewer than seven octets are left, and no pattern of seven matches them
      have hshort : ((payload.drop start).take Extension.width).length < 7 := by
        rw [List.length_take, List.length_drop]
        have : Extension.width = 7 := rfl
        omega
      rw [piece?_eq_none (Nat.lt_of_not_le hroom)]
      unfold Extension.ofField?
      dsimp only
      split
      · next hfield =>
        rw [hfield] at hshort
        simp at hshort
      · rfl

/-- The bits of a type are shifted down, never below zero. -/
theorem isAltitudeType_eq (t : UInt8) : isAltitudeType t = .ok (Extension.isAltitudeType t) := by
  unfold isAltitudeType Extension.isAltitudeType
  by_cases h : Base91.zero ≤ t.toNat
  · simp only [if_pos h, sub_eq h, ok_bind, decide_eq_true h, Bool.true_and]
    rfl
  · simp only [if_neg h, decide_eq_false h, Bool.false_and]
    rfl

/-- A course is taken up from an octet that is not below the zero, and stays within its word. -/
theorem extensionOfCompressed?_eq (α : Type) [Scalar α] (c s t symbol : UInt8) :
    extensionOfCompressed? α c s t symbol = .ok (Extension.ofCompressed? α c s t symbol) := by
  unfold extensionOfCompressed? Extension.ofCompressed?
  rw [isAltitudeType_eq]
  by_cases hnone : symbol = Extension.weatherSymbol ∨ c = 0x20
  · rw [if_pos hnone, if_pos (by grind)]
    rfl
  rw [if_neg hnone, ok_bind]
  by_cases htype : Extension.isAltitudeType t = true
  · rw [if_pos htype, if_pos (by grind)]
    rfl
  rw [if_neg htype]
  by_cases hs : s.toNat < Base91.zero
  · rw [if_pos hs, if_pos (by grind)]
    rfl
  rw [if_neg hs, if_neg (by grind), sub_eq (Nat.not_lt.mp hs), ok_bind]
  split
  · rfl
  by_cases hc : c.toNat < Base91.zero
  · rw [if_pos hc, if_neg (by omega)]
    rfl
  rw [if_neg hc, sub_eq (Nat.not_lt.mp hc), ok_bind]
  by_cases hcourse : 90 ≤ c.toNat - Base91.zero
  · rw [if_pos hcourse, if_neg (by omega)]
    rfl
  · have hword : (c.toNat - Base91.zero) * 4 ≤ Scalar.word16 := by
      have : Scalar.word16 = 65535 := rfl
      omega
    rw [if_neg hcourse, if_pos (by omega), mul_eq hword, ok_bind]
    rfl

/-- The course of a Mic-E report stays within its word as well. -/
theorem extensionOfMicE?_eq (sp dc se : UInt8) :
    extensionOfMicE? sp dc se = .ok (Extension.ofMicE? sp dc se) := by
  unfold extensionOfMicE? Extension.ofMicE?
  by_cases hsp : sp.toNat < Extension.micEOffset
  · rw [if_pos hsp, if_pos (Or.inl hsp)]
    rfl
  by_cases hdc : dc.toNat < Extension.micEOffset
  · rw [if_neg hsp, if_pos hdc, if_pos (Or.inr (Or.inl hdc))]
    rfl
  by_cases hse : se.toNat < Extension.micEOffset
  · rw [if_neg hsp, if_neg hdc, if_pos hse, if_pos (Or.inr (Or.inr hse))]
    rfl
  -- no octet is greater than 255, so all sums lie inside a word of 16 bits
  have hword : Scalar.word16 = 65535 := rfl
  have := sp.toNat_lt
  have := dc.toNat_lt
  have := se.toNat_lt
  rw [if_neg hsp, if_neg hdc, if_neg hse, if_neg (by grind), sub_eq (Nat.not_lt.mp hsp), ok_bind,
    sub_eq (Nat.not_lt.mp hdc), ok_bind, sub_eq (Nat.not_lt.mp hse), ok_bind,
    mul_eq (by omega), ok_bind, add_eq (by omega), ok_bind, mul_eq (by omega), ok_bind,
    add_eq (by omega), ok_bind]
  dsimp only
  split
  · next hcourse =>
    rw [sub_eq hcourse, ok_bind]
    split
    · next hspeed => rw [sub_eq hspeed]; rfl
    · rfl
  · split
    · next hspeed => rw [sub_eq hspeed]; rfl
    · rfl

end Aprs.Checked
