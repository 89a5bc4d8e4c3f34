import Aprs.Checked.Timestamp
import Aprs.Extension

/-!
# Checked data extensions

The values of an extension are added up in words of 16 bits.

Specification: 4.4 (Data Extension Decoder).
-/

namespace Aprs.Checked

/-- The value of a one-digit code, zero for anything but a digit. -/
def code (b : UInt8) : Checked Nat := if Decimal.isDigit b then sub b.toNat 48 else .ok 0

/-- The value of a number, zero for anything but digits. -/
def slot (field : Bytes) : Checked Nat := do return (← field? field).getD 0

/-- The extension that seven characters write. -/
def extensionOfField? (field : Bytes) : Checked (Option Extension) := do
  let power ← code (← octet field 3)
  let height ← code (← octet field 4)
  let gain ← code (← octet field 5)
  let directivity ← code (← octet field 6)
  let letters ← before field 3
  if letters = [0x50, 0x48, 0x47] then return some (.phg ⟨power, height, gain, directivity⟩)
  if letters = [0x52, 0x4E, 0x47] then return some (.range (← slot (← behind field 3)))
  if letters = [0x44, 0x46, 0x53] then return some (.dfStrength ⟨power, height, gain, directivity⟩)
  if (← octet field 3) = 0x2F then
    let course ← slot (← before field 3)
    let speed ← slot (← behind field 4)
    return some (.courseSpeed course speed)
  return none

/-- The extension at a place behind an uncompressed position with the given symbol code. -/
def extensionOfUncompressed? (limit : Nat) (payload : Bytes) (start : Nat) (symbol : UInt8) :
    Checked (Option Extension) := do
  if symbol = Extension.weatherSymbol then return none
  match piece? payload start (← add limit start Extension.width) with
  | none => return none
  | some field => extensionOfField? field

/-- Whether the type of a compressed position tells that its two digits carry the altitude. -/
def isAltitudeType (t : UInt8) : Checked Bool := do
  if Base91.zero ≤ t.toNat then return (← sub t.toNat Base91.zero) / 8 % 4 == 2
  return false

/-- The extension in the digits `c` and `s` of a compressed position with type `t`. -/
def extensionOfCompressed? (α : Type) [Scalar α] (c s t symbol : UInt8) :
    Checked (Option Extension) := do
  if symbol = Extension.weatherSymbol ∨ c = 0x20 then return none
  if ← isAltitudeType t then return none
  if s.toNat < Base91.zero then return none
  let growth : α := Scalar.power (Scalar.decimal 108 2) (← sub s.toNat Base91.zero)
  if c = 0x7B then return some (.range (Scalar.rounded16 (Scalar.ofNat 2 * growth)))
  if c.toNat < Base91.zero then return none
  let c ← sub c.toNat Base91.zero
  if 90 ≤ c then return none
  let course ← mul Scalar.word16 c 4
  return some (.courseSpeed course (Scalar.rounded16 (growth - Scalar.ofNat 1)))

/-- The extension in three octets that share the speed and the course between them. -/
def extensionOfMicE? (sp dc se : UInt8) : Checked (Option Extension) := do
  if sp.toNat < Extension.micEOffset then return none
  if dc.toNat < Extension.micEOffset then return none
  if se.toNat < Extension.micEOffset then return none
  let sp ← sub sp.toNat Extension.micEOffset
  let dc ← sub dc.toNat Extension.micEOffset
  let se ← sub se.toNat Extension.micEOffset
  let speed ← add Scalar.word16 (← mul Scalar.word16 sp 10) (dc / 10)
  let course ← add Scalar.word16 (← mul Scalar.word16 (dc % 10) 100) se
  let course ← if 400 ≤ course then sub course 400 else pure course
  let speed ← if 800 ≤ speed then sub speed 800 else pure speed
  return some (.courseSpeed course speed)

end Aprs.Checked
