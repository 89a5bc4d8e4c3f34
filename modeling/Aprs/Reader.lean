import Aprs.Decimal.Digits
import Aprs.Text.Quoted
import Aprs.Text.Utf8

/-!
# Reading octets in order

A reader is a string of octets and a position in it, which may lie past its end. A step takes what
it asks for and moves the position behind it. A step that asks for more than is left changes
nothing; a number that cannot be read has been passed over all the same.

Past the end there is no piece of the string to give, not even an empty one, so asking for one there
is an error of its own.
-/

namespace Aprs

/-- Why a step gives nothing. -/
inductive ReadError
  | unexpectedEnd
  | invalidNumber (field : Text)
  | outOfBounds
  deriving DecidableEq, Repr

/-- The wording of an error. -/
def ReadError.message : ReadError → Text
  | .unexpectedEnd => "unexpected end of input".toList
  | .invalidNumber field => "invalid numeric field ".toList ++ Text.quote field
  | .outOfBounds => "position past the end of input".toList

/-- A string of octets and the position of the next one to be read. -/
structure Reader where
  data : Bytes
  position : Nat
  deriving DecidableEq, Repr

namespace Reader

/-- A reader at the start of a string. -/
def ofBytes (data : Bytes) : Reader := ⟨data, 0⟩

/-- How many octets are left. -/
def remaining (r : Reader) : Nat := r.data.length - r.position

/-- Whether no octet is left. -/
def isEmpty (r : Reader) : Bool := r.remaining == 0

/-- The next octet. -/
def octet (r : Reader) : Except ReadError UInt8 × Reader :=
  match r.data[r.position]? with
  | some b => (.ok b, { r with position := r.position + 1 })
  | none => (.error .unexpectedEnd, r)

/-- The next `count` octets. -/
def exact (r : Reader) (count : Nat) : Except ReadError Bytes × Reader :=
  if r.remaining < count then (.error .unexpectedEnd, r)
  else if r.data.length < r.position then (.error .outOfBounds, r)
  else
    (.ok ((r.data.drop r.position).take count), { r with position := r.position + count })

/-- The number in the next `count` octets. -/
def decimal (r : Reader) (count : Nat) : Except ReadError Nat × Reader :=
  match r.exact count with
  | (.error e, r) => (.error e, r)
  | (.ok field, r) =>
    match Decimal.field? field with
    | some n => (.ok n, r)
    | none => (.error (.invalidNumber (Utf8.lossy field)), r)

/-- All octets that are left. -/
def rest (r : Reader) : Bytes × Reader :=
  (r.data.drop r.position, { r with position := r.data.length })

end Reader

/-! ## Steps that follow each other -/

/-- Steps have a result if the first has one with which the others do. -/
theorem bind_eq_ok_iff {ε β γ : Type} {x : Except ε β} {k : β → Except ε γ} {c : γ} :
    (x >>= k) = .ok c ↔ ∃ b, x = .ok b ∧ k b = .ok c := by
  cases x with
  | error e => exact iff_of_false (fun h => nomatch h) (fun ⟨_, h, _⟩ => nomatch h)
  | ok b => exact ⟨fun h => ⟨b, rfl, h⟩, fun ⟨_, h, hk⟩ => Except.ok.inj h ▸ hk⟩

end Aprs
