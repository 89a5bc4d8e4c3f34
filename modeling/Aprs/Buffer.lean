import Aprs.Address

/-!
# Writing into limited space

A buffer is lent by its caller and is filled from the front. What does not fit in the room that is left
is not written at all, and the octets of that room stay as the caller gave them.

Specification: 4.7 (Frame Encoder).
-/

namespace Aprs

/-- Why a frame is not written. -/
inductive EncodeError
  | bufferTooSmall
  | address (cause : Address.Error)
  | tooManyHops (count : Nat)
  deriving DecidableEq, Repr

/-- The wording of an error. -/
def EncodeError.message : EncodeError → Text
  | .bufferTooSmall => "buffer too small".toList
  | .address cause => cause.message
  | .tooManyHops count =>
    Decimal.digits count ++ " digipeaters exceed the AX.25 limit of 8".toList

/-- The octets written so far, and those of the room behind them, which nobody has written. -/
structure Buffer where
  written : Bytes
  room : Bytes
  deriving DecidableEq, Repr

namespace Buffer

/-- A buffer of the octets of its caller, in which nothing has been written. -/
def fresh (octets : Bytes) : Buffer := ⟨[], octets⟩

/-- A buffer of zeros, in which nothing has been written. -/
def ofSize (size : Nat) : Buffer := fresh (List.replicate size 0)

/-- All octets of a buffer. -/
def octets (b : Buffer) : Bytes := b.written ++ b.room

/-- How many octets still fit. -/
def remaining (b : Buffer) : Nat := b.room.length

/-- Writes octets behind those written before. -/
def write (b : Buffer) (octets : Bytes) : Except EncodeError Unit × Buffer :=
  if octets.length ≤ b.remaining then
    (.ok (), ⟨b.written ++ octets, b.room.drop octets.length⟩)
  else (.error .bufferTooSmall, b)

/-- Writes a field, which is octets or the reason why there are none. -/
def writeField (b : Buffer) : Except Address.Error Bytes → Except EncodeError Unit × Buffer
  | .error cause => (.error (.address cause), b)
  | .ok octets => b.write octets

/-- Writes an address. -/
def writeAddress (b : Buffer) (a : Address) : Except EncodeError Unit × Buffer :=
  b.writeField a.encode

/-- Writes fields in order, up to the first that cannot be written. -/
def writeFields (b : Buffer) :
    List (Except Address.Error Bytes) → Except EncodeError Unit × Buffer
  | [] => (.ok (), b)
  | field :: rest =>
    match b.writeField field with
    | (.error e, b) => (.error e, b)
    | (.ok (), b) => b.writeFields rest

end Buffer

end Aprs
