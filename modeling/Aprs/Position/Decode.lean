import Aprs.Position.Compressed
import Aprs.Position.MicE
import Aprs.Position.Nmea
import Aprs.Position.Uncompressed

/-!
# Reading a position

The first octet of the information tells whether it is a Mic-E report or a sentence of a receiver.
Otherwise the octet where the position begins tells its encoding: a digit begins an uncompressed
one, a symbol table or an overlay letter a compressed one.

Specification: 4.3 (Position Decoder).
-/

namespace Aprs.PositionReport

variable {α : Type} [Scalar α]

/-- Whether a compressed position may begin with an octet. -/
def opensCompressed (b : UInt8) : Bool :=
  let n := b.toNat
  n = 0x2F || n = 0x5C || (0x41 ≤ n && n ≤ 0x5A) || (0x61 ≤ n && n ≤ 0x6A)

/-- The position at `start` in one of the two plain encodings. -/
def decodePlain (payload : Bytes) (start : Nat) (instant : Instant) : PositionReport α × Nat :=
  match payload[start]? with
  | none => failed start .uncompressed instant .tooShort
  | some b =>
    if opensCompressed b then Compressed.decode payload start instant
    else if Decimal.isDigit b then Uncompressed.decode payload start instant
    else failed start .uncompressed instant (.unsupportedFormat (charOfByte b))

/-- The position in a payload, which begins at `start` if it has a plain encoding, and the place
behind what was read. The destination carries part of a Mic-E report, and the position is given the
instant at which the report was made. -/
def decode (payload : Bytes) (start : Nat) (destination : Callsign) (instant : Instant) :
    PositionReport α × Nat :=
  match payload.head? with
  | some b =>
    if b = 0x27 ∨ b = 0x60 then MicE.decode payload destination instant
    else if b = 0x24 then Nmea.decode payload instant
    else decodePlain payload start instant
  | none => decodePlain payload start instant

end Aprs.PositionReport
