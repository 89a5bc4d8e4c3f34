import Aprs.Buffer
import Aprs.Path
import Aprs.Reader
import Aprs.Text.Hex

/-!
# Frames

An unnumbered information frame of AX.25: a chain of addresses (the destination, the source, and up
to eight hops), two octets that tell the kind of frame, and the information. The last address of
the chain is marked; the destination is marked as the receiver of a command.

Specification: 4.7 (Frame Encoder) and 6 (External Interfaces).
-/

namespace Aprs

/-- A frame. -/
structure Frame where
  destination : Callsign
  source : Callsign
  hops : Path
  information : Bytes
  deriving DecidableEq, Repr

/-- Why text or octets are no packet. -/
inductive DecodeError
  | read (cause : ReadError)
  | missingMark (mark : Char)
  | emptySource
  | invalidControlField (control protocol : UInt8)
  | tooManyHops
  deriving DecidableEq, Repr

/-- The wording of an error. -/
def DecodeError.message : DecodeError → Text
  | .read cause => cause.message
  | .missingMark mark => "missing '".toList ++ mark :: "' in TNC2 header".toList
  | .emptySource => "empty source callsign".toList
  | .invalidControlField control protocol =>
    "expected control/pid 0x03/0xf0, got 0x".toList ++ Hex.pair control ++ "/0x".toList
      ++ Hex.pair protocol
  | .tooManyHops => "address chain exceeds 8 digipeaters".toList

namespace Frame

/-- The greatest number of hops. -/
def maxHops : Nat := 8

/-- The octet of an unnumbered information frame. -/
def control : UInt8 := 0x03

/-- The octet that tells that no protocol lies above. -/
def protocol : UInt8 := 0xF0

/-- The addresses of a path, the last of which ends the chain. -/
def hopAddresses : Path → List Address
  | [] => []
  | [hop] => [⟨hop.callsign, hop.used, true⟩]
  | hop :: rest => ⟨hop.callsign, hop.used, false⟩ :: hopAddresses rest

/-- The chain of addresses. -/
def addresses (f : Frame) : List Address :=
  ⟨f.destination, true, false⟩ :: ⟨f.source, false, f.hops.isEmpty⟩ :: hopAddresses f.hops

/-- The fields of a frame in the order in which they are written. -/
def fields (f : Frame) : List (Except Address.Error Bytes) :=
  f.addresses.map Address.encode ++ [.ok [control], .ok [protocol], .ok f.information]

/-- How many octets a frame takes. -/
def encodedLength (f : Frame) : Nat :=
  Address.length * (2 + f.hops.length) + 2 + f.information.length

/-- Writes a frame. Of one with too many hops nothing is written. -/
def encode (f : Frame) (b : Buffer) : Except EncodeError Unit × Buffer :=
  if maxHops < f.hops.length then (.error (.tooManyHops f.hops.length), b)
  else b.writeFields f.fields

/-- The octets of a frame: the whole of a buffer of its length in which it has been written. -/
def toBytes (f : Frame) : Except EncodeError Bytes :=
  match f.encode (.ofSize f.encodedLength) with
  | (.ok (), b) => .ok b.octets
  | (.error e, _) => .error e

/-- Reads an address. -/
def readAddress (r : Reader) : Except DecodeError (Address × Reader) :=
  match r.exact Address.length with
  | (.ok octets, r) => .ok (Address.decode octets, r)
  | (.error e, _) => .error (.read e)

/-- Reads an octet. -/
def readOctet (r : Reader) : Except DecodeError (UInt8 × Reader) :=
  match r.octet with
  | (.ok b, r) => .ok (b, r)
  | (.error e, _) => .error (.read e)

/-- Reads hops up to the last address of the chain, of which at most `room` may follow. -/
def readHops : (room : Nat) → (last : Bool) → Reader → Except DecodeError (Path × Reader)
  | _, true, r => .ok ([], r)
  | 0, false, _ => .error .tooManyHops
  | room + 1, false, r => do
    let (a, r) ← readAddress r
    let (hops, r) ← readHops room a.last r
    return (⟨a.callsign, a.used⟩ :: hops, r)

/-- Reads a frame. -/
def read (r : Reader) : Except DecodeError Frame := do
  let (destination, r) ← readAddress r
  let (source, r) ← readAddress r
  let (hops, r) ← readHops maxHops source.last r
  let (c, r) ← readOctet r
  let (p, r) ← readOctet r
  if c ≠ control ∨ p ≠ protocol then throw (.invalidControlField c p)
  return ⟨destination.callsign, source.callsign, hops, r.rest.1⟩

/-- The frame that octets hold. -/
def decode (octets : Bytes) : Except DecodeError Frame := read (.ofBytes octets)

end Frame

end Aprs
