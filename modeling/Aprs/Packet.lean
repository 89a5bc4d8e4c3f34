import Aprs.Frame
import Aprs.Payload.Decode

/-!
# Packets

A packet goes from a source to a destination along a path and carries an information field. It comes
as a frame, or as a line of text: the source, `>`, the destination and the path, a colon, and the
information.

Specification: 4.6 (Packet Framer/Dispatcher) and 12.8 (Packet-level).
-/

namespace Aprs

/-- The parts of a packet before its information is decoded. -/
structure Header where
  source : Callsign
  destination : Callsign
  path : Path
  deriving DecidableEq, Repr

namespace Header

/-- The header in a line, and the information behind it. Line ends behind the line do not belong to
it. -/
def ofLine (line : Text) : Except DecodeError (Header × Text) :=
  match cutFirst '>' line with
  | none => .error (.missingMark '>')
  | some (source, rest) =>
    match cutFirst ':' rest with
    | none => .error (.missingMark ':')
    | some (addresses, information) =>
      if source.isEmpty then .error .emptySource
      else
        let (destination, path) := (cutFirst ',' addresses).getD (addresses, [])
        .ok (⟨Callsign.parse source, Callsign.parse destination, Path.parse path⟩, information)

/-- The header as it stands in a line, with the colon behind it. -/
def text (h : Header) : Text :=
  h.source.text ++ '>' :: h.destination.text ++ h.path.text ++ [':']

end Header

/-- A packet. -/
structure Packet (α : Type) where
  header : Header
  payload : Payload α
  /-- The line or the frame in which the packet came. -/
  asReceived : Option Bytes
  receivedAt : Instant

namespace Packet

variable {α : Type}

/-- The line without the line ends behind it. -/
def trimLine (line : Text) : Text := dropTrailing (fun c => c = '\r' || c = '\n') line

/-- The packet as a line. Octets of the information that are no text are replaced. -/
def text (p : Packet α) : Text := p.header.text ++ Utf8.lossy p.payload.raw

/-- The packet as a frame. -/
def frame (p : Packet α) : Frame :=
  ⟨p.header.destination, p.header.source, p.header.path, p.payload.raw⟩

variable [Scalar α]

/-- The packet with the given parts. -/
def ofParts (header : Header) (information : Bytes) (now : Instant) : Packet α :=
  { header
    payload := Payload.decode information header.destination now
    asReceived := none
    receivedAt := now }

/-- The packet in a line. -/
def ofLine (line : Text) (now : Instant) : Except DecodeError (Packet α) :=
  let line := trimLine line
  match Header.ofLine line with
  | .error e => .error e
  | .ok (header, information) =>
    .ok { ofParts header (Utf8.encode information) now with asReceived := some (Utf8.encode line) }

/-- The packet in a frame. -/
def ofFrame (octets : Bytes) (now : Instant) : Except DecodeError (Packet α) :=
  match Frame.decode octets with
  | .error e => .error e
  | .ok f =>
    .ok { ofParts ⟨f.source, f.destination, f.hops⟩ f.information now with asReceived := some octets }

end Packet

end Aprs
