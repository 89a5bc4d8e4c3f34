import Aprs.Payload.Piece

/-!
# Information fields

A decoded information field holds its octets, the pieces that were found in them, one of each kind
at most, and a comment: the text of the octets behind the cursor, which no decoder has taken.

Specification: 3 (Data Model) and 12.8 (Packet-level).
-/

namespace Aprs

/-- A decoded information field. -/
structure Payload (α : Type) where
  kind : Kind
  raw : Bytes
  pieces : Pieces α
  /-- The place of the first octet that no decoder has taken. -/
  cursor : Nat
  comment : Text

namespace Payload

variable {α : Type}

/-- The identifier, zero if there is no octet. -/
def identifier (p : Payload α) : UInt8 := p.raw.headD 0

/-- The timestamp, if there is one. -/
def time? (p : Payload α) : Option Timestamp :=
  match p.pieces.get? .timestamp with
  | some (.time t) => some t
  | _ => none

/-- The position, its own or that of an object or an item. -/
def position? (p : Payload α) : Option (PositionReport α) :=
  p.pieces.findSome? fun (_, piece) => piece.positionReport?

/-- The extension of the position. -/
def extension? (p : Payload α) : Option Extension := p.position?.bind (·.extension)

/-- The weather report, if there is one. -/
def weather? (p : Payload α) : Option Weather :=
  match p.pieces.get? .weather with
  | some (.weather w) => some w
  | _ => none

/-- The message, if there is one. -/
def message? (p : Payload α) : Option Message :=
  match p.pieces.get? .message with
  | some (.message m) => some m
  | _ => none

/-- The object, if there is one. -/
def object? (p : Payload α) : Option (Object α) :=
  match p.pieces.get? .object with
  | some (.object o) => some o
  | _ => none

/-- The item, if there is one. -/
def item? (p : Payload α) : Option (Item α) :=
  match p.pieces.get? .item with
  | some (.item i) => some i
  | _ => none

/-- Whether the sender can receive messages. -/
def messaging (p : Payload α) : Bool := p.identifier == 0x3D || p.identifier == 0x40

/-- The reasons of all faults, in the order of the pieces. -/
def faults (p : Payload α) : List Text := p.pieces.flatMap fun (_, piece) => piece.faults

/-- Whether a piece has a fault. -/
def hasFault (p : Payload α) : Bool := !p.faults.isEmpty

/-- The reasons of all faults in one text. -/
def faultReason (p : Payload α) : Text := List.intercalate "; ".toList p.faults

end Payload

end Aprs
