import Aprs.Item
import Aprs.Message
import Aprs.Object
import Aprs.Payload.Kind
import Aprs.Text.Quoted
import Aprs.Weather.Report

/-!
# Pieces

What an information field carries: a timestamp, a position, a weather report, a message, an object
or an item. A piece that is not sound carries its fault and leaves the others alone; a piece that
could not be made at all is replaced by its fault.

Specification: 3 (Data Model) and 7 (Error Handling Design).
-/

namespace Aprs

/-- Why a piece could not be made. -/
inductive PieceFault
  | emptyInformation
  | unsupportedIdentifier (identifier : UInt8)
  | shortTelemetry (length : Nat)
  | object (cause : Object.Fault)
  | item (cause : Item.Fault)
  deriving DecidableEq, Repr

/-- The wording of a fault. -/
def PieceFault.reason : PieceFault → Text
  | .emptyInformation => "empty information field".toList
  | .unsupportedIdentifier identifier =>
    "unsupported data type identifier '".toList ++ Text.asciiEscape (charOfByte identifier)
      ++ ['\'']
  | .shortTelemetry length =>
    "telemetry payload of ".toList ++ Decimal.digits length ++ " bytes is too short".toList
  | .object cause => cause.reason
  | .item cause => cause.reason

/-- A piece of an information field. -/
inductive Piece (α : Type)
  | time (timestamp : Timestamp)
  | position (report : PositionReport α)
  | weather (report : Weather)
  | message (message : Message)
  | object (object : Object α)
  | item (item : Item α)
  /-- Stands for a piece that could not be made. -/
  | fault (cause : PieceFault)

namespace Piece

variable {α : Type}

/-- The reasons of all faults in a piece. -/
def faults : Piece α → List Text
  | time t => (t.fault.map Timestamp.Fault.reason).toList
  | position r => (r.fault.map Position.Fault.reason).toList
  | weather w => (w.fault.map Weather.Fault.reason).toList
  | message m => (m.fault.map Message.Fault.reason).toList
  | object o =>
    (o.time.fault.map Timestamp.Fault.reason).toList ++
      (o.report.fault.map Position.Fault.reason).toList
  | item i => (i.report.fault.map Position.Fault.reason).toList
  | fault cause => [cause.reason]

/-- The position that a piece gives, its own or that of an object or an item. -/
def positionReport? : Piece α → Option (PositionReport α)
  | position r => some r
  | object o => some o.report
  | item i => some i.report
  | _ => none

end Piece

/-- The pieces of an information field by kind, in the order of kinds. -/
abbrev Pieces (α : Type) := List (Kind × Piece α)

namespace Pieces

variable {α : Type}

/-- The pieces with one of a kind, in the place of any other of that kind. -/
def put (kind : Kind) (piece : Piece α) : Pieces α → Pieces α
  | [] => [(kind, piece)]
  | (k, p) :: rest =>
    if kind.rank < k.rank then (kind, piece) :: (k, p) :: rest
    else if kind = k then (kind, piece) :: rest
    else (k, p) :: put kind piece rest

/-- The piece of a kind. -/
def get? (kind : Kind) (pieces : Pieces α) : Option (Piece α) := pieces.lookup kind

end Pieces

end Aprs
