import Aprs.Position.Decode

/-!
# Items

An item is an object without a timestamp, whose name of up to nine characters ends at the flag that
tells whether it is still there.

Specification: 12.7 (Objects and items).
-/

namespace Aprs

/-- An item. -/
structure Item (α : Type) where
  name : Text
  live : Bool
  report : PositionReport α

namespace Item

/-- What is wrong with an item. -/
inductive Fault
  | tooShort (length : Nat)
  | notTerminated
  deriving DecidableEq, Repr

/-- The wording of a fault. -/
def Fault.reason : Fault → Text
  | .tooShort length =>
    "item payload of ".toList ++ Decimal.digits length ++ " bytes is too short".toList
  | .notTerminated => "Invalid ITEM packet, missing '!' or '_'.".toList

/-- The length of the longest name. -/
def maxName : Nat := 9

/-- The length of the shortest payload that holds an item. -/
def minLength : Nat := 19

/-- Whether an octet is a flag, which tells a live item or one that is gone. -/
def isFlag (b : UInt8) : Bool := b == 0x21 || b == 0x5F

variable {α : Type} [Scalar α]

/-- The item as a station sends it. -/
def text (i : Item α) : Text :=
  ')' :: i.name ++ (if i.live then '!' else '_') :: i.report.position.text

/-- The item in a payload, and the place behind what was read. The name is not empty, and the flag
is looked for no further than behind the longest name. -/
def decode (payload : Bytes) (destination : Callsign) (now : Instant) :
    Except Fault (Item α × Nat) :=
  if payload.length < minLength then .error (.tooShort payload.length)
  else
    let search := (payload.drop 1).take (maxName + 1)
    let name := search.takeWhile fun b => !isFlag b
    match search.drop name.length with
    | [] => .error .notTerminated
    | flag :: _ =>
      if name.isEmpty then .error .notTerminated
      else
        let (report, cursor) :=
          PositionReport.decode payload (name.length + 2) destination now
        .ok (⟨Utf8.lossy name, flag == 0x21, report⟩, cursor)

end Item

end Aprs
