import Aprs.Checked.Timestamp
import Aprs.Reader.Steps

/-!
# Checked steps of a reader

The position moves within a word, a number is added up in one, and octets are given only as a piece of
the string.
-/

namespace Aprs.Checked

/-- The next octet. -/
def takeOctet (limit : Nat) (r : Reader) : Checked (Except ReadError UInt8 × Reader) :=
  match r.data[r.position]? with
  | some b => do return (.ok b, { r with position := ← add limit r.position 1 })
  | none => return (.error .unexpectedEnd, r)

/-- The next `count` octets. -/
def takeExact (limit : Nat) (r : Reader) (count : Nat) :
    Checked (Except ReadError Bytes × Reader) := do
  match ← exact limit r count with
  | .error cause => return (.error cause, r)
  | .ok (octets, r) => return (.ok octets, r)

/-- The number in the next `count` octets. -/
def takeDecimal (limit : Nat) (r : Reader) (count : Nat) :
    Checked (Except ReadError Nat × Reader) := do
  match ← takeExact limit r count with
  | (.error cause, r) => return (.error cause, r)
  | (.ok octets, r) =>
    match ← field? octets with
    | some n => return (.ok n, r)
    | none => return (.error (.invalidNumber (Utf8.lossy octets)), r)

/-- All octets that are left, none where the position is past the end. -/
def takeRest (r : Reader) : Checked (Bytes × Reader) := do
  return (← behind r.data (min r.position r.data.length), { r with position := r.data.length })

/-- A step, and the reader behind it. -/
def take (limit : Nat) (r : Reader) : Reader.Step → Checked (Except ReadError Reader.Value × Reader)
  | .octet => return (← takeOctet limit r).map (Except.map .octet) id
  | .exact count => return (← takeExact limit r count).map (Except.map .octets) id
  | .decimal count => return (← takeDecimal limit r count).map (Except.map .number) id
  | .rest => return (← takeRest r).map (fun bytes => .ok (.octets bytes)) id

/-- Steps one after another, and the reader behind them. -/
def run (limit : Nat) (r : Reader) :
    List Reader.Step → Checked (List (Except ReadError Reader.Value) × Reader)
  | [] => return ([], r)
  | step :: steps => do
    let turn ← take limit r step
    return (← run limit turn.2 steps).map (turn.1 :: ·) id

end Aprs.Checked
