import Aprs.Reader

/-!
# Steps of a reader

A field is read by steps that follow each other on one reader. Each gives a value or an error, and the
next one goes on with the reader as the one before it has left it, whether that one failed or not.
-/

namespace Aprs.Reader

/-- The octets that are left. -/
def left (r : Reader) : Bytes := r.data.drop r.position

/-- What a reader is asked for. -/
inductive Step
  | octet
  | exact (count : Nat)
  | decimal (count : Nat)
  | rest
  deriving DecidableEq, Repr

/-- How many octets have to be left for a step. -/
def Step.asks : Step → Nat
  | .octet => 1
  | .exact count => count
  | .decimal count => count
  | .rest => 0

/-- What a step gives. -/
inductive Value
  | octet (b : UInt8)
  | octets (bytes : Bytes)
  | number (n : Nat)
  deriving DecidableEq, Repr

/-- A step, and the reader behind it. -/
def take (r : Reader) : Step → Except ReadError Value × Reader
  | .octet => r.octet.map (Except.map .octet) id
  | .exact count => (r.exact count).map (Except.map .octets) id
  | .decimal count => (r.decimal count).map (Except.map .number) id
  | .rest => r.rest.map (fun bytes => .ok (.octets bytes)) id

/-- Steps one after another, and the reader behind them. -/
def run (r : Reader) : List Step → List (Except ReadError Value) × Reader
  | [] => ([], r)
  | step :: steps =>
    let turn := r.take step
    (run turn.2 steps).map (turn.1 :: ·) id

end Aprs.Reader
