import Aprs.Packet

/-!
# Tallies

Running totals over a batch of lines: how many there were, how many could not be framed, how many
carried a fault, and how many there were of each kind and with each identifier.

Specification: 13 (Tools).
-/

namespace Aprs

/-- Counts by key, in the order of the keys; a key that was never counted has none. -/
abbrev Counts (κ : Type) := List (κ × Nat)

namespace Counts

variable {κ : Type}

/-- One more of a key, whose place in the order is its rank. -/
def add (rank : κ → Nat) (key : κ) : Counts κ → Counts κ
  | [] => [(key, 1)]
  | (k, n) :: rest =>
    if rank key < rank k then (key, 1) :: (k, n) :: rest
    else if rank key = rank k then (k, n + 1) :: rest
    else (k, n) :: add rank key rest

/-- The count of a key. -/
def count [DecidableEq κ] (counts : Counts κ) (key : κ) : Nat := (counts.lookup key).getD 0

/-- The sum of the counts. -/
def total (counts : Counts κ) : Nat := counts.foldr (fun (_, n) sum => n + sum) 0

end Counts

/-- The totals. -/
structure Tally where
  lines : Nat
  rejected : Nat
  faulted : Nat
  byKind : Counts Kind
  byIdentifier : Counts UInt8
  deriving DecidableEq, Repr

namespace Tally

/-- The totals over no line. -/
def empty : Tally := ⟨0, 0, 0, [], []⟩

/-- The totals with one more packet. -/
def record {α : Type} (t : Tally) (p : Packet α) : Tally :=
  { lines := t.lines + 1
    rejected := t.rejected
    faulted := if p.payload.hasFault then t.faulted + 1 else t.faulted
    byKind := t.byKind.add Kind.rank p.payload.kind
    byIdentifier := t.byIdentifier.add UInt8.toNat p.payload.identifier }

/-- The totals with one more line that could not be framed. -/
def reject (t : Tally) : Tally := { t with lines := t.lines + 1, rejected := t.rejected + 1 }

/-- The totals with one more line, which gave a packet or cannot be framed. -/
def add {α ε : Type} (t : Tally) : Except ε (Packet α) → Tally
  | .ok p => t.record p
  | .error _ => t.reject

/-- The totals over what lines gave. -/
def ofPackets {α ε : Type} (packets : List (Except ε (Packet α))) : Tally :=
  packets.foldl add empty

/-- The totals in lines of text. -/
def text (t : Tally) : Text :=
  let number := Decimal.digits
  "lines=".toList ++ number t.lines ++ " rejected=".toList ++ number t.rejected
    ++ " faulted=".toList ++ number t.faulted ++ ['\n']
    ++ (t.byKind.flatMap fun (kind, n) =>
      "  ".toList ++ kind.name ++ ": ".toList ++ number n ++ ['\n'])
    ++ t.byIdentifier.flatMap fun (identifier, n) =>
      "  ".toList ++ Text.quoteChar (charOfByte identifier) ++ ": ".toList ++ number n ++ ['\n']

end Tally

end Aprs
