import Aprs.Checked
import Aprs.Weather.Report

/-!
# Checked weather reports

A pattern is tried on the octets from the cursor on, which must not lie past the end, and the cursor
moves on by as many octets as the pattern takes. Readings are integers of 32 bits, and one of them is
a sum.

Specification: 4.5 (Weather Decoder).
-/

namespace Aprs.Checked

/-- The report with the reading that was written for a field. The high luminosity is a sum. -/
def setReading (w : Weather) (directionAsField : Bool) (f : Weather.Field) (written : Text) :
    Checked Weather :=
  match f, Decimal.integer? written with
  | .luminosityHigh, some n => do
    let sum ← signed (max n 0 + 1000)
    return { w with luminosity := some sum.toNat }
  | f, _ => return w.set directionAsField f written

/-- What a token makes of the report. -/
def applyToken (p : Weather.Progress) (token : Weather.Token) : Checked Weather.Progress :=
  match token with
  | .wind .. => return p.apply token
  | .field f written => do
    let directionAsField := p.directionAsField || f == .windDirection
    return ⟨← setReading p.report directionAsField f written, directionAsField⟩

theorem length_of_behind {octets rest : Bytes} {start : Nat} (h : behind octets start = .ok rest) :
    start ≤ octets.length ∧ rest = octets.drop start := by
  by_cases hle : start ≤ octets.length
  · rw [behind_eq hle] at h
    exact ⟨hle, (Except.ok.inj h).symm⟩
  · unfold behind piece piece? at h
    rw [if_neg (fun hc => hle hc.1)] at h
    simp at h

theorem eq_of_add {limit a b c : Nat} (h : add limit a b = .ok c) : c = a + b := by
  unfold add at h
  split at h
  · exact (Except.ok.inj h).symm
  · simp at h

/-- The report with all tokens from the cursor on, and the place behind the last of them. -/
def probe (limit : Nat) (payload : Bytes) (p : Weather.Progress) (cursor : Nat) :
    Checked (Weather.Progress × Nat) :=
  match _hrest : behind payload cursor with
  | .error cause => .error cause
  | .ok rest =>
    match _htoken : Weather.Token.next? rest with
    | none => return (p, cursor)
    | some (token, more) => do
      let p ← applyToken p token
      match _hnext : add limit cursor (rest.length - more.length) with
      | .error cause => .error cause
      | .ok next => probe limit payload p next
  termination_by payload.length - cursor
  decreasing_by
    have hmore := Weather.Token.next?_length _htoken
    obtain ⟨hle, hdrop⟩ := length_of_behind _hrest
    rw [eq_of_add _hnext]
    rw [hdrop, List.length_drop] at hmore ⊢
    omega

/-- The report with a field from behind the cursor if it lacks it, and whether one was found. -/
def seek (directionAsField : Bool) (payload : Bytes) (cursor : Nat) (w : Weather)
    (f : Weather.Field) : Checked (Weather × Bool) := do
  if w.holds directionAsField f then return (w, false)
  match Weather.find? f (← behind payload cursor) with
  | some written => return (← setReading w directionAsField f written, true)
  | none => return (w, false)

/-- The report with the given fields from behind the cursor as far as it lacks them, and whether one
was found. -/
def seekAll (directionAsField : Bool) (payload : Bytes) (cursor : Nat) :
    List Weather.Field → Weather × Bool → Checked (Weather × Bool)
  | [], state => return state
  | f :: rest, (w, found) => do
    let (w, foundNow) ← seek directionAsField payload cursor w f
    seekAll directionAsField payload cursor rest (w, found || foundNow)

/-- The report with the fields of a complete block at `start`, if there is one, and the place behind
it. -/
def decodeBlock (limit : Nat) (payload : Bytes) (start : Nat) : Checked (Weather × Nat) := do
  let octets ← behind payload start
  match Weather.block? octets with
  | some (fields, rest) =>
    return (Weather.empty.applyBlock fields, ← add limit start (octets.length - rest.length))
  | none => return (Weather.empty, start)

/-- The report of which a block at `start` has given `held`, with what is read from the cursor on, and
the place behind what was read in order. -/
def decodeFields (limit : Nat) (payload : Bytes) (start : Nat) (held : Weather) (cursor : Nat) :
    Checked (Weather × Nat) := do
  let (p, cursor) ← probe limit payload ⟨held, false⟩ cursor
  let (report, found) ← seekAll p.directionAsField payload cursor Weather.sought (p.report, false)
  if cursor = start ∧ found = false then
    return ({ report with fault := some .nothingFound }, cursor)
  return (report, cursor)

/-- The weather report at `start`, and the place behind what was read in order. -/
def decodeWeather (limit : Nat) (payload : Bytes) (start : Nat) : Checked (Weather × Nat) := do
  let start := min start payload.length
  let (held, cursor) ← decodeBlock limit payload start
  decodeFields limit payload start held cursor

end Aprs.Checked
