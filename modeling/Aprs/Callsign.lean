import Aprs.Cut
import Aprs.Decimal.Digits
import Aprs.Text.Utf8

/-!
# Callsigns

A station is named by a call and, behind a hyphen, an SSID that tells several stations of one
operator apart. The SSID is kept as it was received; only an address needs it as a number.

Specification: 4.1 (Callsign/Address Codec) and 12.1 (Callsign/Digipeater).
-/

namespace Aprs

/-- The name of a station. -/
structure Callsign where
  call : Text
  ssid : Text
  deriving DecidableEq, Repr, Inhabited

namespace Callsign

/-- The callsign that a text names, cut at its first hyphen. -/
def parse (t : Text) : Callsign :=
  match cutFirst '-' t with
  | some (call, ssid) => ⟨call, ssid⟩
  | none => ⟨t, []⟩

/-- The callsign as text, without a hyphen if there is no SSID. -/
def text (c : Callsign) : Text :=
  if c.ssid.isEmpty then c.call else c.call ++ '-' :: c.ssid

/-- Whether the station has no call. -/
def isEmpty (c : Callsign) : Bool := c.call.isEmpty

/-- The greatest SSID that an address holds. -/
def maxSsid : Nat := 15

/-- The SSID as a number, zero if there is none. -/
def ssidNumber? (c : Callsign) : Option Nat :=
  if c.ssid.isEmpty then some 0
  else
    match Decimal.field? (Utf8.encode c.ssid) with
    | some n => if n ≤ maxSsid then some n else none
    | none => none

end Callsign

end Aprs
