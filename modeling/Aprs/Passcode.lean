import Aprs.Cut
import Aprs.Text.Uppercase
import Aprs.Text.Utf8

/-!
# Passcodes

The code with which a station logs in to the network: its call, without an SSID and in upper case,
folded into fifteen bits two octets at a time.

Specification: 12.9 (Utilities).
-/

namespace Aprs.Passcode

/-- The value from which the folding starts. -/
def seed : UInt16 := 0x73E2

/-- Folds octets into a value, each pair with its first octet in the high half. -/
def fold (hash : UInt16) : Bytes → UInt16
  | high :: low :: rest => fold ((hash ^^^ (high.toUInt16 <<< 8)) ^^^ low.toUInt16) rest
  | [high] => hash ^^^ (high.toUInt16 <<< 8)
  | [] => hash

/-- The passcode of a callsign. -/
def ofCallsign (callsign : Text) : Nat :=
  let call :=
    match cutFirst '-' callsign with
    | some (call, _) => call
    | none => callsign
  (fold seed (Utf8.encode (Text.upperAscii call)) &&& 0x7FFF).toNat

end Aprs.Passcode
