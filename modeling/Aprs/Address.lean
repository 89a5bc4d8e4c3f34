import Aprs.Callsign
import Aprs.Text.Blank
import Aprs.Text.Quoted

/-!
# Addresses

An address is seven octets: six characters of the call, padded with blanks and shifted left by one
bit, and an octet that holds the SSID between two flags. The high flag tells that a hop has been
used, the low one that the address is the last of its chain; the two bits below the high flag are
reserved and set.

Specification: 4.1 (Callsign/Address Codec).
-/

namespace Aprs

/-- A station in a chain of addresses. -/
structure Address where
  callsign : Callsign
  used : Bool
  last : Bool
  deriving DecidableEq, Repr

namespace Address

/-- Why a callsign has no address. -/
inductive Error
  | callsignTooLong (call : Text)
  | invalidCallsign (call : Text)
  | invalidSsid (ssid : Text)
  deriving DecidableEq, Repr

/-- The wording of an error. -/
def Error.message : Error → Text
  | .callsignTooLong call => "callsign ".toList ++ Text.quote call ++ " exceeds 6 characters".toList
  | .invalidCallsign call =>
    "callsign ".toList ++ Text.quote call ++
      " contains characters outside printable ASCII".toList
  | .invalidSsid ssid => "ssid ".toList ++ Text.quote ssid ++ " is not a number in 0..=15".toList

/-- How many octets an address takes. -/
def length : Nat := 7

/-- How many of them hold the call. -/
def callLength : Nat := 6

/-- The octet of a blank in the call. -/
def padding : UInt8 := 0x40

/-- Whether an octet is a printable ASCII character other than the space. -/
def isGraphic (b : UInt8) : Bool := 0x21 ≤ b.toNat && b.toNat ≤ 0x7E

/-- The octet of a character of the call, a letter in upper case. -/
def callOctet (b : UInt8) : UInt8 :=
  let n := b.toNat
  UInt8.ofNat (2 * if 0x61 ≤ n ∧ n ≤ 0x7A then n - 0x20 else n)

/-- The octet behind the call. -/
def flagOctet (ssid : Nat) (used last : Bool) : UInt8 :=
  UInt8.ofNat ((if used then 0x80 else 0) + 0x60 + 2 * ssid + if last then 1 else 0)

/-- The octets of an address. -/
def encode (a : Address) : Except Error Bytes :=
  let call := Utf8.encode a.callsign.call
  if callLength < call.length then .error (.callsignTooLong a.callsign.call)
  else if call.isEmpty ∨ call.any (fun b => !isGraphic b) then
    .error (.invalidCallsign a.callsign.call)
  else
    match a.callsign.ssidNumber? with
    | none => .error (.invalidSsid a.callsign.ssid)
    | some ssid =>
      .ok (call.map callOctet ++ List.replicate (callLength - call.length) padding
        ++ [flagOctet ssid a.used a.last])

/-- The address in seven octets. Blanks behind the call are padding, and an SSID of zero is none. -/
def decode (octets : Bytes) : Address :=
  let call := (octets.take callLength).map fun b => Char.ofNat (b.toNat / 2)
  let flags := (octets.getD callLength 0).toNat
  let ssid := flags / 2 % 16
  { callsign := ⟨Text.trimEnd call, if ssid = 0 then [] else Decimal.digits ssid⟩
    used := 0x80 ≤ flags
    last := flags % 2 = 1 }

end Address

end Aprs
