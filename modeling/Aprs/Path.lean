import Aprs.Callsign
import Aprs.Text.DecimalDigit
import Aprs.Text.Uppercase

/-!
# Paths

The stations that a packet is to be repeated by, or was: a hop is marked with an asterisk once it
has repeated the packet. Some hops are no stations: an alias asks any station of a kind, and a
gateway marker says how the packet came to the network, the gateway itself following it.

Specification: 12.1 (Callsign/Digipeater) and 4.6 (Packet Framer/Dispatcher).
-/

namespace Aprs

/-- One hop of a path. -/
structure Hop where
  callsign : Callsign
  used : Bool
  deriving DecidableEq, Repr, Inhabited

namespace Hop

/-- The hop that a text names. -/
def parse (t : Text) : Hop :=
  if t.getLast? = some '*' then ⟨Callsign.parse t.dropLast, true⟩ else ⟨Callsign.parse t, false⟩

/-- The hop as text. -/
def text (h : Hop) : Text := if h.used then h.callsign.text ++ ['*'] else h.callsign.text

/-- The words that aliases begin with. -/
def aliasWords : List Text := ["WIDE".toList, "TRACE".toList, "RELAY".toList]

/-- Whether the hop is an alias: one of the words in either case, and any decimal digits. -/
def isAlias (h : Hop) : Bool :=
  aliasWords.any fun word =>
    Text.upperAscii (h.callsign.call.take word.length) = word &&
      (h.callsign.call.drop word.length).all Text.isDecimalDigit

/-- The gateway markers, in upper case. -/
def gatewayMarkers : List Text := ["QAR".toList, "QAS".toList, "QAC".toList, "QAO".toList]

/-- Whether the hop marks the gateway that follows it. -/
def isGatewayMarker (h : Hop) : Bool := gatewayMarkers.contains (Text.upperAscii h.callsign.call)

end Hop

/-- A path, in the order of its hops. -/
abbrev Path := List Hop

namespace Path

/-- The path that a text writes between commas; entries that are empty name no hop. -/
def parse (t : Text) : Path :=
  ((pieces ',' t).filter fun entry => !entry.isEmpty).map Hop.parse

/-- The path as it stands in a header, with a comma before each hop. -/
def text (p : Path) : Text := p.flatMap fun hop => ',' :: hop.text

/-- The last station that repeated the packet; aliases are passed over. -/
def lastUsed? (p : Path) : Option Hop := p.reverse.find? fun hop => hop.used && !hop.isAlias

/-- The gateway: the hop behind the first gateway marker. -/
def gateway? (p : Path) : Option Callsign :=
  match p.dropWhile fun hop => !hop.isGatewayMarker with
  | _ :: hop :: _ => some hop.callsign
  | _ => none

end Path

end Aprs
