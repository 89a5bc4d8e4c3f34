import Aprs.Text

/-!
# Kinds

What information is about. The kinds are ordered, and their order is that of the pieces of an
information field and of the lines of a tally.

Specification: 4.6 (Packet Framer/Dispatcher).
-/

namespace Aprs

/-- What an information field, or a piece of it, is about. -/
inductive Kind
  | unspecified
  | timestamp
  | position
  | weather
  | message
  | object
  | item
  | status
  | stationCapabilities
  | query
  | telemetry
  | userDefined
  | thirdParty
  deriving DecidableEq, Repr

namespace Kind

/-- The place of a kind in the order of kinds. -/
def rank : Kind → Nat
  | unspecified => 0
  | timestamp => 1
  | position => 2
  | weather => 3
  | message => 4
  | object => 5
  | item => 6
  | status => 7
  | stationCapabilities => 8
  | query => 9
  | telemetry => 10
  | userDefined => 11
  | thirdParty => 12

/-- The name of a kind. -/
def name : Kind → Text
  | unspecified => "Unspecified".toList
  | timestamp => "Timestamp".toList
  | position => "Position".toList
  | weather => "Weather".toList
  | message => "Message".toList
  | object => "Object".toList
  | item => "Item".toList
  | status => "Status".toList
  | stationCapabilities => "StationCapabilities".toList
  | query => "Query".toList
  | telemetry => "Telemetry".toList
  | userDefined => "UserDefined".toList
  | thirdParty => "ThirdParty".toList

end Kind

end Aprs
