import Aprs.Json
import Aprs.Packet

/-!
# Packets as JSON

Everything that is known of a packet as one value. Measured values are written in the units in
which people use them.

Specification: 13 (Tools).
-/

namespace Aprs

/-- The name of a form of timestamp. -/
def TimeFormat.name : TimeFormat → Text
  | dayHourMinuteZulu => "DayHourMinuteZulu".toList
  | dayHourMinuteLocal => "DayHourMinuteLocal".toList
  | hourMinuteSecond => "HourMinuteSecond".toList
  | monthDayHourMinute => "MonthDayHourMinute".toList

/-- The name of an encoding. -/
def PositionSource.name : PositionSource → Text
  | uncompressed => "Uncompressed".toList
  | compressed => "Compressed".toList
  | micE => "MicE".toList
  | nmea => "Nmea".toList

/-- The name of a status; of a custom one without its number. -/
def MicEStatus.name : MicEStatus → Text
  | offDuty => "OffDuty".toList
  | enRoute => "EnRoute".toList
  | inService => "InService".toList
  | returning => "Returning".toList
  | committed => "Committed".toList
  | special => "Special".toList
  | priority => "Priority".toList
  | emergency => "Emergency".toList
  | custom _ => "Custom".toList
  | unknown => "Unknown".toList

namespace Export

/-- The reason of a fault. -/
def fault (reason : Text) : Json := .ofFields [("reason", .text reason)]

/-- An instant. -/
def instant (t : Instant) : Json := .text t.text

/-- A callsign. -/
def callsign (c : Callsign) : Json :=
  .ofFields [("call", .text c.call), ("ssid", .text c.ssid)]

/-- A hop. -/
def hop (h : Hop) : Json :=
  .ofFields [("callsign", callsign h.callsign), ("used", .bool h.used)]

/-- An extension under the name of its kind. -/
def extension : Extension → Json
  | .courseSpeed course speed =>
    .ofFields [("CourseSpeed", .ofFields [("course", .ofNat course), ("speed", .ofNat speed)])]
  | .phg p =>
    .ofFields [("Phg", .ofFields [("power", .ofNat p.power), ("height", .ofNat p.height),
      ("gain", .ofNat p.gain), ("directivity", .ofNat p.directivity)])]
  | .range miles => .ofFields [("Range", .ofFields [("miles", .ofNat miles)])]
  | .dfStrength d =>
    .ofFields [("DfStrength", .ofFields [("strength", .ofNat d.strength),
      ("height", .ofNat d.height), ("gain", .ofNat d.gain),
      ("directivity", .ofNat d.directivity)])]

/-- A status, a custom one with its number. -/
def status : MicEStatus → Json
  | .custom number => .ofFields [("Custom", .ofNat number)]
  | s => .text s.name

/-- A position. -/
def position (p : Position Float) : Json :=
  .ofFields [
    ("latitude", .float p.latitude),
    ("longitude", .float p.longitude),
    ("altitude", .ofOption Json.float p.altitude),
    ("ambiguity", .ofNat p.ambiguity),
    ("symbol_table", .text [p.table]),
    ("symbol_code", .text [p.code]),
    ("timestamp", instant p.instant)]

/-- A position and what was found beside it. -/
def positionReport (r : PositionReport Float) : Json :=
  .ofFields [
    ("position", position r.position),
    ("source", .text r.source.name),
    ("extension", .ofOption extension r.extension),
    ("mic_e_message", .ofOption status r.status),
    ("fault", .ofOption (fun f => fault f.reason) r.fault)]

/-- A timestamp. -/
def timestamp (t : Timestamp) : Json :=
  .ofFields [
    ("format", .ofOption (fun f => .text f.name) t.format),
    ("timestamp", .ofOption instant t.instant),
    ("fault", .ofOption (fun f => fault f.reason) t.fault)]

/-- A weather report. -/
def weather (w : Weather) : Json :=
  let inches := Json.ofOption fun n => .float (Weather.inches n)
  .ofFields [
    ("wind_direction", .ofOption Json.ofNat w.windDirection),
    ("wind_speed", .ofOption Json.ofNat w.windSpeed),
    ("wind_gust", .ofOption Json.ofNat w.windGust),
    ("temperature", .ofOption Json.int w.temperature),
    ("rain_last_hour", inches w.rainLastHour),
    ("rain_last_24_hours", inches w.rainLastDay),
    ("rain_since_midnight", inches w.rainSinceMidnight),
    ("humidity", .ofOption Json.ofNat w.humidity),
    ("pressure", .ofOption (fun n => .float (Weather.millibars n)) w.pressure),
    ("luminosity", .ofOption Json.ofNat w.luminosity),
    ("snowfall_last_24_hours", .ofOption (fun n => .float (Scalar.ofNat n)) w.snowfall),
    ("raw_rain_counter", .ofOption Json.ofNat w.rainCounter),
    ("fault", .ofOption (fun f => fault f.reason) w.fault)]

/-- A message. -/
def message (m : Message) : Json :=
  .ofFields [
    ("addressee", .text m.addressee),
    ("text", .text m.body),
    ("number", .ofOption Json.text m.number),
    ("reply_ack", .ofOption Json.text m.replyAck),
    ("is_ack", .bool m.isAck),
    ("is_rej", .bool m.isRej),
    ("fault", .ofOption (fun f => fault f.reason) m.fault)]

/-- A piece under the name of what it is. -/
def piece : Piece Float → Json
  | .time t => .ofFields [("Time", timestamp t)]
  | .position r => .ofFields [("Position", positionReport r)]
  | .weather w => .ofFields [("Weather", weather w)]
  | .message m => .ofFields [("Message", message m)]
  | .object o =>
    .ofFields [("Object", .ofFields [("name", .text o.name), ("live", .bool o.live),
      ("time", timestamp o.time), ("position", positionReport o.report)])]
  | .item i =>
    .ofFields [("Item", .ofFields [("name", .text i.name), ("live", .bool i.live),
      ("position", positionReport i.report)])]
  | .fault cause => .ofFields [("Fault", fault cause.reason)]

/-- A decoded information field. -/
def payload (p : Payload Float) : Json :=
  .ofFields [
    ("raw", .ofBytes p.raw),
    ("data", .object (p.pieces.map fun (kind, value) => (kind.name, piece value))),
    ("cursor", .ofNat p.cursor),
    ("comment", .text p.comment)]

end Export

/-- The packet as a value of JSON. -/
def Packet.toJson (p : Packet Float) : Json :=
  .ofFields [
    ("source", Export.callsign p.header.source),
    ("destination", Export.callsign p.header.destination),
    ("digipeaters", .array (p.header.path.map Export.hop)),
    ("data_type", .text p.payload.kind.name),
    ("payload", Export.payload p.payload),
    ("original", .ofOption Json.ofBytes p.asReceived),
    ("received_at", Export.instant p.receivedAt)]

end Aprs
