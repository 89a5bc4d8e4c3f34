import Aprs.Address
import Aprs.Base91
import Aprs.Buffer
import Aprs.Calendar
import Aprs.Callsign
import Aprs.Checked
import Aprs.Checked.Extension
import Aprs.Checked.Payload
import Aprs.Checked.Position
import Aprs.Checked.Reader
import Aprs.Checked.Timestamp
import Aprs.Checked.Weather
import Aprs.Command
import Aprs.Command.Arguments
import Aprs.Command.Outcome
import Aprs.Command.Run
import Aprs.Cut
import Aprs.Decimal.Digits
import Aprs.Decimal.Numeral
import Aprs.Decimal.Shortest
import Aprs.Extension
import Aprs.Frame
import Aprs.Item
import Aprs.Json
import Aprs.Main
import Aprs.Message
import Aprs.Object
import Aprs.Packet
import Aprs.Packet.Export
import Aprs.Packet.Summary
import Aprs.Passcode
import Aprs.Path
import Aprs.Payload
import Aprs.Payload.Decode
import Aprs.Payload.Kind
import Aprs.Payload.Piece
import Aprs.Position.Angle
import Aprs.Position.Basic
import Aprs.Position.Compressed
import Aprs.Position.Decode
import Aprs.Position.MicE
import Aprs.Position.MicE.Encoding
import Aprs.Position.Nmea
import Aprs.Position.Report
import Aprs.Position.Uncompressed
import Aprs.Proofs.Address
import Aprs.Proofs.Base91
import Aprs.Proofs.Base91.Limits
import Aprs.Proofs.Binary.Operations
import Aprs.Proofs.Binary.Order
import Aprs.Proofs.Binary.Packing
import Aprs.Proofs.Binary.Rounding
import Aprs.Proofs.Binary.Whole
import Aprs.Proofs.Calendar
import Aprs.Proofs.Checked.Extension
import Aprs.Proofs.Checked.Payload
import Aprs.Proofs.Checked.Position
import Aprs.Proofs.Checked.Timestamp
import Aprs.Proofs.Checked.Weather
import Aprs.Proofs.Command
import Aprs.Proofs.Cursor
import Aprs.Proofs.Decimal
import Aprs.Proofs.Decimal.Integer
import Aprs.Proofs.Exact
import Aprs.Proofs.Frame.Chain
import Aprs.Proofs.Frame.Encoding
import Aprs.Proofs.Frame.Room
import Aprs.Proofs.Frame.Rewriting
import Aprs.Proofs.Message
import Aprs.Proofs.Object
import Aprs.Proofs.Object.Flag
import Aprs.Proofs.Object.Name
import Aprs.Proofs.Packet.Line
import Aprs.Proofs.Packet.Rereading
import Aprs.Proofs.Packet.RoundTrip
import Aprs.Proofs.Packet.Summary
import Aprs.Proofs.Packet.Tidying
import Aprs.Proofs.Packet.Unbroken
import Aprs.Proofs.Payload.Consistency
import Aprs.Proofs.Payload.Contents
import Aprs.Proofs.Payload.Course
import Aprs.Proofs.Payload.Independence
import Aprs.Proofs.Payload.Origin
import Aprs.Proofs.Payload.Widths
import Aprs.Proofs.Position.Angle
import Aprs.Proofs.Position.Compressed
import Aprs.Proofs.Position.Globe
import Aprs.Proofs.Position.Limits
import Aprs.Proofs.Position.MicE
import Aprs.Proofs.Position.Nmea
import Aprs.Proofs.Position.Rereading
import Aprs.Proofs.Position.Signed
import Aprs.Proofs.Position.Text
import Aprs.Proofs.Position.Uncompressed
import Aprs.Proofs.Reader
import Aprs.Proofs.Scalar
import Aprs.Proofs.Tally
import Aprs.Proofs.Text
import Aprs.Proofs.Text.SingleLine
import Aprs.Proofs.Timestamp
import Aprs.Proofs.Timestamp.Outcome
import Aprs.Proofs.Timestamp.Rereading
import Aprs.Proofs.Utf8
import Aprs.Proofs.Weather.Grammar
import Aprs.Proofs.Weather.Order
import Aprs.Proofs.Weather.Pieces
import Aprs.Proofs.Weather.Readings
import Aprs.Proofs.Weather.Record
import Aprs.Proofs.Weather.Report
import Aprs.Proofs.Weather.Tokenwise
import Aprs.Proofs.Weather.Words
import Aprs.Reader
import Aprs.Reader.Steps
import Aprs.Scalar
import Aprs.Scalar.Exact
import Aprs.Scalar.Signed
import Aprs.Tally
import Aprs.Text
import Aprs.Text.Blank
import Aprs.Text.DecimalDigit
import Aprs.Text.DigitRun
import Aprs.Text.Hex
import Aprs.Text.Printable
import Aprs.Text.Quoted
import Aprs.Text.Uppercase
import Aprs.Text.Utf8
import Aprs.Text.Utf8.Ascii
import Aprs.Text.Utf8.RoundTrip
import Aprs.Timestamp
import Aprs.Units
import Aprs.Weather.Record
import Aprs.Weather.Report
import Aprs.Weather.Token
import Aprs.Proofs.Position.Layout
import Aprs.Proofs.Position.Acceptance
