import Aprs.Packet
import Aprs.Text.Hex

/-!
# Outcomes

What a command prints and the code with which it ends, and the reports on the failures that end a
command before its work is done.
-/

namespace Aprs.Command

/-- The name of a failure with what it holds between parentheses. -/
def failureWith (name : String) (content : Text) : Text :=
  name.toList ++ '(' :: content ++ [')']

/-- What ends a command before its work is done. -/
inductive Failure
  | decode (cause : DecodeError)
  | encode (cause : EncodeError)
  | hex (cause : Hex.Error)
  | notText
  deriving DecidableEq, Repr

/-- The report on octets that are no packet. -/
def decodeReport : DecodeError → Text
  | .read .unexpectedEnd => "UnexpectedEof".toList
  | .read (.invalidNumber field) => failureWith "InvalidNumber" (Text.quote field)
  | .read .outOfBounds => "OutOfBounds".toList
  | .missingMark mark => failureWith "MissingDelimiter" (Text.quoteChar mark)
  | .emptySource => "EmptySource".toList
  | .invalidControlField control protocol =>
    "InvalidControlField \x7b control: ".toList ++ Decimal.digits control.toNat
      ++ ", pid: ".toList ++ Decimal.digits protocol.toNat ++ " \x7d".toList
  | .tooManyHops => "TooManyDigipeaters".toList

/-- The report on a packet that has no frame. -/
def encodeReport : EncodeError → Text
  | .bufferTooSmall => "BufferTooSmall".toList
  | .address (.callsignTooLong call) => failureWith "CallsignTooLong" (Text.quote call)
  | .address (.invalidCallsign call) => failureWith "InvalidCallsign" (Text.quote call)
  | .address (.invalidSsid ssid) => failureWith "InvalidSsid" (Text.quote ssid)
  | .tooManyHops count => failureWith "TooManyDigipeaters" (Decimal.digits count)

/-- The report on digits that are no octets. -/
def hexReport : Hex.Error → Text
  | .oddLength => "OddLength".toList
  | .invalidDigit octet index =>
    "InvalidHexCharacter \x7b c: ".toList ++ Text.quoteChar (charOfByte octet)
      ++ ", index: ".toList ++ Decimal.digits index ++ " \x7d".toList

/-- The report on a failure. -/
def Failure.report : Failure → Text
  | .decode cause => decodeReport cause
  | .encode cause => encodeReport cause
  | .hex cause => hexReport cause
  | .notText =>
    "Error \x7b kind: InvalidData, message: \"stream did not contain valid UTF-8\" \x7d".toList

/-- What a command prints, and the code with which it ends. -/
structure Outcome where
  code : Nat
  stdout : Text
  stderr : Text
  deriving DecidableEq, Repr

/-- A command that has done its work. -/
def Outcome.done (stdout : Text) : Outcome := ⟨0, stdout, []⟩

/-- A command that a failure has ended, behind what it has printed. -/
def Outcome.failed (stdout : Text) (failure : Failure) : Outcome :=
  ⟨1, stdout, "Error: ".toList ++ failure.report ++ ['\n']⟩

/-- The code of arguments that make no sense. -/
def usageCode : Nat := 2

end Aprs.Command
