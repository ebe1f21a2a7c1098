import Interchange.Pack.Fault

/-!
# Faults

Everything that an operation can fail with, by cause, and its wording. A parse fault concerns one
message body and leaves the connection as it is; every other fault ends the connection on which it
arises.
-/

namespace Interchange

/-- Why a length field stands for no body length, or a body for no length field. -/
inductive LengthFault where
  /-- The field is no decimal number. -/
  | notDecimal (field : List UInt8)
  /-- The digits of the field exceed 64 bits. -/
  | digitsOverflow
  /-- The value of the field and the adjustment add up to a negative length. -/
  | negative (length : Int) (value : Nat) (adjustment : Int)
  /-- The value of the field and the adjustment add up to more than 64 bits. -/
  | overflow (length : Int)
  /-- The body is shorter than the adjustment. -/
  | shortBody (length : Nat) (adjustment : Int)
  /-- A fault of a listener, in its own words. -/
  | described (text : String)
  deriving DecidableEq, Repr

/-- The wording of a length fault. -/
def LengthFault.message : LengthFault → String
  | .notDecimal field =>
    "length field " ++ String.ofList (Quoted.encode (Utf8.decodeLossy field))
      ++ " is not a decimal number"
  | .digitsOverflow => "length field overflows"
  | .negative length value adjustment =>
    "negative frame length " ++ Digits.signed length ++ " (field value " ++ Digits.text value
      ++ ", adjustment " ++ Digits.signed adjustment ++ ")"
  | .overflow length => "frame length " ++ Digits.signed length ++ " overflows"
  | .shortBody length adjustment =>
    "body of " ++ Digits.text length ++ " bytes is shorter than adjustment "
      ++ Digits.signed adjustment
  | .described text => text

/-- The widest binary length field. -/
def widestBinaryField : Nat := 8

/-- The widest length field of decimal digits. -/
def widestDecimalField : Nat := 19

/-- The longest queue of outbound messages. -/
def longestQueue : Nat := Nat.pow 2 61 - 1

/-- Why settings cannot be used. -/
inductive SettingsFault where
  /-- A length field of decimal digits that is too wide. -/
  | decimalField (width : Nat)
  /-- A binary length field that is too wide. -/
  | binaryField (width : Nat)
  /-- No body fits. -/
  | maxFrameLength
  /-- The outbound queue is empty or too long. -/
  | maxPendingWrites
  /-- A fault of a listener, in its own words. -/
  | described (text : String)
  deriving DecidableEq, Repr

/-- The wording of a settings fault. -/
def SettingsFault.message : SettingsFault → String
  | .decimalField width =>
    "String length field of " ++ Digits.text width ++ " bytes exceeds "
      ++ Digits.text widestDecimalField
  | .binaryField width =>
    "Binary length field of " ++ Digits.text width ++ " bytes exceeds "
      ++ Digits.text widestBinaryField
  | .maxFrameLength => "maxFrameLength must be positive"
  | .maxPendingWrites => "maxPendingWrites must be in 1..=" ++ Digits.text longestQueue
  | .described text => text

/-- Why an operation failed. -/
inductive Fault where
  /-- The socket failed. -/
  | io (text : String)
  /-- Settings are not well-formed JSON or do not fit the settings' types. -/
  | json (text : String)
  /-- A body is longer than the maximum. -/
  | frameTooLarge (length max : Nat)
  /-- A length field stands for no body length, or a body for no length field. -/
  | invalidFrameLength (cause : LengthFault)
  /-- A value needs more than the width of the length field. -/
  | headerOverflow (value : Int) (width : Nat)
  /-- A body is no message. -/
  | parse (cause : Pack.Fault)
  /-- A message cannot be written. -/
  | encode (text : String)
  /-- A listener failed. -/
  | listener (text : String)
  /-- There is no connection. -/
  | notConnected
  /-- The outbound queue is full. -/
  | notWritable
  /-- The connection is closing or closed. -/
  | connectionClosed
  /-- The time ran out. -/
  | timeout
  /-- The settings cannot be used. -/
  | invalidConfig (cause : SettingsFault)
  /-- The connector was not initialized. -/
  | notInitialized
  deriving DecidableEq, Repr

namespace Fault

/-- The wording of a fault. -/
def message : Fault → String
  | io text => "I/O error: " ++ text
  | json text => "JSON error: " ++ text
  | frameTooLarge length max =>
    "Frame length " ++ Digits.text length ++ " exceeds maximum " ++ Digits.text max
  | invalidFrameLength cause => "Invalid frame length: " ++ cause.message
  | headerOverflow value width =>
    "Frame length " ++ Digits.signed value ++ " does not fit into a " ++ Digits.text width
      ++ "-byte header"
  | parse cause => "Parse error: " ++ cause.message
  | encode text => "Encode error: " ++ text
  | listener text => "Listener error: " ++ text
  | notConnected => "Not connected"
  | notWritable => "Channel is not writable"
  | connectionClosed => "Connection closed"
  | timeout => "Operation timed out"
  | invalidConfig cause => "Invalid configuration: " ++ cause.message
  | notInitialized => "Connector is not initialized"

/-- The kind of a fault in a word. -/
def kind : Fault → String
  | io _ => "Io"
  | json _ => "Json"
  | frameTooLarge .. => "FrameTooLarge"
  | invalidFrameLength _ => "InvalidFrameLength"
  | headerOverflow .. => "HeaderOverflow"
  | parse _ => "Parse"
  | encode _ => "Encode"
  | listener _ => "Listener"
  | notConnected => "NotConnected"
  | notWritable => "NotWritable"
  | connectionClosed => "ConnectionClosed"
  | timeout => "Timeout"
  | invalidConfig _ => "InvalidConfig"
  | notInitialized => "NotInitialized"

/-- Whether a fault ends the connection on which it arises: all but parse faults do. -/
def endsConnection : Fault → Bool
  | parse _ => false
  | _ => true

end Fault

end Interchange
