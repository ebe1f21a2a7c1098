import Interchange.Echo
import Interchange.Frame.Codec

/-!
# Settings

What a connector is told: the framing, the limits, and which of its services are on. A client is
told in addition how long to wait before it connects again. `Settings.validate` refuses what no
connector can run with; the first complaint counts.
-/

namespace Interchange

/-- The settings of a connector. -/
structure Settings where
  /-- The width of the length field in bytes. -/
  lengthWidth : UInt64 := 2
  /-- The bytes in front of the length field. -/
  lengthOffset : UInt64 := 0
  /-- What is added to the value of the length field to get the body length. -/
  lengthAdjustment : Int32 := 0
  /-- Whether the length field holds decimal digits. -/
  lengthDecimal : Bool := false
  /-- The maximum body length. -/
  maxFrameLength : UInt64 := 8192
  /-- The seconds without traffic after which a heartbeat is sent. -/
  idleTimeout : UInt64 := 30
  /-- Whether echo requests are answered and heartbeats sent. -/
  answerEchoes : Bool := false
  /-- Whether a body that is no message is answered with a reject message. -/
  replyOnError : Bool := false
  /-- The number of worker threads; zero leaves it to the machine. -/
  workerThreads : UInt64 := 0
  /-- Whether a fault of a listener ends the dispatch and the connection. -/
  failOnListenerError : Bool := true
  /-- Which messages are echo requests. -/
  echoRule : EchoRule := .networkManagementRequest
  /-- Whether messages are logged. -/
  logMessages : Bool := false
  /-- Whether sensitive fields are logged as they are. -/
  logSensitive : Bool := true
  /-- The numbers of the sensitive fields. -/
  sensitiveFields : List UInt8 := [34, 35, 36, 45]
  /-- The bound of the outbound queue. -/
  maxPendingWrites : UInt64 := 1024
  deriving DecidableEq, Repr

namespace Settings

/-- The settings where none are given. -/
def default : Settings := {}

/-- The shape of the frames. -/
def geometry (s : Settings) : Geometry where
  width := s.lengthWidth.toNat
  offset := s.lengthOffset.toNat
  adjustment := s.lengthAdjustment
  decimal := s.lengthDecimal

/-- The framing. -/
def codec (s : Settings) : Codec := ⟨s.geometry, s.maxFrameLength.toNat⟩

/-- Whether a connector can run with the settings. -/
def validate (s : Settings) : Except Fault Unit := do
  s.geometry.validate
  if s.maxFrameLength = 0 then .error (.invalidConfig .maxFrameLength)
  else if s.maxPendingWrites = 0 ∨ longestQueue < s.maxPendingWrites.toNat then
    .error (.invalidConfig .maxPendingWrites)
  else .ok ()

/-- The seconds without traffic after which a heartbeat is sent, if heartbeats are on. -/
def heartbeat? (s : Settings) : Option Nat :=
  if s.answerEchoes ∧ s.idleTimeout ≠ 0 then some s.idleTimeout.toNat else none

/-- The number of worker threads, if it is set. -/
def workers? (s : Settings) : Option Nat :=
  if s.workerThreads = 0 then none else some s.workerThreads.toNat

end Settings

/-- The settings of a client. -/
structure ClientSettings where
  /-- The settings of its connector. -/
  connector : Settings := .default
  /-- The milliseconds to wait before connecting again. -/
  reconnectInterval : UInt64 := 100
  deriving DecidableEq, Repr

namespace ClientSettings

/-- The settings of a client where none are given. -/
def default : ClientSettings := {}

/-- The client with a connector's settings. -/
def ofConnector (s : Settings) : ClientSettings := { connector := s }

/-- Set the time to wait before connecting again to seconds and nanoseconds, rounded down to
milliseconds and cut to 64 bits. -/
def withReconnectInterval (c : ClientSettings) (seconds nanoseconds : Nat) : ClientSettings :=
  let ms := seconds * 1000 + nanoseconds / 1000000
  { c with reconnectInterval := UInt64.ofNat (min ms (UInt64.size - 1)) }

/-- Whether a client can run with the settings. -/
def validate (c : ClientSettings) : Except Fault Unit := c.connector.validate

end ClientSettings

end Interchange
