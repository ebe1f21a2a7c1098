/-!
# The state of a connection

A connection is opened, used, closed and gone, in this order and never back.
-/

namespace Interchange.Connection

/-- The state of a connection. -/
inductive State where
  /-- The connection is being set up. -/
  | connecting
  /-- Messages can be sent and are received. -/
  | connected
  /-- No more messages are accepted; what was accepted is still written. -/
  | closing
  /-- The connection is gone. -/
  | disconnected
  deriving DecidableEq, Repr

namespace State

/-- Whether a connection is going or gone. -/
def isClosing : State → Bool
  | closing => true
  | disconnected => true
  | _ => false

/-- The place of a state in the order. -/
def rank : State → Nat
  | connecting => 0
  | connected => 1
  | closing => 2
  | disconnected => 3

/-- Every state in order. -/
def all : List State := [connecting, connected, closing, disconnected]

/-- The name of a state. -/
def name : State → String
  | connecting => "Connecting"
  | connected => "Connected"
  | closing => "Closing"
  | disconnected => "Disconnected"

end State

end Interchange.Connection
