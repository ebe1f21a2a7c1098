import Interchange.Activity
import Interchange.Connection.State
import Interchange.Numbered
import Interchange.Outbound.Writer

/-!
# Connections

A connection has a writer with its queue, a decoder for what it receives, and a reading side that
first reads and then, when the connection goes down, waits for the writer.
-/

namespace Interchange

/-- What the reading side of a connection does. -/
inductive Connection.Reader where
  /-- It reads. -/
  | reading
  /-- It waits for the writer to end. -/
  | draining (since : Nat)
  /-- It has ended. -/
  | ended
  deriving DecidableEq, Repr

/-- How far the reading side is from its end. -/
def Connection.Reader.rank : Connection.Reader → Nat
  | .reading => 2
  | .draining _ => 1
  | .ended => 0

/-- A connection. -/
structure Connection where
  /-- Its number within the connector. -/
  id : Nat
  /-- Its state. -/
  state : Connection.State := .connecting
  /-- What writes to its socket. -/
  writer : Writer
  /-- The bytes that were received and make no frame yet. -/
  decoder : Decoder := .empty
  /-- When something last passed over it. -/
  activity : Activity
  /-- What its reading side does. -/
  reader : Connection.Reader := .reading

instance : Numbered Connection := ⟨Connection.id⟩

/-- What is published about connections. -/
inductive Connection.Event where
  /-- A connection was opened. -/
  | connected (id : Nat)
  /-- A connection is gone. -/
  | closed (id : Nat)
  /-- Something went wrong on a connection. -/
  | failed (id : Nat) (f : Fault)
  deriving DecidableEq, Repr

namespace Connection

/-- The connection that an event is about. -/
def Event.id : Event → Nat
  | connected id => id
  | closed id => id
  | failed id _ => id

/-- The kind of an event in a word. -/
def Event.kind : Event → String
  | connected _ => "connected"
  | closed _ => "closed"
  | failed .. => "error"

/-- The milliseconds that a connection which goes down waits for its writer. -/
def drainLimit : Nat := 5000

/-- Open a connection. -/
def start (id bound now : Nat) : Connection :=
  { id, writer := .new bound, activity := .start now, state := .connected }

/-- Queue a message: its ticket, or why it is refused. -/
def send (c : Connection) (m : Message) : Connection × Except Fault Nat :=
  if c.state.isClosing then (c, .error .connectionClosed)
  else
    let (queue, r) := c.writer.queue.trySend m
    ({ c with writer := { c.writer with queue } }, r)

/-- Begin to close. What was queued is still written. -/
def close (c : Connection) : Connection :=
  if c.state.isClosing then c else { c with state := .closing }

/-- The messages that were accepted and not yet released. -/
def pending (c : Connection) : Nat := c.writer.queue.pending

/-- A connection in words. -/
def description (c : Connection) : String :=
  "Connection \x7b id: " ++ Digits.text c.id ++ ", peer_addr: None, state: " ++ c.state.name
    ++ " \x7d"

end Connection

end Interchange
