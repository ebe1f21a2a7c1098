import Interchange.Connection.Basic
import Interchange.Dispatch.Chain
import Interchange.Journal
import Interchange.Pack.Reader
import Interchange.Reject

/-!
# Connectors

What the connections of a client or a server have in common: settings, listeners, and what becomes
known about them. `Connector.step` carries out what happens to a connection between two points at
which it waits: bytes arrive, its input ends, it finds that it is to close or that its writer has
ended, a timer fires, its socket takes bytes. Everything that becomes known is put down in the
history of the connector.
-/

namespace Interchange

/-- What becomes known about a connector. -/
inductive Notice where
  /-- Something is published about a connection. -/
  | published (e : Connection.Event)
  /-- A listener is called with a message of a connection. -/
  | called (l : ListenerId) (connection : Nat) (mti : UInt16)
  /-- A message is logged. -/
  | logged (connection : Nat) (d : Direction) (text : String)
  /-- A message is accepted for writing. -/
  | accepted (connection ticket : Nat) (m : Message)
  /-- What became of an accepted message. -/
  | resolved (connection ticket : Nat) (outcome : Except Fault Unit)
  /-- The socket of a connection accepted bytes. -/
  | sent (connection : Nat) (bytes : List UInt8)
  /-- The writing side of a connection's socket is shut down. -/
  | shut (connection : Nat)

/-- A client's or a server's connections and what they have in common. -/
structure Connector where
  /-- What it was told. -/
  settings : Settings
  /-- The version of the messages that it makes. -/
  version : Mti.Version := .v1987
  /-- The listeners that have names. -/
  registry : List (String × Listener) := []
  /-- The listeners that are called. -/
  chain : Chain := []
  /-- Whether it was initialized. -/
  initialized : Bool := false
  /-- Its connections, from the oldest on, those that are gone included. -/
  connections : List Connection := []
  /-- What became known. -/
  history : List Notice := []

namespace Connector

/-- The connection with a number. -/
def connection? (k : Connector) (id : Nat) : Option Connection := Numbered.get? id k.connections

/-- Change the connection with a number. -/
def update (k : Connector) (id : Nat) (f : Connection → Connection) : Connector :=
  { k with connections := Numbered.modify id f k.connections }

/-- Put down what becomes known. -/
def note (k : Connector) (ns : List Notice) : Connector := { k with history := k.history ++ ns }

/-- Publish an event. -/
def publish (k : Connector) (e : Connection.Event) : Connector := k.note [.published e]

/-- What a log line says, if messages are logged. -/
def logLine (k : Connector) (id : Nat) (d : Direction) (m : Message) : List Notice :=
  match Logger.ofSettings? k.settings with
  | some l => [.logged id d (l.format m)]
  | none => []

/-- Refuse settings that no connector can run with; else, the first time, put the listener that
answers echo requests in front where it is wanted. -/
def init (k : Connector) : Connector × Except Fault Unit :=
  match k.settings.validate with
  | .error f => (k, .error f)
  | .ok () =>
    if k.initialized then (k, .ok ())
    else
      ({ k with
        initialized := true
        chain := if k.settings.answerEchoes then k.chain.insertFirst .echo else k.chain }, .ok ())

/-! ## What became known -/

/-- The events that were published. -/
def events (ns : List Notice) : List Connection.Event :=
  ns.filterMap fun
    | .published e => some e
    | _ => none

/-- The calls of listeners that have names: the name, the connection and the type of the message.
-/
def calls (ns : List Notice) : List (String × Nat × UInt16) :=
  ns.filterMap fun
    | .called (.named name) id mti => some (name, id, mti)
    | _ => none

/-- The lines of the message log: the connection, the way of the message and the text. -/
def logLines (ns : List Notice) : List (Nat × Direction × String) :=
  ns.filterMap fun
    | .logged id d text => some (id, d, text)
    | _ => none

/-- What became of accepted messages: the connection, the ticket and the outcome. -/
def outcomes (ns : List Notice) : List (Nat × Nat × Except Fault Unit) :=
  ns.filterMap fun
    | .resolved id ticket r => some (id, ticket, r)
    | _ => none

/-! ## Requests -/

/-- The number of the next connection. -/
def nextId (k : Connector) : Nat := k.connections.length + 1

/-- Open a connection. -/
def openConnection (k : Connector) (now : Nat) : Connector :=
  { k with
    connections := k.connections ++ [.start k.nextId k.settings.maxPendingWrites.toNat now]
    history := k.history ++ [.published (.connected k.nextId)] }

/-- Queue a message on a connection: its ticket, or why it is refused. -/
def send (k : Connector) (id : Nat) (m : Message) : Connector × Except Fault Nat :=
  match k.connection? id with
  | none => (k, .error .notConnected)
  | some c =>
    match c.send m with
    | (c', .ok ticket) => ((k.update id fun _ => c').note [.accepted id ticket m], .ok ticket)
    | (c', .error f) => (k.update id fun _ => c', .error f)

/-- Begin to close a connection. -/
def close (k : Connector) (id : Nat) : Connector := k.update id .close

/-- Carry out what a handler asks for. -/
def perform (r : Request) (k : Connector) : Connector × Except Fault Unit :=
  match r with
  | .send id m =>
    match k.send id m with
    | (k, .ok _) => (k, .ok ())
    | (k, .error f) => (k, .error f)
  | .close id => (k.close id, .ok ())
  | .append l => ({ k with chain := k.chain.push l }, .ok ())
  | .insertFirst l => ({ k with chain := k.chain.insertFirst l }, .ok ())
  | .remove l => ({ k with chain := (k.chain.remove l).1 }, .ok ())

/-! ## Messages that arrive -/

/-- A listener of the connector. -/
def listener (k : Connector) : ListenerId → Listener
  | .echo => .echo k.settings.echoRule k.version
  | .named name => (k.registry.lookup name).getD .silent

/-- Let a listener see a message. -/
def call (id : Nat) (m : Message) (l : ListenerId) (k : Connector) :
    Connector × Except Failure Bool :=
  match (k.listener l).applies m with
  | .error f => (k, .error f)
  | .ok false => (k, .ok true)
  | .ok true => ((k.listener l).handle id m).run perform (k.note [.called l id m.mti])

/-- Send a message through the chain. -/
def dispatch (k : Connector) (id : Nat) (m : Message) : Connector × Except Fault Unit :=
  Interchange.dispatch k.settings.failOnListenerError (call id m) k.chain k

/-- Answer a body that is no message, where this is wanted. -/
def reject (k : Connector) (id : Nat) (f : Pack.Fault) : Connector :=
  if k.settings.replyOnError then (k.send id (Reject.reply k.version f.message)).1 else k

/-- Take a body that arrived on a connection. Only the fault of a listener is a fault. -/
def handle (k : Connector) (id : Nat) (body : List UInt8) : Connector × Except Fault Unit :=
  match Pack.parse body with
  | .ok m => (k.note (k.logLine id .inbound m)).dispatch id m
  | .error f => ((k.reject id f).publish (.failed id (.parse f)), .ok ())

/-- Take bodies one after the other until one fails. -/
def handleAll (k : Connector) (id : Nat) : List (List UInt8) → Connector × Except Fault Unit
  | [] => (k, .ok ())
  | b :: bs =>
    match k.handle id b with
    | (k, .ok ()) => k.handleAll id bs
    | (k, .error f) => (k, .error f)

/-! ## The way down -/

/-- The connection is gone. -/
def finish (k : Connector) (id : Nat) : Connector :=
  (k.update id fun c => { c with state := .disconnected, reader := .ended }).publish (.closed id)

/-- Stop reading, close, and wait for the writer if it has not ended. -/
def windDown (k : Connector) (id now : Nat) : Connector :=
  match k.connection? id with
  | none => k
  | some c =>
    if c.writer.isEnded then k.finish id
    else k.update id fun c => { c.close with reader := .draining now }

/-- A fault ends the connection. -/
def fail (k : Connector) (id now : Nat) (f : Fault) : Connector :=
  (k.publish (.failed id f)).windDown id now

/-! ## What happens to a connection -/

/-- What happens to a connection. -/
inductive Happening where
  /-- Bytes arrive. -/
  | received (bytes : List UInt8)
  /-- No more bytes will arrive. -/
  | inputEnded
  /-- The socket fails to read. -/
  | inputFailed (text : String)
  /-- It finds that it is to close. -/
  | sawClosing
  /-- It finds that its writer has ended. -/
  | sawWriterEnd
  /-- It may be time for a heartbeat. -/
  | alarm
  /-- The writer that it waits for has ended. -/
  | drained
  /-- It has waited for the writer long enough. -/
  | gaveUp
  /-- Something happens to its writer. -/
  | writer (e : Writer.Event)

/-- What a signal of a writer makes known. -/
def notices (k : Connector) (id : Nat) : Signal → List Notice
  | .sent bytes => [.sent id bytes]
  | .active => []
  | .logged m => k.logLine id .outbound m
  | .resolved ticket r => [.resolved id ticket r]
  | .shut => [.shut id]

/-- Carry out what happens to a writer. -/
def stepWriter (k : Connector) (c : Connection) (now : Nat) (e : Writer.Event) : Connector :=
  let (writer, signals) := c.writer.step k.settings.codec e
  let activity := if signals.any Signal.isActive then c.activity.record now else c.activity
  (k.update c.id fun c => { c with writer, activity }).note (signals.flatMap (k.notices c.id))

/-- Take bytes that arrive on a connection. The bodies that they complete are taken one after the
other; a bad length field ends the connection before any of them is. -/
def receive (k : Connector) (c : Connection) (now : Nat) (bytes : List UInt8) : Connector :=
  let (bodies, decoder) := c.decoder.push k.settings.codec bytes
  let k := k.update c.id fun c => { c with decoder, activity := c.activity.record now }
  match bodies with
  | .error f => k.fail c.id now f
  | .ok bodies =>
    match k.handleAll c.id bodies with
    | (k, .ok ()) => k
    | (k, .error f) => k.fail c.id now f

/-- Send a heartbeat, which counts as activity if it is accepted. -/
def heartbeat (k : Connector) (c : Connection) (now : Nat) : Connector :=
  match k.send c.id (.echoRequest k.version) with
  | (k, .ok _) => k.update c.id fun c => { c with activity := c.activity.record now }
  | (k, .error _) => k

/-- The milliseconds without traffic after which a heartbeat is sent, if heartbeats are on. -/
def window? (k : Connector) : Option Nat := k.settings.heartbeat?.map (· * 1000)

/-- What happens to a connection that reads. -/
def stepReading (k : Connector) (c : Connection) (now : Nat) : Happening → Connector
  | .received bytes => k.receive c now bytes
  | .inputEnded => k.windDown c.id now
  | .inputFailed text => k.fail c.id now (.io text)
  | .sawClosing => if c.state.isClosing then k.windDown c.id now else k
  | .sawWriterEnd =>
    match c.writer.phase with
    | .ended (.error f) => k.fail c.id now f
    | _ => if c.writer.isEnded then k.windDown c.id now else k
  | .alarm =>
    match k.window? with
    | some w => if c.activity.isIdle w now then k.heartbeat c now else k
    | none => k
  | _ => k

/-- What happens to a connection that waits for its writer. -/
def stepDraining (k : Connector) (c : Connection) (since now : Nat) : Happening → Connector
  | .drained => if c.writer.isEnded then k.finish c.id else k
  | .gaveUp =>
    if since + Connection.drainLimit ≤ now && !c.writer.isEnded then
      (k.stepWriter c now .abandon).finish c.id
    else k
  | _ => k

/-- Carry out what happens to a connection. What cannot happen changes nothing. -/
def step (k : Connector) (id now : Nat) (h : Happening) : Connector :=
  match k.connection? id with
  | none => k
  | some c =>
    match h with
    | .writer .closing => if c.state.isClosing then k.stepWriter c now .closing else k
    | .writer .abandon => k
    | .writer e => k.stepWriter c now e
    | h =>
      match c.reader with
      | .reading => k.stepReading c now h
      | .draining since => k.stepDraining c since now h
      | .ended => k

end Connector

end Interchange
