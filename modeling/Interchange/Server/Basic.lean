import Interchange.Connector

/-!
# Servers

A server that is started has an address and an accept loop, which makes every socket that it accepts
a connection and puts it into the table of open connections. A watcher takes each connection out
again when it is gone. Stopping a server takes the address away and aborts the accept loop, and when
that has ended takes the connections out of the table, closes them, and waits for each of them for a
limited time.

`Server.step` carries out what happens between two points at which somebody waits. So an accept loop
that is aborted waits for a socket at that moment: it accepts none any more, but it takes a while to
end.
-/

namespace Interchange

/-- What an accept loop does. -/
inductive Server.Loop where
  /-- It accepts sockets. -/
  | accepting
  /-- It was aborted and has not ended. -/
  | aborted
  /-- It has ended. -/
  | ended
  deriving DecidableEq, Repr

/-- How far a call that stops a server has come. -/
inductive Server.Stop where
  /-- It waits for the accept loop with a number to end. -/
  | halting (loop : Nat)
  /-- It waits for connections to close, one after the other. -/
  | closing (waiting : List Nat) (since : Nat) (late : Bool)
  /-- It has returned, and whether a connection was late. -/
  | returned (late : Bool)
  deriving DecidableEq, Repr

/-- A server. -/
structure Server where
  /-- Its connections. -/
  connector : Connector
  /-- Its address while it is started. -/
  address : Option Nat := none
  /-- The number of the accept loop that it can abort. -/
  acceptor : Option Nat := none
  /-- Its accept loops, from the oldest on. -/
  loops : List Server.Loop := []
  /-- The calls that start the server and wait for a listening socket. -/
  binding : Nat := 0
  /-- The table of open connections, in whatever order. -/
  table : List Nat := []
  /-- The connections with a watcher that has not run. -/
  watched : List Nat := []
  /-- The calls that stop the server, from the oldest on. -/
  stops : List Server.Stop := []

namespace Server

/-- The milliseconds that a call that stops a server waits for each connection. -/
def stopLimit : Nat := 5000

/-- An accept loop is told to end. -/
def Loop.abort : Loop → Loop
  | .accepting => .aborted
  | l => l

/-- Whether the server accepts connections: there is an accept loop to abort, and it runs. -/
def isStarted (s : Server) : Bool :=
  match s.acceptor with
  | some n => s.loops[n]? != some .ended
  | none => false

/-- Whether a connection is gone. -/
def isGone (s : Server) (id : Nat) : Bool :=
  match s.connector.connection? id with
  | some k => k.state = .disconnected
  | none => false

/-- What happens to a server. -/
inductive Event where
  /-- It is initialized. -/
  | init
  /-- Somebody starts it. -/
  | start
  /-- A call that starts it has a listening socket with an address. -/
  | bound (address : Nat)
  /-- A call that starts it gets no listening socket. -/
  | bindFailed
  /-- The accept loop with a number accepts a socket. -/
  | accepted (loop : Nat)
  /-- The accept loop with a number ends after it was aborted. -/
  | loopEnded (loop : Nat)
  /-- The watcher of a connection that is gone runs. -/
  | watcher (connection : Nat)
  /-- The table comes into another order. -/
  | reordered (table : List Nat)
  /-- Somebody stops it. -/
  | stop
  /-- The call with a number that stops it finds the accept loop ended. -/
  | halted (stop : Nat)
  /-- The call with a number that stops it finds its next connection gone, or late. -/
  | waited (stop : Nat)
  /-- Somebody sends, closes a connection or changes the chain of listeners. -/
  | ask (r : Request)
  /-- Something happens to a connection. -/
  | connection (id : Nat) (h : Connector.Happening)

/-- Begin to start a server that is not started. -/
def start (s : Server) : Server :=
  if !s.connector.initialized || s.address.isSome then s else { s with binding := s.binding + 1 }

/-- A call that starts the server has a listening socket, which it keeps unless another call was
faster. -/
def bind (s : Server) (address : Nat) : Server :=
  match s.address with
  | some _ => { s with binding := s.binding - 1 }
  | none =>
    { s with
      binding := s.binding - 1
      address := some address
      acceptor := some s.loops.length
      loops := s.loops ++ [.accepting] }

/-- Make an accepted socket a connection, and keep it until it is gone. -/
def accept (s : Server) (now : Nat) : Server :=
  let id := s.connector.nextId
  { s with
    connector := s.connector.openConnection now
    table := id :: s.table
    watched := id :: s.watched }

/-- Close connections. -/
def closeAll (k : Connector) (ids : List Nat) : Connector := ids.foldl .close k

/-- Let a call that stops the server wait for the next connection that is not gone, or return. -/
def proceed (s : Server) (stop now : Nat) (rest : List Nat) (late : Bool) : Server :=
  match rest.dropWhile s.isGone with
  | [] => { s with stops := s.stops.set stop (.returned late) }
  | rest => { s with stops := s.stops.set stop (.closing rest now late) }

/-- Take every connection out of the table, close it and wait for it. -/
def drain (s : Server) (stop now : Nat) : Server :=
  ({ s with table := [], connector := closeAll s.connector s.table }).proceed stop now s.table false

/-- Take away the address and the accept loop, and abort the accept loop and wait for it to end if
there was one. -/
def stop (s : Server) (now : Nat) : Server :=
  let t := { s with address := none, acceptor := none }
  match s.acceptor with
  | some n => { t with loops := t.loops.modify n Loop.abort, stops := t.stops ++ [Stop.halting n] }
  | none => ({ t with stops := t.stops ++ [Stop.closing [] now false] }).drain s.stops.length now

/-- Carry out what happens to a server between two points at which somebody waits. What cannot
happen changes nothing. -/
def step (s : Server) (now : Nat) : Event → Server
  | .init => { s with connector := s.connector.init.1 }
  | .start => s.start
  | .bound address => if 0 < s.binding then s.bind address else s
  | .bindFailed => { s with binding := s.binding - 1 }
  | .accepted n => if s.loops[n]? = some .accepting then s.accept now else s
  | .loopEnded n =>
    if s.loops[n]? = some .aborted then { s with loops := s.loops.set n .ended } else s
  | .watcher id =>
    if s.watched.contains id && s.isGone id then
      { s with watched := s.watched.erase id, table := s.table.erase id }
    else s
  | .reordered table => if table.isPerm s.table then { s with table } else s
  | .stop => s.stop now
  | .halted n =>
    match s.stops[n]? with
    | some (.halting loop) => if s.loops[loop]? = some .ended then s.drain n now else s
    | _ => s
  | .waited n =>
    match s.stops[n]? with
    | some (.closing (id :: rest) since late) =>
      if s.isGone id then s.proceed n now rest late
      else if since + stopLimit ≤ now then s.proceed n now rest true
      else s
    | _ => s
  | .ask r => { s with connector := (Connector.perform r s.connector).1 }
  | .connection id h => { s with connector := s.connector.step id now h }

/-- A new server. -/
def new (connector : Connector) : Server := { connector }

end Server

end Interchange
