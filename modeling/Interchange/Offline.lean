import Interchange.Client.Basic
import Interchange.Server.Basic

/-!
# A client and a server without a network

A server can listen, but no socket can be opened to it: every attempt of the client is refused at
once. What is left is what each of them does by itself. The client tries again and again, an
interval of time apart, until it is told to disconnect.
-/

namespace Interchange

/-- A client and a server without a network. -/
structure Offline where
  /-- The client. -/
  client : Client
  /-- The server. -/
  server : Server
  /-- The time in milliseconds. -/
  now : Nat := 0

namespace Offline

/-- The wording of an attempt to open a socket. -/
def refusal : String := "connection refused"

/-- The address that the server listens on. -/
def address : Nat := 0

/-- Refuse every socket, and let the reconnect loop come to wait. -/
def settle (o : Offline) : Offline :=
  let refused :=
    o.client.attempts.foldl (fun c a => c.step o.now (.refused a.number refusal)) o.client
  { o with client := refused.step o.now .loopWakes }

/-- Let time pass. -/
def pause (o : Offline) (ms : Nat) : Offline :=
  match o.client.loop with
  | .sleeping till =>
    let t := max till (o.now + 1)
    if t ≤ o.now + ms then
      let rested := { o with now := t, client := o.client.step t .loopRises }
      pause { rested.settle with now := t } (o.now + ms - t)
    else { o with now := o.now + ms }
  | _ => { o with now := o.now + ms }
termination_by ms
decreasing_by omega

/-- Ask the client for a connection and wait for it: its number, or why there is none. -/
def connect (o : Offline) : Offline × Except Fault Nat :=
  if !o.client.connector.initialized then (o, .error .notInitialized)
  else
    match o.client.active? with
    | some id => (o, .ok id)
    | none =>
      let n := o.client.attempts.length
      let o := ({ o with client := o.client.step o.now .connect }).settle
      match o.client.stage? n with
      | some (.succeeded id) => (o, .ok id)
      | some (.failed f) => (o, .error f)
      | _ => (o, .error .connectionClosed)

/-- Ask the client for a connection. -/
def connectAsync (o : Offline) : Offline × Except Fault Unit :=
  if !o.client.connector.initialized then (o, .error .notInitialized)
  else (({ o with client := o.client.step o.now .connect }).settle, .ok ())

/-- Ask the client to disconnect. -/
def disconnect (o : Offline) : Offline :=
  { o with client := o.client.step o.now .disconnect }

/-- Ask the client to disconnect, and stop its reconnect loop. -/
def shutdown (o : Offline) : Offline :=
  { o with client := (o.client.step o.now .disconnect).step o.now .stopLoop }

/-- Start the server: its address, or why it does not start. -/
def start (o : Offline) : Offline × Except Fault Nat :=
  if !o.server.connector.initialized then (o, .error .notInitialized)
  else
    let server := (o.server.step o.now .start).step o.now (.bound address)
    ({ o with server }, .ok (server.address.getD address))

/-- Stop the server, whose accept loop ends at once: whether every connection closed in time. -/
def stop (o : Offline) : Offline × Except Fault Unit :=
  let n := o.server.stops.length
  let loop := o.server.acceptor.getD 0
  let server :=
    ((o.server.step o.now .stop).step o.now (.loopEnded loop)).step o.now (.halted n)
  ({ o with server }, if server.stops[n]? = some (.returned true) then .error .timeout else .ok ())

/-- Send a message on the client's connection. -/
def send (o : Offline) (m : Message) : Offline × Except Fault Unit :=
  let (client, r) := o.client.send m
  ({ o with client }, r.map fun _ => ())

/-! ## Waiting for something -/

/-- One of the two ends. -/
inductive Side where
  | client
  | server
  deriving DecidableEq, Repr

/-- What can be waited for. -/
inductive Condition where
  /-- The client can send, or cannot. -/
  | connected (b : Bool)
  /-- The server has so many open connections. -/
  | open (n : Nat)
  /-- At least so many calls of listeners. -/
  | calls (side : Side) (n : Nat)
  /-- At least so many events of a kind. -/
  | events (side : Side) (kind : String) (n : Nat)

/-- The connector of an end. -/
def connector (o : Offline) : Side → Connector
  | .client => o.client.connector
  | .server => o.server.connector

/-- Change the connector of an end. -/
def update (o : Offline) (side : Side) (f : Connector → Connector) : Offline :=
  match side with
  | .client => { o with client := { o.client with connector := f o.client.connector } }
  | .server => { o with server := { o.server with connector := f o.server.connector } }

/-- Whether a condition holds. -/
def holds (o : Offline) : Condition → Bool
  | .connected b => o.client.active?.isSome = b
  | .open n => o.server.table.length = n
  | .calls side n => n ≤ (Connector.calls (o.connector side).history).length
  | .events side kind n =>
    n ≤ (Connector.events (o.connector side).history).countP (·.kind = kind)

/-- The milliseconds that a condition may take to come true. -/
def patience : Nat := 3000

/-- Wait for a condition: whether it came true. -/
def await (o : Offline) (c : Condition) : Offline × Bool :=
  if o.holds c then (o, true)
  else
    let o := o.pause patience
    (o, o.holds c)

end Offline

end Interchange
