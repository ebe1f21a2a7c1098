import Interchange.Connector
import Interchange.Reconnect

/-!
# Clients

A client keeps one current connection and opens it again when it closes unexpectedly. Attempts to
open a connection may overlap: some are asked for, one at a time is the reconnect loop's. Beside
them run the watchers, one for each connection that became the current one.

The functions of the first part are the indivisible steps that these make on what they share, the
controller of attempts and the current connection. `Client.step` puts together the steps that are
carried out between two points at which somebody waits.
-/

namespace Interchange

/-- Who makes an attempt to connect. -/
inductive Client.Origin where
  /-- Somebody who asked for a connection. -/
  | asked
  /-- The reconnect loop. -/
  | loop
  deriving DecidableEq, Repr

/-- How far an attempt to connect has come. -/
inductive Client.Stage where
  /-- A socket is being opened. -/
  | opening
  /-- There is a connection. -/
  | attached (connection : Nat)
  /-- The controller lets the connection be used. -/
  | approved (connection : Nat)
  /-- It failed, and the controller has not been asked for the next one. -/
  | failing (f : Fault)
  /-- It is over, and there is a connection to use. -/
  | succeeded (connection : Nat)
  /-- It is over, and there is none. -/
  | failed (f : Fault)
  deriving DecidableEq, Repr

/-- An attempt to connect. -/
structure Client.Attempt where
  /-- Its number. -/
  number : Nat
  /-- Who makes it. -/
  origin : Client.Origin
  /-- How far it has come. -/
  stage : Client.Stage := .opening
  deriving DecidableEq, Repr

instance : Numbered Client.Attempt := ⟨Client.Attempt.number⟩

/-- What the reconnect loop does. -/
inductive Client.Loop where
  /-- It does not run. -/
  | absent
  /-- It is about to run for the first time. -/
  | starting
  /-- It waits for a wake-up. -/
  | waiting
  /-- It was woken. -/
  | woken
  /-- It lets the interval pass. -/
  | sleeping (till : Nat)
  /-- It makes an attempt. -/
  | attempting
  deriving DecidableEq, Repr

/-- A client. -/
structure Client where
  /-- Its connections. -/
  connector : Connector
  /-- The milliseconds to wait before connecting again. -/
  interval : Nat
  /-- The controller of its attempts. -/
  reconnect : Reconnect := .initial
  /-- The number of its current connection. -/
  current : Option Nat := none
  /-- Its attempts, from the oldest on. -/
  attempts : List Client.Attempt := []
  /-- The connections with a watcher that has not run. -/
  watched : List Nat := []
  /-- What its reconnect loop does. -/
  loop : Client.Loop := .absent
  /-- Whether a wake-up is stored for the loop. -/
  permit : Bool := false
  /-- When the attempt that is pending was scheduled. -/
  scheduled : Option Nat := none

namespace Client

/-! ## Indivisible steps -/

/-- Whether a connection can be sent to. -/
def isActive (c : Client) (id : Nat) : Bool :=
  match c.connector.connection? id with
  | some k => k.state = .connected
  | none => false

/-- The current connection if it can be sent to. -/
def active? (c : Client) : Option Nat := c.current.filter c.isActive

/-- Change an attempt. -/
def updateAttempt (c : Client) (n : Nat) (stage : Stage) : Client :=
  { c with attempts := Numbered.modify n (fun a => { a with stage }) c.attempts }

/-- Begin an attempt. -/
def beginAttempt (c : Client) (origin : Origin) : Client :=
  { c with attempts := c.attempts ++ [{ number := c.attempts.length, origin }] }

/-- Wake the reconnect loop, or store the wake-up for the next time it waits. -/
def wakeLoop (c : Client) : Client :=
  match c.loop with
  | .waiting => { c with loop := .woken }
  | _ => { c with permit := true }

/-- The reconnect loop comes to wait for a wake-up. -/
def waitInLoop (c : Client) (now : Nat) : Client :=
  if c.permit then { c with permit := false, loop := .sleeping (now + c.interval) }
  else { c with loop := .waiting }

/-- Ask the controller for an attempt to take the place of a connection or an attempt that is over:
whether it schedules one. -/
def schedule (c : Client) (now : Nat) : Client × Bool :=
  match c.reconnect.onClosed with
  | (reconnect, true) => ({ c with reconnect, scheduled := some now }, true)
  | (reconnect, false) => ({ c with reconnect }, false)

/-- Schedule an attempt and wake the loop for it. -/
def scheduleAndWake (c : Client) (now : Nat) : Client :=
  match c.schedule now with
  | (c, true) => c.wakeLoop
  | (c, false) => c

/-- Make sure that the reconnect loop runs. -/
def ensureLoop (c : Client) : Client :=
  match c.loop with
  | .absent => { c with loop := .starting }
  | _ => c

/-- Ask the controller for a connection and begin to open it. -/
def request (c : Client) : Client :=
  ({ c with reconnect := c.reconnect.requestConnect }).ensureLoop.beginAttempt .asked

/-- The socket of an attempt is open: it becomes a connection. -/
def attach (c : Client) (n now : Nat) : Client :=
  ({ c with connector := c.connector.openConnection now }).updateAttempt n
    (.attached c.connector.nextId)

/-- Ask the controller whether the connection of an attempt may be used. It is closed if not. -/
def approve (c : Client) (n id : Nat) : Client :=
  match c.reconnect.onConnected with
  | (reconnect, true) => ({ c with reconnect }).updateAttempt n (.approved id)
  | (reconnect, false) =>
    ({ c with reconnect, connector := c.connector.close id }).updateAttempt n
      (.failing .connectionClosed)

/-- Make the connection of an attempt the current one, close the one that it replaces, and watch it.
A current connection that can be sent to keeps its place, and the new one is closed. -/
def install (c : Client) (n id : Nat) : Client :=
  match c.active? with
  | some existing =>
    ({ c with connector := c.connector.close id }).updateAttempt n (.succeeded existing)
  | none =>
    let connector := match c.current with
      | some stale => c.connector.close stale
      | none => c.connector
    ({ c with connector, current := some id, watched := id :: c.watched }).updateAttempt n
      (.succeeded id)

/-- A failed attempt asks the controller for the next one. The loop makes it itself. -/
def giveUp (c : Client) (n now : Nat) (origin : Origin) (f : Fault) : Client :=
  let c := c.updateAttempt n (.failed f)
  match origin with
  | .asked => c.scheduleAndWake now
  | .loop =>
    match c.schedule now with
    | (c, true) => { c with loop := .sleeping (now + c.interval) }
    | (c, false) => c.waitInLoop now

/-- The loop goes back to waiting when its attempt has succeeded. -/
def settleLoop (c : Client) (origin : Origin) (now : Nat) : Client :=
  match origin with
  | .asked => c
  | .loop => c.waitInLoop now

/-- The watcher of a connection that is gone takes it out if it is the current one: whether it
was. -/
def release (c : Client) (id : Nat) : Client × Bool :=
  if c.current = some id then ({ c with current := none }, true) else (c, false)

/-- Ask the controller to disconnect. -/
def requestDisconnect (c : Client) : Client :=
  { c with reconnect := c.reconnect.requestDisconnect }

/-- Take the current connection out and close it. -/
def dropCurrent (c : Client) : Client :=
  match c.current with
  | some id => { c with current := none, connector := c.connector.close id }
  | none => c

/-! ## What happens to a client -/

/-- What happens to a client. -/
inductive Event where
  /-- A connection is asked for, by somebody who waits for it or does not. -/
  | connect
  /-- The socket of an attempt is open. -/
  | opened (attempt : Nat)
  /-- The socket of an attempt cannot be opened. -/
  | refused (attempt : Nat) (text : String)
  /-- The watcher of a connection that is gone runs. -/
  | watcher (connection : Nat)
  /-- The reconnect loop runs after it was started or woken. -/
  | loopWakes
  /-- The interval of the reconnect loop is over. -/
  | loopRises
  /-- A disconnect is asked for. -/
  | disconnect
  /-- The reconnect loop is stopped. -/
  | stopLoop
  /-- A connection is closed by somebody who uses it. -/
  | close (connection : Nat)
  /-- A message is sent on a connection by somebody who uses it. -/
  | send (connection : Nat) (m : Message)
  /-- Something happens to a connection. -/
  | connection (id : Nat) (h : Connector.Happening)

/-- Carry an attempt with a connection as far as it goes without waiting. -/
def complete (c : Client) (a : Attempt) (id now : Nat) : Client :=
  match c.reconnect.onConnected.2 with
  | true => ((c.approve a.number id).install a.number id).settleLoop a.origin now
  | false => (c.approve a.number id).giveUp a.number now a.origin .connectionClosed

/-- Ask for a connection: the current one if it can be sent to, else a new attempt. -/
def connect (c : Client) : Client :=
  if !c.connector.initialized then c
  else if c.active?.isSome then c
  else c.request

/-- The attempt with a number, if its socket is being opened. -/
def opening? (c : Client) (n : Nat) : Option Attempt :=
  (Numbered.get? n c.attempts).filter (·.stage = .opening)

/-- How far the attempt with a number has come. -/
def stage? (c : Client) (n : Nat) : Option Stage :=
  (Numbered.get? n c.attempts).map fun a => a.stage

/-- Take a connection that is gone out of the list of watched ones. -/
def unwatch (c : Client) (id : Nat) : Client := { c with watched := c.watched.erase id }

/-- Whether a connection is gone. -/
def isGone (c : Client) (id : Nat) : Bool :=
  match c.connector.connection? id with
  | some k => k.state = .disconnected
  | none => false

/-- Stop the reconnect loop, and its attempt with it. A wake-up that it has not seen is kept. -/
def stopLoop (c : Client) : Client :=
  { c with
    loop := .absent
    permit := c.permit || c.loop = .woken
    attempts := c.attempts.map fun a =>
      if a.origin = .loop && a.stage = .opening then
        { a with stage := .failed .connectionClosed }
      else a }

/-- Carry out what happens to a client between two points at which somebody waits. What cannot
happen changes nothing. -/
def step (c : Client) (now : Nat) : Event → Client
  | .connect => c.connect
  | .opened n =>
    match c.opening? n with
    | some a => (c.attach n now).complete a c.connector.nextId now
    | none => c
  | .refused n text =>
    match c.opening? n with
    | some a => c.giveUp n now a.origin (.io text)
    | none => c
  | .watcher id =>
    if c.watched.contains id && c.isGone id then
      match (c.unwatch id).release id with
      | (c, true) => c.scheduleAndWake now
      | (c, false) => c
    else c
  | .loopWakes =>
    match c.loop with
    | .starting => c.waitInLoop now
    | .woken => { c with loop := .sleeping (now + c.interval) }
    | _ => c
  | .loopRises =>
    match c.loop with
    | .sleeping till =>
      if till ≤ now then
        match c.reconnect.beginAttempt with
        | (reconnect, true) =>
          ({ c with reconnect, loop := .attempting }).beginAttempt .loop
        | (reconnect, false) => ({ c with reconnect }).waitInLoop now
      else c
    | _ => c
  | .disconnect => c.requestDisconnect.dropCurrent
  | .stopLoop => c.stopLoop
  | .close id => { c with connector := c.connector.close id }
  | .send id m => { c with connector := (c.connector.send id m).1 }
  | .connection id h => { c with connector := c.connector.step id now h }

/-- Send a message on the current connection: the connection and the ticket, or why it is refused.
-/
def send (c : Client) (m : Message) : Client × Except Fault (Nat × Nat) :=
  match c.active? with
  | none => (c, .error .notConnected)
  | some id =>
    match c.connector.send id m with
    | (connector, .ok ticket) => ({ c with connector }, .ok (id, ticket))
    | (connector, .error f) => ({ c with connector }, .error f)

/-- A new client. -/
def new (connector : Connector) (interval : Nat) : Client := { connector, interval }

end Client

end Interchange
