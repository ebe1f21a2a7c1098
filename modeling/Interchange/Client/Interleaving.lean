import Interchange.Client.Basic

/-!
# Clients, step by step

What the parts of a client do when they run at once: each indivisible step by itself, in any order
that their own order allows. An attempt is attached, approved and installed by three steps, a
disconnect asks the controller and takes the current connection by two, and a watcher takes its
connection out and asks for the next attempt by two.
-/

namespace Interchange.Client

/-- An indivisible step. -/
inductive Part where
  /-- A connection is asked for. -/
  | request
  /-- The socket of an attempt is open. -/
  | attach (attempt : Nat)
  /-- The socket of an attempt cannot be opened. -/
  | refuse (attempt : Nat) (text : String)
  /-- An attempt asks whether its connection may be used. -/
  | approve (attempt : Nat)
  /-- An attempt makes its connection the current one. -/
  | install (attempt : Nat)
  /-- An attempt that failed asks for the next one. -/
  | giveUp (attempt : Nat)
  /-- A watcher takes its connection out. -/
  | release (connection : Nat)
  /-- A watcher that took its connection out asks for the next attempt. -/
  | schedule
  /-- The reconnect loop runs. -/
  | loop
  /-- A disconnect asks the controller. -/
  | requestDisconnect
  /-- A disconnect takes the current connection. -/
  | dropCurrent
  /-- Something happens to a connection. -/
  | connection (id : Nat) (h : Connector.Happening)

/-- Carry out an indivisible step. One that is not due changes nothing. -/
def perform (c : Client) (now : Nat) : Part → Client
  | .request => c.request
  | .attach n =>
    match c.opening? n with
    | some _ => c.attach n now
    | none => c
  | .refuse n text =>
    match c.opening? n with
    | some _ => c.updateAttempt n (.failing (.io text))
    | none => c
  | .approve n =>
    match Numbered.get? n c.attempts with
    | some ⟨_, _, .attached id⟩ => c.approve n id
    | _ => c
  | .install n =>
    match Numbered.get? n c.attempts with
    | some ⟨_, origin, .approved id⟩ => (c.install n id).settleLoop origin now
    | _ => c
  | .giveUp n =>
    match Numbered.get? n c.attempts with
    | some ⟨_, origin, .failing f⟩ => c.giveUp n now origin f
    | _ => c
  | .release id => if c.isGone id then ((c.unwatch id).release id).1 else c
  | .schedule => c.scheduleAndWake now
  | .loop => (c.step now .loopWakes).step now .loopRises
  | .requestDisconnect => c.requestDisconnect
  | .dropCurrent => c.dropCurrent
  | .connection id h => { c with connector := c.connector.step id now h }

end Interchange.Client
