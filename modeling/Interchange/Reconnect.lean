/-!
# Deciding when to connect again

The controller of a client's connection attempts. An unexpected close or a failed attempt schedules
one new attempt, after a fixed interval; the attempt begins only if nothing overtook it. A request
to disconnect holds until the next request to connect, and nothing is scheduled or begun while it
holds. Each operation is one indivisible step; a `Call` names one of them, and `perform` carries it
out.
-/

namespace Interchange

/-- Where a client stands. -/
inductive Reconnect.Phase where
  /-- Nothing was asked for yet. -/
  | idle
  /-- A connection is being opened. -/
  | connecting
  /-- A connection was opened. -/
  | connected
  /-- A new attempt is scheduled. -/
  | reconnecting
  /-- A disconnect was asked for. -/
  | disconnectRequested
  deriving DecidableEq, Repr

/-- The controller of a client's connection attempts. -/
structure Reconnect where
  /-- Where the client stands. -/
  phase : Reconnect.Phase
  /-- Whether a disconnect is in effect. -/
  disconnecting : Bool
  /-- Whether an attempt is scheduled and has not begun. -/
  pending : Bool
  deriving DecidableEq, Repr

namespace Reconnect

/-- The controller of a new client. -/
def initial : Reconnect := ⟨.idle, false, false⟩

/-- A connect is asked for: it lifts a disconnect and takes the place of a scheduled attempt. -/
def requestConnect (_ : Reconnect) : Reconnect := ⟨.connecting, false, false⟩

/-- A connection was opened. Whether it may be used: not while a disconnect is in effect. -/
def onConnected (r : Reconnect) : Reconnect × Bool :=
  if r.disconnecting then (r, false) else (⟨.connected, false, false⟩, true)

/-- A connection closed or an attempt failed. Whether an attempt is scheduled now: not while a
disconnect is in effect, and not while another is scheduled. -/
def onClosed (r : Reconnect) : Reconnect × Bool :=
  if r.disconnecting || r.pending then (r, false)
  else ({ r with pending := true, phase := .reconnecting }, true)

/-- The interval is over. Whether the attempt begins: only if it is still scheduled. -/
def beginAttempt (r : Reconnect) : Reconnect × Bool :=
  if r.pending && !r.disconnecting && r.phase = .reconnecting then
    ({ r with pending := false, phase := .connecting }, true)
  else ({ r with pending := false }, false)

/-- A disconnect is asked for. -/
def requestDisconnect (r : Reconnect) : Reconnect :=
  { r with phase := .disconnectRequested, disconnecting := true }

/-- An operation of the controller. -/
inductive Call where
  | requestConnect
  | onConnected
  | onClosed
  | beginAttempt
  | requestDisconnect
  deriving DecidableEq, Repr

/-- Carry out an operation: the controller after it, and its answer if it has one. -/
def perform (r : Reconnect) : Call → Reconnect × Option Bool
  | .requestConnect => (r.requestConnect, none)
  | .onConnected => (r.onConnected.1, some r.onConnected.2)
  | .onClosed => (r.onClosed.1, some r.onClosed.2)
  | .beginAttempt => (r.beginAttempt.1, some r.beginAttempt.2)
  | .requestDisconnect => (r.requestDisconnect, none)

end Reconnect

end Interchange
