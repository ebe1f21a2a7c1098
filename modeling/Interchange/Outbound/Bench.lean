import Interchange.Activity
import Interchange.Connection.State
import Interchange.Journal
import Interchange.Outbound.Writer

/-!
# A writer on the bench

A writer by itself, on a clock of its own and against a socket that answers writes from a script.
The bench shows what the writer asks of a socket, write by write, and what it makes of each answer.
-/

namespace Interchange

/-- A socket that answers writes from a script, and what it was asked. When the script is at its
end it accepts everything. -/
structure ScriptedSocket where
  /-- The answers that are left. -/
  script : List Writer.Reply
  /-- Whether it fails to flush. -/
  flushFails : Bool
  /-- The sizes of the slices of each write, and how many bytes it accepted unless it failed. -/
  writes : List (List Nat × Option Nat) := []
  /-- The bytes that it accepted. -/
  out : List UInt8 := []
  /-- How often it was flushed. -/
  flushes : Nat := 0
  /-- Whether it was shut down. -/
  shut : Bool := false

namespace ScriptedSocket

/-- The wording of a write to a socket that nobody reads. -/
def brokenPipe : String := "broken pipe"

/-- Accept at most `n` bytes of some slices. -/
def accept (s : ScriptedSocket) (slices : List (List UInt8)) (n : Nat) :
    Writer.Reply × ScriptedSocket :=
  let bytes := slices.flatten.take n
  (.accepted bytes.length,
    { s with
      writes := s.writes ++ [(slices.map List.length, some bytes.length)]
      out := s.out ++ bytes })

/-- Answer a write. A socket that has to wait keeps its script. -/
def write (slices : List (List UInt8)) (s : ScriptedSocket) : Writer.Reply × ScriptedSocket :=
  match s.script with
  | [] => s.accept slices slices.flatten.length
  | .accepted n :: script => { s with script }.accept slices n
  | .failed text :: script =>
    (.failed text, { s with script, writes := s.writes ++ [(slices.map List.length, none)] })
  | .blocked :: _ => (.blocked, s)

/-- Answer a flush. -/
def flush (s : ScriptedSocket) : Writer.Reply × ScriptedSocket :=
  (if s.flushFails then .failed brokenPipe else .accepted 0, { s with flushes := s.flushes + 1 })

/-- Shut down. -/
def shutdown (s : ScriptedSocket) : ScriptedSocket := { s with shut := true }

/-- The scripted socket as a socket. -/
def socket : Writer.Socket ScriptedSocket := ⟨write, flush, shutdown⟩

/-- Let the socket answer a write that waits, and add answers to the script. -/
def resume (s : ScriptedSocket) (answers : List Writer.Reply) : ScriptedSocket :=
  match s.script with
  | .blocked :: script => { s with script := script ++ answers }
  | script => { s with script := script ++ answers }

end ScriptedSocket

/-- A writer by itself. -/
structure Bench where
  /-- The framing. -/
  codec : Codec
  /-- The writer. -/
  writer : Writer
  /-- The socket. -/
  socket : ScriptedSocket
  /-- The state of the connection as the writer sees it; none once nobody keeps it up. -/
  state? : Option Connection.State := some .connected
  /-- The time in milliseconds. -/
  now : Nat := 0
  /-- When something was last written. -/
  activity : Activity := .start 0

namespace Bench

/-- Whether the writer takes the connection for closing. -/
def closing (b : Bench) : Bool :=
  match b.state? with
  | some s => s.isClosing
  | none => true

/-- Send a message if anybody still can. -/
def trySend (b : Bench) (m : Message) : Bench × Option (Except Fault Nat) :=
  if b.writer.queue.attached then
    let (queue, r) := b.writer.queue.trySend m
    ({ b with writer := { b.writer with queue } }, some r)
  else (b, none)

/-- Let the writer go on until it has to wait. -/
def settle (b : Bench) : Bench × List Signal :=
  let (writer, socket, signals) := b.writer.run b.codec ScriptedSocket.socket b.closing b.socket
  let activity := if signals.any Signal.isActive then b.activity.record b.now else b.activity
  ({ b with writer, socket, activity }, signals)

/-- Let time pass, once the writer has to wait. -/
def sleep (b : Bench) (ms : Nat) : Bench × List Signal :=
  let (b, signals) := b.settle
  ({ b with now := b.now + ms }, signals)

/-- What became of an accepted message, if it is among the signals. -/
def outcome? (signals : List Signal) (ticket : Nat) : Option (Except Fault Unit) :=
  signals.findSome? fun s =>
    match s with
    | .resolved k r => if k = ticket then some r else none
    | _ => none

/-- Send a message and wait for it to be written, at most `ms` milliseconds. Without any time it is
not written yet. -/
def sendAndWait (b : Bench) (m : Message) (ms : Nat) :
    Bench × Option (Except Fault Unit) × List Signal :=
  match b.trySend m with
  | (b, none) => (b, none, [])
  | (b, some (.error f)) => (b, some (.error f), [])
  | (b, some (.ok ticket)) =>
    if ms = 0 then (b, some (.error .timeout), [])
    else
      match b.settle with
      | (b', signals) =>
        match outcome? signals ticket with
        | some r => (b', some r, signals)
        | none => ((b.sleep ms).1, some (.error .timeout), signals)

/-- Nobody can send any more. -/
def dropHandle (b : Bench) : Bench :=
  { b with writer := { b.writer with queue := b.writer.queue.detach } }

end Bench

end Interchange
