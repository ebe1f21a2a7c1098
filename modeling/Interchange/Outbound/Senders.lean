import Interchange.Numbered
import Interchange.Outbound.Writer

/-!
# Senders at once

Any number of senders share the queue of a writer, and what each of them does falls between the
indivisible steps of the others and of the writer. A sender looks whether the queue is closed,
counts its message, puts it into the queue or is refused, and takes its count back if it was
refused; these are the steps of `Queue.trySend`.

The writer's task is taken apart as well. `Writer.perform` carries out one indivisible step of it:
the queue is closed before what is left in it is taken message by message, and a task that the
socket made fail releases its batch before it lets go of the queue.
-/

namespace Interchange

namespace Queue

/-- The queue that takes no more messages and holds those that it has. -/
def shut (q : Queue) : Queue := { q with closed := true }

end Queue

namespace Writer

/-- Take one more message of a closed queue, or start to write all that were taken. -/
def drain (c : Codec) (w : Writer) (ms : List Queued) : Writer × List Signal :=
  match w.queue.dequeue? with
  | some (m, queue) => ({ queue, phase := .gathering (ms ++ [m]) }, [])
  | none => start c w ms true

/-- The socket failed while a batch was being written: the batch is released, and the queue is still
open. -/
def falter (w : Writer) (b : Batch) (text : String) : Writer × List Signal :=
  ({ queue := w.queue.lower b.releases, phase := .ended (.error (.io text)) },
    Writer.drop (b.entries.map (·.1)))

/-- A task that has ended lets go of the queue. -/
def letGo (w : Writer) : Writer × List Signal :=
  ({ w with queue := w.queue.close }, Writer.drop w.queue.waiting)

/-- Carry out one indivisible step of the writer's task. A step that is not due changes nothing. -/
def perform (c : Codec) (w : Writer) (e : Event) : Writer × List Signal :=
  match e, w.phase with
  | .wake, .gathering ms => if w.queue.closed then drain c w ms else gather c w ms
  | .wake, .ended _ => w.letGo
  | .closing, .waiting => ({ queue := w.queue.shut, phase := .gathering [] }, [])
  | .wrote 0, .writing b => w.falter b "write zero"
  | .failed text, .writing b => w.falter b text
  | e, _ => w.step c e

/-- How many messages the writer has taken from the queue and not released. -/
def inFlight (w : Writer) : Nat :=
  match w.phase with
  | .gathering ms => ms.length
  | .writing b => b.releases
  | _ => 0

end Writer

/-- How far a send has come. -/
inductive Sending.Stage where
  /-- It has not looked at the queue. -/
  | begun
  /-- It found the queue open. -/
  | passed
  /-- Its message is counted. -/
  | raised
  /-- It is refused, and its message is counted. -/
  | refused (f : Fault)
  /-- It is over, and its message was accepted. -/
  | accepted (ticket : Nat)
  /-- It is over, and its message was refused. -/
  | rejected (f : Fault)
  deriving DecidableEq, Repr

/-- A send. -/
structure Sending where
  /-- Its number. -/
  number : Nat
  /-- What is sent. -/
  message : Message
  /-- How far it has come. -/
  stage : Sending.Stage := .begun
  deriving DecidableEq, Repr

instance : Numbered Sending := ⟨Sending.number⟩

namespace Sending

/-- Whether a send is over. -/
def isOver (a : Sending) : Bool :=
  match a.stage with
  | .accepted _ => true
  | .rejected _ => true
  | _ => false

/-- Whether a send has counted its message and neither put it into the queue nor taken the count
back, as a number. -/
def weight (a : Sending) : Nat :=
  match a.stage with
  | .raised => 1
  | .refused _ => 1
  | _ => 0

/-- What a send was told, as soon as it is decided. -/
def answer? (a : Sending) : Option (Except Fault Nat) :=
  match a.stage with
  | .refused f => some (.error f)
  | .accepted ticket => some (.ok ticket)
  | .rejected f => some (.error f)
  | _ => none

end Sending

/-- The senders of a writer. -/
structure Crowd where
  /-- The writer and its queue. -/
  writer : Writer
  /-- How many handles of the queue there are. -/
  handles : Nat := 1
  /-- The sends, from the oldest on. -/
  sends : List Sending := []
  /-- What the writer made known. -/
  signals : List Signal := []

namespace Crowd

/-- What happens to senders and their writer. -/
inductive Event where
  /-- A handle is cloned. -/
  | clone
  /-- A handle is given back. -/
  | drop
  /-- A send begins. -/
  | send (m : Message)
  /-- A send takes its next step. -/
  | go (n : Nat)
  /-- The writer takes a step. -/
  | writer (e : Writer.Event)

/-- A new writer and the handle of its queue. -/
def new (bound : Nat) : Crowd := { writer := .new bound }

/-- The queue. -/
def queue (s : Crowd) : Queue := s.writer.queue

/-- The same senders and writer with another queue. -/
def withQueue (s : Crowd) (q : Queue) : Crowd := { s with writer := { s.writer with queue := q } }

/-- The send with a number. -/
def sending? (s : Crowd) (n : Nat) : Option Sending := Numbered.get? n s.sends

/-- A send goes on. -/
def advance (s : Crowd) (n : Nat) (stage : Sending.Stage) : Crowd :=
  { s with sends := Numbered.modify n (fun a => { a with stage }) s.sends }

/-- Carry out the next step of a send. -/
def proceed (s : Crowd) (a : Sending) : Crowd :=
  match a.stage with
  | .begun =>
    s.advance a.number (if s.queue.closed then .rejected .connectionClosed else .passed)
  | .passed => (s.withQueue s.queue.raise).advance a.number .raised
  | .raised =>
    match s.queue.enqueue a.message with
    | .ok (queue, ticket) => (s.withQueue queue).advance a.number (.accepted ticket)
    | .error f => s.advance a.number (.refused f)
  | .refused f => (s.withQueue (s.queue.lower 1)).advance a.number (.rejected f)
  | _ => s

/-- Carry out what happens. Nobody sends without a handle, and the last handle stays while somebody
sends. -/
def step (c : Codec) (s : Crowd) : Event → Crowd
  | .clone => if 0 < s.handles then { s with handles := s.handles + 1 } else s
  | .drop =>
    if 1 < s.handles then { s with handles := s.handles - 1 }
    else if s.handles = 1 && s.sends.all Sending.isOver then
      { s.withQueue s.queue.detach with handles := 0 }
    else s
  | .send m =>
    if 0 < s.handles then
      { s with sends := s.sends ++ [{ number := s.sends.length, message := m }] }
    else s
  | .go n =>
    match s.sending? n with
    | some a => s.proceed a
    | none => s
  | .writer e =>
    { s with writer := (s.writer.perform c e).1, signals := s.signals ++ (s.writer.perform c e).2 }

/-- Carry out what happens one after the other. -/
def run (c : Codec) (s : Crowd) (es : List Event) : Crowd := es.foldl (step c) s

end Crowd

end Interchange
