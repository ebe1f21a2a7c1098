import Interchange.Fault
import Interchange.Message

/-!
# The outbound queue

Messages that were accepted for writing and wait for the writer, up to a bound. Beside them stands
a counter of the messages that were accepted and not yet released, those that the writer has taken
included. A sender raises the counter before it enqueues and lowers it again when it is refused, so
the writer never releases what was not counted; `raise`, `enqueue` and `lower` are the indivisible
steps of `trySend`, and `dequeue?` is the writer's.
-/

namespace Interchange

/-- An accepted message. -/
structure Queued where
  /-- How many messages were accepted before it. -/
  ticket : Nat
  /-- The message. -/
  message : Message
  deriving DecidableEq, Repr

/-- The queue between the senders of a connection and its writer. -/
structure Queue where
  /-- The most messages that may wait. -/
  bound : Nat
  /-- The messages that wait, the oldest first. -/
  waiting : List Queued := []
  /-- The messages that were accepted and not yet released. -/
  pending : Nat := 0
  /-- How many messages were accepted. -/
  accepted : Nat := 0
  /-- Whether the writer takes no more messages. -/
  closed : Bool := false
  /-- Whether anybody can still send. -/
  attached : Bool := true
  deriving DecidableEq, Repr

/-- The bound where none is given. -/
def defaultMaxPending : Nat := 1024

namespace Queue

/-- The most messages that the writer puts into a batch. -/
def batchLimit : Nat := 64

/-- A queue in words. -/
def description (q : Queue) : String :=
  "WriterHandle \x7b pending: " ++ Digits.text q.pending ++ ", max_pending: " ++ Digits.text q.bound
    ++ ", closed: " ++ (if q.closed then "true" else "false") ++ " \x7d"

/-- Whether no message fits any more. -/
def isFull (q : Queue) : Bool := q.bound ≤ q.waiting.length

/-- Count a message. -/
def raise (q : Queue) : Queue := { q with pending := q.pending + 1 }

/-- Release `n` messages. -/
def lower (q : Queue) (n : Nat) : Queue := { q with pending := q.pending - n }

/-- Put a message behind the others. -/
def enqueue (q : Queue) (m : Message) : Except Fault (Queue × Nat) :=
  if q.closed then .error .connectionClosed
  else if q.isFull then .error .notWritable
  else
    .ok ({ q with waiting := q.waiting ++ [⟨q.accepted, m⟩], accepted := q.accepted + 1 },
      q.accepted)

/-- Send a message without waiting: its ticket, or why it is refused. -/
def trySend (q : Queue) (m : Message) : Queue × Except Fault Nat :=
  if q.closed then (q, .error .connectionClosed)
  else
    match q.raise.enqueue m with
    | .ok (q, ticket) => (q, .ok ticket)
    | .error f => (q.raise.lower 1, .error f)

/-- The oldest message and the queue without it, unless the queue is empty. -/
def dequeue? (q : Queue) : Option (Queued × Queue) :=
  match q.waiting with
  | [] => none
  | m :: rest => some (m, { q with waiting := rest })

/-- The queue that takes and holds no more messages. -/
def close (q : Queue) : Queue := { q with waiting := [], closed := true }

/-- The queue that nobody can send to any more. -/
def detach (q : Queue) : Queue := { q with attached := false }

end Queue

end Interchange
