import Interchange.Outbound.Batch
import Interchange.Pack.Writer

/-!
# The writer of a connection

The writer takes messages from the queue one by one until it has a batch, frames them, and writes
the batch to the socket until every byte is accepted and the socket is flushed. A message that
cannot be framed is resolved with its own fault and leaves the others alone. A fault of the socket
ends the writer and resolves everything that is unresolved as closed. A connection that is closing
makes the writer write what is queued and then shut down its side of the socket.

`step` carries out one event, which is what happens between two points at which the writer waits.
`advance?` lets the writer take its next step against a given socket, and `run` repeats it until the
writer has to wait.
-/

namespace Interchange

/-- What the writer lets others know. -/
inductive Signal where
  /-- The socket accepted bytes. -/
  | sent (bytes : List UInt8)
  /-- A batch was written. -/
  | active
  /-- A message was written. -/
  | logged (m : Message)
  /-- What became of an accepted message. -/
  | resolved (ticket : Nat) (outcome : Except Fault Unit)
  /-- Everything is written, and the writer shuts down its side of the socket. -/
  | shut

/-- Whether a signal says that a batch was written. -/
def Signal.isActive : Signal → Bool
  | active => true
  | _ => false

namespace Writer

/-- Where a writer stands. -/
inductive Phase where
  /-- It waits for messages. -/
  | waiting
  /-- It has taken messages for a batch and looks for more. -/
  | gathering (ms : List Queued)
  /-- It writes a batch. -/
  | writing (b : Batch)
  /-- It has ended, and how. -/
  | ended (outcome : Except Fault Unit)
  /-- It was given up before it ended. -/
  | abandoned

/-- What happens to a writer. -/
inductive Event where
  /-- It looks for a message in the queue, or for somebody to send one. -/
  | wake
  /-- It finds that the connection is closing. -/
  | closing
  /-- The socket accepts `n` bytes. -/
  | wrote (n : Nat)
  /-- The socket fails. -/
  | failed (text : String)
  /-- The socket is flushed. -/
  | flushed
  /-- It is given up. -/
  | abandon

end Writer

/-- The writer of a connection and its queue. -/
structure Writer where
  /-- The messages that wait. -/
  queue : Queue
  /-- Where the writer stands. -/
  phase : Writer.Phase := .waiting

namespace Writer

/-- A new writer with a bound on its queue. -/
def new (bound : Nat) : Writer := { queue := { bound } }

/-- Whether a writer has ended. -/
def isEnded (w : Writer) : Bool :=
  match w.phase with
  | .ended _ => true
  | .abandoned => true
  | _ => false

/-- Whether a writer ended without a fault. -/
def endedWell (w : Writer) : Bool :=
  match w.phase with
  | .ended (.ok ()) => true
  | _ => false

/-- A message as a frame. -/
def frame (c : Codec) (m : Message) : Except Fault Frame := c.encode (Pack.serialize m)

/-- The messages that can be framed, with their frames. -/
def framed (c : Codec) (ms : List Queued) : List (Queued × Frame) :=
  ms.filterMap fun q =>
    match frame c q.message with
    | .ok f => some (q, f)
    | .error _ => none

/-- The faults of the messages that cannot be framed. -/
def refusals (c : Codec) (ms : List Queued) : List Signal :=
  ms.filterMap fun q =>
    match frame c q.message with
    | .ok _ => none
    | .error f => some (.resolved q.ticket (.error f))

/-- Everything unresolved comes to nothing. -/
def drop (ms : List Queued) : List Signal :=
  ms.map fun q => .resolved q.ticket (.error .connectionClosed)

/-- What the writer lets others know when a batch is done. -/
def farewell (last : Bool) : List Signal := if last then [.shut] else []

/-- The batch is done: its messages are released, and the writer ends if it was the last. -/
def release (w : Writer) (releases : Nat) (last : Bool) : Writer :=
  { queue := w.queue.lower releases
    phase := if last then .ended (.ok ()) else .waiting }

/-- Start to write messages. -/
def start (c : Codec) (w : Writer) (ms : List Queued) (last : Bool) : Writer × List Signal :=
  let entries := framed c ms
  if entries.isEmpty then (w.release ms.length last, refusals c ms ++ farewell last)
  else ({ w with phase := .writing ⟨entries, 0, ms.length, last⟩ }, refusals c ms)

/-- Take one more message into a batch, or start to write the batch when it is full or no message
waits. -/
def gather (c : Codec) (w : Writer) (ms : List Queued) : Writer × List Signal :=
  match w.queue.dequeue? with
  | some (m, queue) =>
    if ms.length < Queue.batchLimit then ({ queue, phase := .gathering (ms ++ [m]) }, [])
    else start c w ms false
  | none => start c w ms false

/-- The socket failed while a batch was being written. -/
def fail (w : Writer) (b : Batch) (text : String) : Writer × List Signal :=
  ({ queue := (w.queue.lower b.releases).close, phase := .ended (.error (.io text)) },
    drop (b.entries.map (·.1)) ++ drop w.queue.waiting)

/-- A batch was written and flushed. -/
def complete (w : Writer) (b : Batch) : Writer × List Signal :=
  (w.release b.releases b.last,
    .active :: (b.entries.flatMap fun e => [.logged e.1.message, .resolved e.1.ticket (.ok ())])
      ++ farewell b.last)

/-- Carry out one event. An event that cannot happen where the writer stands changes nothing. -/
def step (c : Codec) (w : Writer) : Event → Writer × List Signal
  | .wake =>
    match w.phase with
    | .waiting =>
      if w.queue.waiting.isEmpty then
        if w.queue.attached then (w, [])
        else ({ queue := w.queue.close, phase := .ended (.ok ()) }, [.shut])
      else gather c w []
    | .gathering ms => gather c w ms
    | _ => (w, [])
  | .closing =>
    match w.phase with
    | .waiting => start c { w with queue := w.queue.close } w.queue.waiting true
    | _ => (w, [])
  | .wrote n =>
    match w.phase with
    | .writing b =>
      if n = 0 then w.fail b "write zero"
      else
        let bytes := b.slices.flatten.take n
        ({ w with phase := .writing (b.accept bytes.length) }, [.sent bytes])
    | _ => (w, [])
  | .failed text =>
    match w.phase with
    | .writing b => w.fail b text
    | _ => (w, [])
  | .flushed =>
    match w.phase with
    | .writing b => if b.slices.isEmpty then w.complete b else (w, [])
    | _ => (w, [])
  | .abandon =>
    match w.phase with
    | .waiting => ({ queue := w.queue.close, phase := .abandoned }, drop w.queue.waiting)
    | .gathering ms =>
      ({ queue := w.queue.close, phase := .abandoned }, drop ms ++ drop w.queue.waiting)
    | .writing b =>
      ({ queue := w.queue.close, phase := .abandoned },
        drop (b.entries.map (·.1)) ++ drop w.queue.waiting)
    | _ => (w, [])

/-! ## Against a socket -/

/-- What a socket does with a request. -/
inductive Reply where
  /-- It carries it out; a write accepts `n` bytes. -/
  | accepted (n : Nat)
  /-- It fails. -/
  | failed (text : String)
  /-- It cannot answer yet. -/
  | blocked

/-- The writing side of a socket in a state of type `σ`. -/
structure Socket (σ : Type) where
  /-- Offer slices. -/
  write : List (List UInt8) → σ → Reply × σ
  /-- Flush. -/
  flush : σ → Reply × σ
  /-- Shut down. -/
  shutdown : σ → σ

/-- The event that a socket's answer to a request makes. -/
def Reply.event? (accepted : Nat → Event) : Reply → Option Event
  | .accepted n => some (accepted n)
  | .failed text => some (.failed text)
  | .blocked => none

/-- The next event of a writer against a socket, if there is one, and the socket after it. Messages
come before the closing of the connection. -/
def next? {σ : Type} (sock : Socket σ) (closing : Bool) (w : Writer) (s : σ) : Option Event × σ :=
  match w.phase with
  | .waiting =>
    if !w.queue.waiting.isEmpty || !w.queue.attached then (some .wake, s)
    else if closing then (some .closing, s)
    else (none, s)
  | .gathering _ => (some .wake, s)
  | .writing b =>
    if b.slices.isEmpty then
      ((sock.flush s).1.event? fun _ => .flushed, (sock.flush s).2)
    else ((sock.write b.slices s).1.event? .wrote, (sock.write b.slices s).2)
  | _ => (none, s)

/-- Let the writer take its next step, if it has not to wait. A writer that ends well shuts down the
socket. -/
def advance? {σ : Type} (c : Codec) (sock : Socket σ) (closing : Bool) (w : Writer) (s : σ) :
    Option (Writer × σ × List Signal) :=
  match next? sock closing w s with
  | (none, _) => none
  | (some e, s) =>
    some ((w.step c e).1, if (w.step c e).1.endedWell then sock.shutdown s else s, (w.step c e).2)

/-- A writer's distance from the end of the batch that it writes. -/
def rank : Phase → Nat
  | .waiting => 1
  | .gathering _ => 0
  | .writing b => b.remaining + 2
  | .ended _ => 0
  | .abandoned => 0

/-- A writer's distance from an empty queue with nothing gathered: each message counts when it is
taken and when its batch is started. -/
def backlog (w : Writer) : Nat :=
  2 * w.queue.waiting.length +
    match w.phase with
    | .gathering _ => 1
    | _ => 0

/-- Whether one writer has less to do than another: its backlog is smaller, or as small and the
batch is nearer its end. -/
def Less (v w : Writer) : Prop :=
  Prod.Lex (· < ·) (· < ·) (v.backlog, rank v.phase) (w.backlog, rank w.phase)

theorem less_of_backlog {v w : Writer} (h : v.backlog < w.backlog) : Less v w := .left _ _ h

theorem less_of_rank {v w : Writer} (hl : v.backlog ≤ w.backlog)
    (hr : rank v.phase < rank w.phase) : Less v w := by
  rcases Nat.lt_or_eq_of_le hl with h | h
  · exact .left _ _ h
  · unfold Less
    rw [h]
    exact .right _ hr

theorem backlog_start (c : Codec) (w : Writer) (ms : List Queued) (last : Bool) :
    (start c w ms last).1.backlog = 2 * w.queue.waiting.length := by
  simp only [start]
  split
  · cases last <;> rfl
  · rfl

theorem rank_release (w : Writer) (n : Nat) (last : Bool) :
    rank (w.release n last).phase ≤ 1 := by
  unfold release
  cases last <;> simp [rank]

theorem backlog_release (w : Writer) (n : Nat) (last : Bool) :
    (w.release n last).backlog = 2 * w.queue.waiting.length := by
  cases last <;> rfl

/-- Gathering for a batch lowers the backlog where something waits or was gathered. -/
theorem less_gather {c : Codec} {w : Writer} {ms : List Queued}
    (h : w.queue.waiting ≠ [] ∧ ms = [] ∨ w.backlog = 2 * w.queue.waiting.length + 1) :
    Less (gather c w ms).1 w := by
  refine less_of_backlog ?_
  have hw : 2 * w.queue.waiting.length ≤ w.backlog := Nat.le_add_right ..
  unfold gather Queue.dequeue?
  cases hq : w.queue.waiting with
  | nil =>
    simp only [hq, ne_eq, not_true_eq_false, false_and, false_or] at h
    simp [backlog_start, hq, h]
  | cons m rest =>
    rw [hq, List.length_cons] at hw
    split
    · split
      · next hm _ =>
        cases hm
        simp only [backlog]
        simp only [backlog] at hw
        omega
      · next hm hlen =>
        rw [backlog_start, hq]
        rcases h with ⟨-, rfl⟩ | h
        · simp [Queue.batchLimit] at hlen
        · simp [h, hq]
    · next hm => cases hm

theorem step_less_of_next? {σ : Type} {c : Codec} {sock : Socket σ} {closing : Bool} {w : Writer}
    {s t : σ} {e : Event} (h : next? sock closing w s = (some e, t)) : Less (w.step c e).1 w := by
  unfold next? at h
  split at h
  · next hw =>
    split at h
    · next hq =>
      cases h
      simp only [step, hw]
      split
      · next he =>
        have ha : w.queue.attached = false := by simpa [he] using hq
        rw [ha]
        exact less_of_rank (by simp [backlog, Queue.close]) (by simp [rank, hw])
      · next he => exact less_gather (.inl ⟨by simpa using he, rfl⟩)
    · next hq =>
      split at h
      · cases h
        simp only [step, hw]
        have he : w.queue.waiting = [] := by
          have := hq
          simp at this
          exact this.1
        refine less_of_rank ?_ ?_
        · rw [backlog_start]; simp [Queue.close]
        · simp [start, framed, he, release, rank, hw]
      · cases h
  · next ms hw =>
    cases h
    simp only [step, hw]
    exact less_gather (.inr (by simp [backlog, hw]))
  · next b hw =>
    have hbacklog : w.backlog = 2 * w.queue.waiting.length := by simp [backlog, hw]
    split at h
    · next hs =>
      have h := (Prod.mk.inj h).1
      unfold Reply.event? at h
      split at h
      · cases h
        simp only [step, hw, hs, ↓reduceIte, complete]
        refine less_of_rank (Nat.le_of_eq (by rw [backlog_release, hbacklog])) ?_
        refine Nat.lt_of_le_of_lt (rank_release w b.releases b.last) ?_
        simp [rank, hw]
      · cases h
        simp only [step, hw, fail]
        exact less_of_rank (by simp [backlog, Queue.close]) (by simp [rank, hw])
      · cases h
    · next hs =>
      have h := (Prod.mk.inj h).1
      unfold Reply.event? at h
      split at h
      · next n _ =>
        cases h
        simp only [step, hw]
        split
        · simp only [fail]
          exact less_of_rank (by simp [backlog, Queue.close]) (by simp [rank, hw])
        · next hn =>
          refine less_of_rank (by simp [backlog]) ?_
          have hpos : 0 < b.remaining := Batch.remaining_pos (by simpa using hs)
          have hlen := Batch.length_flatten_slices b
          simp only [rank, hw, Batch.remaining, Batch.accept, Batch.bytes, Batch.frames,
            List.length_take] at hpos hlen ⊢
          omega
      · cases h
        simp only [step, hw, fail]
        exact less_of_rank (by simp [backlog, Queue.close]) (by simp [rank, hw])
      · cases h
  · cases h

theorem advance?_less {σ : Type} {c : Codec} {sock : Socket σ} {closing : Bool} {w v : Writer}
    {s t : σ} {signals : List Signal} (h : advance? c sock closing w s = some (v, t, signals)) :
    Less v w := by
  unfold advance? at h
  split at h
  · cases h
  · next e s' he =>
    have := step_less_of_next? (c := c) he
    cases h
    exact this

/-- Let the writer go on until it has to wait. -/
def run {σ : Type} (c : Codec) (sock : Socket σ) (closing : Bool) (w : Writer) (s : σ) :
    Writer × σ × List Signal :=
  match _h : advance? c sock closing w s with
  | none => (w, s, [])
  | some (v, t, signals) =>
    let (v, t, more) := run c sock closing v t
    (v, t, signals ++ more)
termination_by (w.backlog, rank w.phase)
decreasing_by exact advance?_less _h

end Writer

end Interchange
