import Interchange.Outbound.Senders
import Interchange.Proofs.Outbound.Ledger

/-!
# The counter of a queue with many senders

`Shift` lists what an indivisible step of the writer's task does to the queue and to what is in
flight. From it comes the `Ledger`: the counter stands for the messages that wait, those in flight,
those that senders have counted and not put into the queue, and those that a task has left behind
that failed. `Crowd.ledger` says that every run keeps it.

`run_trySend` and `exists_performs` say that where nobody comes between, senders and the writer do
by these steps what they do in one.
-/

namespace Interchange

open Writer

/-- How many messages stay counted in a step although nobody will release them: what waits when a
task that has ended lets go of the queue, and all that it has when it is given up. -/
def Writer.strands (w : Writer) (e : Event) : Nat :=
  match e, w.phase with
  | .wake, .ended _ => w.queue.waiting.length
  | .abandon, .ended _ => 0
  | .abandon, .abandoned => 0
  | .abandon, _ => w.queue.waiting.length + w.inFlight
  | _, _ => 0

/-- What an indivisible step of a writer's task does. -/
inductive Shift : Writer → Writer.Event → Writer → Prop
  /-- Nothing. -/
  | idle {w : Writer} {e : Event} (hs : w.strands e = 0) : Shift w e w
  /-- It takes the first message for a batch. -/
  | first {q : Queue} {m : Queued} {rest : List Queued} (hq : q.waiting = m :: rest) :
    Shift ⟨q, .waiting⟩ .wake ⟨{ q with waiting := rest }, .gathering [m]⟩
  /-- It takes one more message. -/
  | take {q : Queue} {m : Queued} {ms rest : List Queued} (hq : q.waiting = m :: rest) :
    Shift ⟨q, .gathering ms⟩ .wake ⟨{ q with waiting := rest }, .gathering (ms ++ [m])⟩
  /-- It starts to write what it has taken. -/
  | start {q : Queue} {ms : List Queued} {b : Batch} (hb : b.releases = ms.length)
    (hl : b.last = q.closed) (hw : q.closed = true → q.waiting = []) :
    Shift ⟨q, .gathering ms⟩ .wake ⟨q, .writing b⟩
  /-- It has nothing to write. -/
  | skip {q : Queue} {ms : List Queued} (hc : q.closed = false) :
    Shift ⟨q, .gathering ms⟩ .wake ⟨q.lower ms.length, .waiting⟩
  /-- It has nothing to write, and ends. -/
  | skipLast {q : Queue} {ms : List Queued} (hc : q.closed = true) (hw : q.waiting = []) :
    Shift ⟨q, .gathering ms⟩ .wake ⟨q.lower ms.length, .ended (.ok ())⟩
  /-- It closes the queue and takes what is left in it. -/
  | shut {q : Queue} : Shift ⟨q, .waiting⟩ .closing ⟨q.shut, .gathering []⟩
  /-- Nobody can send any more, and it ends. -/
  | leave {q : Queue} (hw : q.waiting = []) : Shift ⟨q, .waiting⟩ .wake ⟨q.close, .ended (.ok ())⟩
  /-- It goes on with its batch. -/
  | write {q : Queue} {b b' : Batch} {n : Nat} (hb : b'.releases = b.releases)
    (hl : b'.last = b.last) : Shift ⟨q, .writing b⟩ (.wrote n) ⟨q, .writing b'⟩
  /-- Its batch is done. -/
  | complete {q : Queue} {b : Batch} (hl : b.last = false) :
    Shift ⟨q, .writing b⟩ .flushed ⟨q.lower b.releases, .waiting⟩
  /-- Its last batch is done. -/
  | completeLast {q : Queue} {b : Batch} (hl : b.last = true) :
    Shift ⟨q, .writing b⟩ .flushed ⟨q.lower b.releases, .ended (.ok ())⟩
  /-- The socket fails. -/
  | fail {q : Queue} {b : Batch} {f : Fault} {e : Event} (he : e ≠ .abandon) :
    Shift ⟨q, .writing b⟩ e ⟨q.lower b.releases, .ended (.error f)⟩
  /-- It lets go of the queue. -/
  | letGo {q : Queue} {r : Except Fault Unit} : Shift ⟨q, .ended r⟩ .wake ⟨q.close, .ended r⟩
  /-- It is given up. -/
  | abandon {q : Queue} {p : Phase} (hp : (⟨q, p⟩ : Writer).isEnded = false) :
    Shift ⟨q, p⟩ .abandon ⟨q.close, .abandoned⟩

namespace Shift

variable {c : Codec} {q : Queue} {ms : List Queued}

/-- A batch that takes no more messages. -/
theorem of_start (hw : q.closed = true → q.waiting = []) :
    Shift ⟨q, .gathering ms⟩ .wake (Writer.start c ⟨q, .gathering ms⟩ ms q.closed).1 := by
  simp only [Writer.start]
  split
  · cases hc : q.closed with
    | false => exact .skip hc
    | true => exact .skipLast hc (hw hc)
  · exact .start rfl rfl hw

theorem of_gather (hc : q.closed = false) :
    Shift ⟨q, .gathering ms⟩ .wake (gather c ⟨q, .gathering ms⟩ ms).1 := by
  have hstart : Shift ⟨q, .gathering ms⟩ .wake (Writer.start c ⟨q, .gathering ms⟩ ms q.closed).1 :=
    of_start fun h => by cases hc.symm.trans h
  rw [hc] at hstart
  unfold gather Queue.dequeue?
  cases hq : q.waiting with
  | nil => exact hstart
  | cons m rest =>
    simp only
    split
    · exact .take hq
    · exact hstart

theorem of_drain (hc : q.closed = true) :
    Shift ⟨q, .gathering ms⟩ .wake (drain c ⟨q, .gathering ms⟩ ms).1 := by
  unfold drain Queue.dequeue?
  cases hq : q.waiting with
  | nil =>
    have hstart :
        Shift ⟨q, .gathering ms⟩ .wake (Writer.start c ⟨q, .gathering ms⟩ ms q.closed).1 :=
      of_start fun _ => hq
    rwa [hc] at hstart
  | cons m rest => exact .take hq

/-- **What a step of the task does.** -/
theorem perform (c : Codec) (w : Writer) (e : Event) : Shift w e (w.perform c e).1 := by
  obtain ⟨q, p⟩ := w
  cases p with
  | waiting =>
    cases e with
    | wake =>
      simp only [Writer.perform, step]
      split
      · next hw =>
        split
        · exact .idle rfl
        · exact .leave (List.isEmpty_iff.1 hw)
      · next hw =>
        obtain ⟨m, rest, hq⟩ := List.exists_cons_of_ne_nil (fun h => hw (List.isEmpty_iff.2 h))
        simp only [gather, Queue.dequeue?, hq]
        exact .first hq
    | closing => exact .shut
    | abandon => exact .abandon rfl
    | wrote n => cases n <;> exact .idle rfl
    | failed => exact .idle rfl
    | flushed => exact .idle rfl
  | gathering ms =>
    cases e with
    | wake =>
      simp only [Writer.perform]
      split
      · next hc => exact of_drain hc
      · next hc => exact of_gather (Bool.eq_false_iff.2 hc)
    | closing => exact .idle rfl
    | abandon => exact .abandon rfl
    | wrote n => cases n <;> exact .idle rfl
    | failed => exact .idle rfl
    | flushed => exact .idle rfl
  | writing b =>
    cases e with
    | wake => exact .idle rfl
    | closing => exact .idle rfl
    | abandon => exact .abandon rfl
    | wrote n =>
      cases n with
      | zero => exact .fail (by simp)
      | succ n => exact .write rfl rfl
    | failed => exact .fail (by simp)
    | flushed =>
      simp only [Writer.perform, step]
      split
      · cases hl : b.last with
        | false =>
          simp only [Writer.complete, release, hl]
          exact .complete hl
        | true =>
          simp only [Writer.complete, release, hl]
          exact .completeLast hl
      · exact .idle rfl
  | ended r =>
    cases e with
    | wake => exact .letGo
    | wrote n => cases n <;> exact .idle rfl
    | closing => exact .idle rfl
    | abandon => exact .idle rfl
    | failed => exact .idle rfl
    | flushed => exact .idle rfl
  | abandoned =>
    cases e with
    | wrote n => cases n <;> exact .idle rfl
    | wake => exact .idle rfl
    | closing => exact .idle rfl
    | abandon => exact .idle rfl
    | failed => exact .idle rfl
    | flushed => exact .idle rfl

end Shift

/-! ## What a step of the task does to the counter -/

namespace Writer

/-- How many messages are released when a writer comes to stand somewhere: what was in flight, if no
batch is any more and the writer is not given up. -/
def released (w v : Writer) : Nat :=
  match v.phase with
  | .waiting => w.inFlight
  | .ended _ => w.inFlight
  | _ => 0

/-- The queue of a writer is closed when it should be, and is empty when nobody will take anything
from it. -/
def Tidy (w : Writer) : Prop :=
  match w.phase with
  | .waiting => w.queue.closed = false
  | .gathering _ => True
  | .writing b => b.last = w.queue.closed ∧ (w.queue.closed = true → w.queue.waiting = [])
  | .ended (.ok ()) => w.queue.closed = true ∧ w.queue.waiting = []
  | .ended (.error _) => w.queue.closed = true → w.queue.waiting = []
  | .abandoned => w.queue.closed = true ∧ w.queue.waiting = []

end Writer

namespace Shift

variable {w v : Writer} {e : Event}

theorem bound (h : Shift w e v) : v.queue.bound = w.queue.bound := by
  cases h <;> rfl

/-- The task only takes messages from the queue. -/
theorem length_waiting_le (h : Shift w e v) : v.queue.waiting.length ≤ w.queue.waiting.length := by
  cases h with
  | first hq => simp [hq]
  | take hq => simp [hq]
  | leave => simp [Queue.close]
  | letGo => simp [Queue.close]
  | abandon => simp [Queue.close]
  | _ => exact Nat.le_refl _

/-- Each message that waits or is in flight goes on to do so, or is released, or stays counted. -/
theorem conserves (h : Shift w e v) :
    v.queue.waiting.length + v.inFlight + w.released v + w.strands e =
      w.queue.waiting.length + w.inFlight := by
  cases h with
  | idle hs =>
    rw [hs]
    unfold released inFlight
    cases w.phase <;> simp
  | first hq => simp [inFlight, released, strands, hq]
  | take hq => simp [inFlight, released, strands, hq]; omega
  | start hb => simp [inFlight, released, strands, hb]
  | skip => simp [inFlight, released, strands, Queue.lower]
  | skipLast => simp [inFlight, released, strands, Queue.lower]
  | shut => simp [inFlight, released, strands, Queue.shut]
  | leave hw => simp [inFlight, released, strands, Queue.close, hw]
  | write hb => simp [inFlight, released, strands, hb]
  | complete => simp [inFlight, released, strands, Queue.lower]
  | completeLast => simp [inFlight, released, strands, Queue.lower]
  | fail he => cases e <;> simp_all [inFlight, released, strands, Queue.lower]
  | letGo => simp [inFlight, released, strands, Queue.close]
  | @abandon q p hp => cases p <;> simp_all [isEnded, inFlight, released, strands, Queue.close]

/-- The counter is lowered by what is released. -/
theorem pending (h : Shift w e v) : v.queue.pending = w.queue.pending - w.released v := by
  cases h with
  | idle hs =>
    unfold released inFlight
    cases w.phase <;> simp
  | _ => simp [inFlight, released, Queue.lower, Queue.shut, Queue.close]

theorem tidy (h : Shift w e v) (hw : w.Tidy) : v.Tidy := by
  cases h with
  | idle => exact hw
  | first => trivial
  | take => trivial
  | start hb hl hq => exact ⟨hl, hq⟩
  | skip hc => exact hc
  | skipLast hc hq => exact ⟨hc, hq⟩
  | shut => trivial
  | leave => exact ⟨rfl, rfl⟩
  | write hb hl => exact ⟨hl.trans hw.1, hw.2⟩
  | complete hl => exact hw.1.symm.trans hl
  | completeLast hl => exact ⟨hw.1.symm.trans hl, hw.2 (hw.1.symm.trans hl)⟩
  | fail => exact hw.2
  | @letGo q r =>
    cases r with
    | ok => exact ⟨rfl, rfl⟩
    | error f => exact fun _ => rfl
  | abandon => exact ⟨rfl, rfl⟩

/-- What stays counted was left by a task that has failed. -/
theorem failed (h : Shift w e v) (hw : w.Tidy) (hs : w.strands e ≠ 0) :
    v.hasFailed = true ∧ v.queue.closed = true := by
  cases h with
  | idle hs' => exact absurd hs' hs
  | @letGo q r =>
    cases r with
    | ok =>
      have hempty : q.waiting = [] := hw.2
      simp [strands, hempty] at hs
    | error f => exact ⟨rfl, rfl⟩
  | abandon => exact ⟨rfl, rfl⟩
  | fail he => cases e <;> simp_all [strands]
  | _ => exact absurd rfl hs

theorem stays_failed (h : Shift w e v) (hf : w.hasFailed = true) (hc : w.queue.closed = true) :
    v.hasFailed = true ∧ v.queue.closed = true := by
  cases h with
  | idle => exact ⟨hf, hc⟩
  | letGo => exact ⟨hf, rfl⟩
  | abandon => exact ⟨rfl, rfl⟩
  | _ => cases hf

end Shift

/-! ## The ledger -/

namespace Queue

variable {q q' : Queue} {m : Message} {ticket : Nat} {f : Fault}

/-- The queue after it took a message. -/
def taking (q : Queue) (m : Message) : Queue :=
  { q with waiting := q.waiting ++ [⟨q.accepted, m⟩], accepted := q.accepted + 1 }

/-- A message is taken by a queue that is open and has room. -/
theorem enqueue_ok (h : q.enqueue m = .ok (q', ticket)) : q.closed = false ∧
    q.waiting.length < q.bound ∧ q' = q.taking m ∧ ticket = q.accepted := by
  unfold enqueue at h
  split at h
  · cases h
  · next hc =>
    split at h
    · cases h
    · next hf =>
      cases h
      exact ⟨Bool.eq_false_iff.2 hc, by simpa [isFull] using hf, rfl, rfl⟩

/-- A message is refused by a queue that is closed or full. -/
theorem enqueue_error (h : q.enqueue m = .error f) :
    q.closed = true ∧ f = .connectionClosed ∨
      q.closed = false ∧ q.bound ≤ q.waiting.length ∧ f = .notWritable := by
  unfold enqueue at h
  split at h
  · next hc =>
    cases h
    exact .inl ⟨hc, rfl⟩
  · next hc =>
    split at h
    · next hf =>
      cases h
      exact .inr ⟨Bool.eq_false_iff.2 hc, by simpa [isFull] using hf, rfl⟩
    · cases h

end Queue

namespace Writer

variable {w : Writer} {q : Queue}

/-- An open queue may take a message, whatever the writer does. -/
theorem Tidy.of_open (h : w.Tidy) (ho : w.queue.closed = false) (hq : q.closed = false) :
    Tidy { w with queue := q } := by
  obtain ⟨q', p⟩ := w
  cases p with
  | waiting => exact hq
  | gathering => trivial
  | writing b => exact ⟨h.1.trans (ho.trans hq.symm), fun hc => by cases hq.symm.trans hc⟩
  | ended r =>
    cases r with
    | ok => cases ho.symm.trans h.1
    | error f => exact fun hc => by cases hq.symm.trans hc
  | abandoned => cases ho.symm.trans h.1

/-- What is counted, and who may send, is no concern of the writer. -/
theorem Tidy.withQueue (h : w.Tidy) (hc : q.closed = w.queue.closed)
    (hw : q.waiting = w.queue.waiting) : Tidy { w with queue := q } := by
  unfold Tidy at h ⊢
  rw [hc, hw]
  exact h

end Writer

namespace Crowd

variable {c : Codec} {bound k n : Nat} {s : Crowd} {a : Sending} {e : Event}

/-- How many sends have counted their message and neither put it into the queue nor taken the count
back. -/
def midway (s : Crowd) : Nat := Numbered.total Sending.weight s.sends

/-- How many messages stay counted in an event although nobody will release them. -/
def strands (s : Crowd) : Event → Nat
  | .writer e => s.writer.strands e
  | _ => 0

/-- How many messages stay counted in a run although nobody will release them. -/
def stranded (c : Codec) : Crowd → List Event → Nat
  | _, [] => 0
  | s, e :: es => s.strands e + stranded c (s.step c e) es

/-- The counter stands for what waits, what is in flight, what senders have counted, and `k`
messages that a writer has left. -/
structure Ledger (bound k : Nat) (s : Crowd) : Prop where
  capacity : s.queue.bound = bound
  fits : s.queue.waiting.length ≤ bound
  tidy : s.writer.Tidy
  balance : s.queue.pending = s.queue.waiting.length + s.writer.inFlight + s.midway + k
  failed : k ≠ 0 → s.writer.hasFailed = true ∧ s.queue.closed = true

@[simp] theorem queue_withQueue (s : Crowd) (q : Queue) : (s.withQueue q).queue = q := rfl

@[simp] theorem queue_advance (s : Crowd) (n : Nat) (stage : Sending.Stage) :
    (s.advance n stage).queue = s.queue := rfl

@[simp] theorem writer_advance (s : Crowd) (n : Nat) (stage : Sending.Stage) :
    (s.advance n stage).writer = s.writer := rfl

@[simp] theorem midway_withQueue (s : Crowd) (q : Queue) : (s.withQueue q).midway = s.midway := rfl

theorem midway_advance (h : s.sending? n = some a) (stage : Sending.Stage) :
    (s.advance n stage).midway + a.weight = s.midway + Sending.weight { a with stage } :=
  Numbered.total_modify Sending.weight (fun a => { a with stage }) h

@[simp] theorem run_append (c : Codec) (s : Crowd) (es es' : List Event) :
    s.run c (es ++ es') = (s.run c es).run c es' := List.foldl_append

theorem sending?_advance (s : Crowd) (n i : Nat) (stage : Sending.Stage) :
    (s.advance n stage).sending? i =
      if i = n then (s.sending? n).map fun a => { a with stage } else s.sending? i := by
  have hn : ∀ a : Sending, Numbered.number a = n → Numbered.number { a with stage } = n :=
    fun _ h => h
  exact Numbered.get?_modify hn s.sends

theorem sending?_number (h : s.sending? n = some a) : a.number = n := Numbered.number_of_get? h

namespace Ledger

theorem new (bound : Nat) : Ledger bound 0 (new bound) :=
  ⟨rfl, Nat.zero_le _, rfl, rfl, fun h => absurd rfl h⟩

/-- A step of a send keeps the ledger. -/
theorem proceed (h : Ledger bound k s) (ha : s.sending? n = some a) :
    Ledger bound k (s.proceed a) := by
  obtain rfl := sending?_number ha
  have hbal := h.balance
  unfold Crowd.proceed
  split
  · next hst =>
    refine ⟨h.capacity, h.fits, h.tidy, ?_, h.failed⟩
    have hmid := midway_advance ha (if s.queue.closed then .rejected .connectionClosed else .passed)
    have hzero : Sending.weight { a with
        stage := if s.queue.closed then .rejected .connectionClosed else .passed } = 0 := by
      cases s.queue.closed <;> rfl
    simp only [Sending.weight, hst] at hmid hzero
    simp only [queue_advance, writer_advance]
    omega
  · next hst =>
    refine ⟨h.capacity, h.fits, h.tidy.withQueue rfl rfl, ?_, h.failed⟩
    have hmid := midway_advance (s := s.withQueue s.queue.raise) ha .raised
    simp only [Sending.weight, hst, midway_withQueue] at hmid
    show s.queue.pending + 1 = s.queue.waiting.length + s.writer.inFlight + _ + k
    omega
  · next hst =>
    split
    · next q ticket hq =>
      obtain ⟨hopen, hroom, rfl, rfl⟩ := Queue.enqueue_ok hq
      have hcap := h.capacity
      have hmid := midway_advance (s := s.withQueue (s.queue.taking a.message)) ha
        (.accepted s.queue.accepted)
      simp only [Sending.weight, hst, midway_withQueue] at hmid
      have hlen : (s.queue.taking a.message).waiting.length = s.queue.waiting.length + 1 := by
        simp [Queue.taking]
      refine ⟨h.capacity, ?_, h.tidy.of_open hopen hopen, ?_, fun hk => ?_⟩
      · show (s.queue.taking a.message).waiting.length ≤ bound
        omega
      · show s.queue.pending =
          (s.queue.taking a.message).waiting.length + s.writer.inFlight + _ + k
        omega
      · cases hopen.symm.trans (h.failed hk).2
    · next f hf =>
      refine ⟨h.capacity, h.fits, h.tidy, ?_, h.failed⟩
      have hmid := midway_advance ha (.refused f)
      simp only [Sending.weight, hst] at hmid
      simp only [queue_advance, writer_advance]
      omega
  · next f hst =>
    refine ⟨h.capacity, h.fits, h.tidy.withQueue rfl rfl, ?_, h.failed⟩
    have hmid := midway_advance (s := s.withQueue (s.queue.lower 1)) ha (.rejected f)
    simp only [Sending.weight, hst, midway_withQueue] at hmid
    show s.queue.pending - 1 = s.queue.waiting.length + s.writer.inFlight + _ + k
    omega
  · exact h

/-- A step of the writer's task keeps the ledger, up to what it leaves. -/
theorem perform (h : Ledger bound k s) (c : Codec) (e : Writer.Event) :
    Ledger bound (k + s.writer.strands e) (s.step c (.writer e)) := by
  have hs := Shift.perform c s.writer e
  have hconserves := hs.conserves
  have hpending := hs.pending
  have hbal := h.balance
  refine ⟨hs.bound.trans h.capacity, Nat.le_trans hs.length_waiting_le h.fits, hs.tidy h.tidy, ?_,
    fun hk => ?_⟩
  · show (s.writer.perform c e).1.queue.pending = (s.writer.perform c e).1.queue.waiting.length
      + (s.writer.perform c e).1.inFlight + s.midway + (k + s.writer.strands e)
    simp only [queue] at hbal
    omega
  · by_cases hz : k = 0
    · exact hs.failed h.tidy (by omega)
    · exact hs.stays_failed (h.failed hz).1 (h.failed hz).2

/-- **Every event keeps the ledger.** -/
theorem step (h : Ledger bound k s) (c : Codec) (e : Event) :
    Ledger bound (k + s.strands e) (s.step c e) := by
  cases e with
  | clone =>
    simp only [Crowd.step]
    split
    · exact ⟨h.capacity, h.fits, h.tidy, h.balance, h.failed⟩
    · exact h
  | drop =>
    simp only [Crowd.step]
    split
    · exact ⟨h.capacity, h.fits, h.tidy, h.balance, h.failed⟩
    · split
      · exact ⟨h.capacity, h.fits, h.tidy.withQueue rfl rfl, h.balance, h.failed⟩
      · exact h
  | send m =>
    simp only [Crowd.step]
    split
    · refine ⟨h.capacity, h.fits, h.tidy, ?_, h.failed⟩
      have hbal := h.balance
      simpa [midway, Numbered.total_append, Sending.weight, queue, strands] using hbal
    · exact h
  | go n =>
    simp only [Crowd.step]
    split
    · next ha => exact h.proceed ha
    · exact h
  | writer e => exact h.perform c e

theorem run (h : Ledger bound k s) (c : Codec) (es : List Event) :
    Ledger bound (k + stranded c s es) (s.run c es) := by
  induction es generalizing s k with
  | nil => exact h
  | cons e es ih =>
    have hrest := ih (h.step c e)
    rwa [Nat.add_assoc] at hrest

end Ledger

/-- **The ledger** of every run. -/
theorem ledger (c : Codec) (bound : Nat) (es : List Event) :
    Ledger bound (stranded c (new bound) es) ((new bound).run c es) := by
  have h := (Ledger.new bound).run c es
  rwa [Nat.zero_add] at h

/-! ## Where nobody comes between -/

/-- Where a send is when it is over. -/
def ending : Except Fault Nat → Sending.Stage
  | .ok ticket => .accepted ticket
  | .error f => .rejected f

theorem advance_advance (s : Crowd) (n : Nat) (stage stage' : Sending.Stage) :
    (s.advance n stage).advance n stage' = s.advance n stage' := by
  have hn : ∀ a : Sending, Numbered.number a = n → Numbered.number { a with stage } = n :=
    fun _ h => h
  unfold advance
  rw [Numbered.modify_modify hn]

theorem withQueue_advance (s : Crowd) (n : Nat) (stage : Sending.Stage) (q : Queue) :
    (s.advance n stage).withQueue q = (s.withQueue q).advance n stage := rfl

theorem withQueue_withQueue (s : Crowd) (q q' : Queue) :
    (s.withQueue q).withQueue q' = s.withQueue q' := rfl

theorem step_go (ha : s.sending? n = some a) : s.step c (.go n) = s.proceed a := by
  simp only [Crowd.step, ha]

/-- **A send that nobody comes between** leaves the queue as `Queue.trySend` does, and is told the
same. -/
theorem run_trySend (c : Codec) (ha : s.sending? n = some a) (hs : a.stage = .begun) :
    s.run c [.go n, .go n, .go n, .go n] =
      (s.withQueue (s.queue.trySend a.message).1).advance n
        (ending (s.queue.trySend a.message).2) := by
  obtain rfl := sending?_number ha
  have hnext (q : Queue) (stage : Sending.Stage) :
      ((s.withQueue q).advance a.number stage).step c (.go a.number) =
        ((s.withQueue q).advance a.number stage).proceed { a with stage } := by
    refine step_go ?_
    rw [sending?_advance, if_pos rfl]
    exact congrArg (Option.map _) ha
  have hself : s.step c (.go a.number) = ((s.withQueue s.queue).advance a.number
      (if s.queue.closed then .rejected .connectionClosed else .passed)) := by
    rw [step_go ha, Crowd.proceed, hs]
    rfl
  simp only [run, List.foldl_cons, List.foldl_nil, hself]
  cases hc : s.queue.closed with
  | true =>
    simp only [↓reduceIte, hnext, Crowd.proceed]
    simp [Queue.trySend, hc, ending]
  | false =>
    simp only [Bool.false_eq_true, ↓reduceIte, hnext, Crowd.proceed, queue_advance, queue_withQueue,
      withQueue_advance, withQueue_withQueue, advance_advance]
    unfold Queue.trySend
    rw [hc, if_neg Bool.false_ne_true]
    cases s.queue.raise.enqueue a.message with
    | ok taken =>
      simp only [hnext, Crowd.proceed]
      rfl
    | error f =>
      simp only [hnext, Crowd.proceed, withQueue_advance, withQueue_withQueue, advance_advance]
      rfl

/-- Nothing of what the task does is half done. -/
def IsWhole (w : Writer) : Prop :=
  match w.phase with
  | .gathering _ => w.queue.closed = false
  | .ended _ => w.queue.closed = true ∧ w.queue.waiting = []
  | _ => True

/-- A batch is started alike wherever the writer stands. -/
theorem start_of_phase (c : Codec) (q : Queue) (p p' : Phase) (ms : List Queued) (last : Bool) :
    Writer.start c ⟨q, p⟩ ms last = Writer.start c ⟨q, p'⟩ ms last := by
  simp only [Writer.start]
  split <;> rfl

/-- The task takes what is left in a closed queue. -/
theorem run_drain (c : Codec) (waiting : List Queued) {s : Crowd} {q : Queue} {ms : List Queued}
    (hw : s.writer = ⟨q, .gathering ms⟩) (hc : q.closed = true) (hq : q.waiting = waiting) :
    s.run c ((List.replicate (waiting.length + 1) .wake).map .writer) =
      { s with
        writer := (Writer.start c ⟨q.close, .waiting⟩ (ms ++ waiting) true).1
        signals := s.signals ++ (Writer.start c ⟨q.close, .waiting⟩ (ms ++ waiting) true).2 } := by
  have hwake : s.writer.perform c .wake = drain c ⟨q, .gathering ms⟩ ms := by
    simp [hw, Writer.perform, hc]
  induction waiting generalizing s q ms with
  | nil =>
    have hclose : q.close = q := by simp [Queue.close, ← hq, ← hc]
    have hdrain : drain c ⟨q, .gathering ms⟩ ms = Writer.start c ⟨q, .waiting⟩ ms true := by
      rw [drain, Queue.dequeue?, hq, start_of_phase]
    rw [hclose, List.append_nil, ← hdrain, ← hwake]
    rfl
  | cons m rest ih =>
    have hdrain : drain c ⟨q, .gathering ms⟩ ms =
        (⟨{ q with waiting := rest }, .gathering (ms ++ [m])⟩, []) := by
      rw [drain, Queue.dequeue?, hq]
    have hstep : s.step c (.writer .wake) =
        { s with writer := ⟨{ q with waiting := rest }, .gathering (ms ++ [m])⟩ } := by
      simp [Crowd.step, hwake, hdrain]
    have hwriter : (s.step c (.writer .wake)).writer =
        ⟨{ q with waiting := rest }, .gathering (ms ++ [m])⟩ := by rw [hstep]
    have hrest := ih hwriter hc rfl (by simp [hstep, Writer.perform, hc])
    rw [hstep, List.append_assoc] at hrest
    rw [List.length_cons, List.replicate_succ, List.map_cons, ← List.singleton_append, run_append]
    show (s.step c (.writer .wake)).run c _ = _
    rw [hstep]
    exact hrest

/-- **A task that nobody comes between** does what the writer does in one step. -/
theorem exists_performs (c : Codec) (s : Crowd) (hw : IsWhole s.writer) (e : Writer.Event) :
    ∃ es : List Writer.Event, s.run c (es.map .writer) =
      { s with
        writer := (s.writer.step c e).1
        signals := s.signals ++ (s.writer.step c e).2 } := by
  have hone (h : s.writer.perform c e = s.writer.step c e) : ∃ es : List Writer.Event,
      s.run c (es.map .writer) = { s with
        writer := (s.writer.step c e).1
        signals := s.signals ++ (s.writer.step c e).2 } :=
    ⟨[e], by rw [← h]; rfl⟩
  obtain ⟨⟨q, p⟩, handles, sends, signals⟩ := s
  cases p with
  | waiting =>
    cases e with
    | closing =>
      refine ⟨.closing :: List.replicate (q.waiting.length + 1) .wake, ?_⟩
      have hshut : run c ⟨⟨q, .waiting⟩, handles, sends, signals⟩ [.writer .closing] =
          ⟨⟨q.shut, .gathering []⟩, handles, sends, signals⟩ := by
        simp [run, Crowd.step, Writer.perform]
      rw [List.map_cons, ← List.singleton_append, run_append, hshut]
      exact run_drain c q.waiting (s := ⟨⟨q.shut, .gathering []⟩, handles, sends, signals⟩)
        (q := q.shut) rfl rfl rfl
    | wrote n => cases n <;> exact hone rfl
    | wake => exact hone rfl
    | failed text => exact hone rfl
    | flushed => exact hone rfl
    | abandon => exact hone rfl
  | gathering ms =>
    cases e with
    | wake => exact hone (by simp [Writer.perform, Writer.step, show q.closed = false from hw])
    | wrote n => cases n <;> exact hone rfl
    | closing => exact hone rfl
    | failed text => exact hone rfl
    | flushed => exact hone rfl
    | abandon => exact hone rfl
  | writing b =>
    cases e with
    | wrote n =>
      cases n with
      | zero =>
        refine ⟨[.wrote 0, .wake], ?_⟩
        simp [run, Crowd.step, Writer.perform, falter, letGo, Writer.step, fail, Queue.lower,
          Queue.close]
      | succ n => exact hone rfl
    | failed text =>
      refine ⟨[.failed text, .wake], ?_⟩
      simp [run, Crowd.step, Writer.perform, falter, letGo, Writer.step, fail, Queue.lower,
        Queue.close]
    | wake => exact hone rfl
    | closing => exact hone rfl
    | flushed => exact hone rfl
    | abandon => exact hone rfl
  | ended r => exact ⟨[], by cases e <;> simp [run, Writer.step]⟩
  | abandoned =>
    cases e with
    | wrote n => cases n <;> exact hone rfl
    | _ => exact hone rfl

end Crowd

end Interchange
