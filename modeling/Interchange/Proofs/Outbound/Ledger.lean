import Interchange.Proofs.Outbound.Verdicts

/-!
# The books of a writer

An `Account` says where each accepted message stands: done, in flight, or still held by the queue
and the writer. It is the ghost state of a writer: `Stands` relates the two, and `Move` lists what
a step can do to an account, with what is made known. `exists_move` says that each event is such a
move, and every fact about what the writer makes known is a fact about moves.

`Books` is the invariant of what was made known, in terms of the account. `Outbound.balanced` says
that the books balance after every run.
-/

namespace Interchange

namespace Writer

/-- Whether a writer has ended before its messages did. -/
def hasFailed (w : Writer) : Bool := w.isEnded && !w.endedWell

end Writer

/-! ## Accounts -/

/-- Where the accepted messages of a writer stand, each of them in one place. -/
structure Account where
  /-- The messages that the writer is done with. -/
  done : List Queued := []
  /-- The messages of the batch that is being written, or was when the writer failed. -/
  flight : List Queued := []
  /-- The messages that no batch has taken. -/
  held : List Queued := []
  /-- How many bytes of the batch the socket has accepted. -/
  offset : Nat := 0
  /-- Whether the writer has failed. -/
  failed : Bool := false

namespace Account

/-- The accepted messages in their order. -/
def messages (a : Account) : List Queued := a.done ++ a.flight ++ a.held

/-- The messages that come to nothing if the writer fails. -/
def exposed (c : Codec) (a : Account) : List Queued := Writer.framable c a.flight ++ a.held

/-- The messages that came to nothing. -/
def lost (c : Codec) (a : Account) : List Queued := if a.failed then a.exposed c else []

/-- What became of messages: what is done came to its verdict, what is in flight was refused where
it cannot be framed, and what was lost counts as closed. -/
def outcomes (c : Codec) (a : Account) : List (Nat × Except Fault Unit) :=
  Writer.verdicts c a.done ++ Writer.refused c a.flight
    ++ Writer.allTo (.error .connectionClosed) (a.lost c)

section

variable {c : Codec} {done flight held : List Queued} {offset : Nat}

theorem outcomes_flight : outcomes c ⟨done, flight, held, offset, false⟩ =
    Writer.verdicts c done ++ Writer.refused c flight := by
  simp [outcomes, lost]

theorem outcomes_failed : outcomes c ⟨done, flight, held, offset, true⟩ =
    Writer.verdicts c done ++ Writer.refused c flight
      ++ Writer.allTo (.error .connectionClosed) (Writer.framable c flight ++ held) := rfl

end

end Account

open Writer in
/-- A writer stands where its account says. A last batch leaves nothing behind it, and a writer that
has ended has a closed and empty queue. -/
inductive Stands (c : Codec) : Writer → Account → Prop
  | waiting {q : Queue} {done : List Queued} :
    Stands c ⟨q, .waiting⟩ ⟨done, [], q.waiting, 0, false⟩
  | gathering {q : Queue} {ms done : List Queued} :
    Stands c ⟨q, .gathering ms⟩ ⟨done, [], ms ++ q.waiting, 0, false⟩
  | writing {q : Queue} {b : Batch} {done flight : List Queued} (he : b.entries = framed c flight)
    (hl : b.last = true → q.closed = true ∧ q.waiting = []) :
    Stands c ⟨q, .writing b⟩ ⟨done, flight, q.waiting, b.written, false⟩
  | ended {q : Queue} {done : List Queued} (hc : q.closed = true) (hw : q.waiting = []) :
    Stands c ⟨q, .ended (.ok ())⟩ ⟨done, [], [], 0, false⟩
  | failed {q : Queue} {f : Fault} {done flight held : List Queued} {offset : Nat}
    (hc : q.closed = true) (hw : q.waiting = []) :
    Stands c ⟨q, .ended (.error f)⟩ ⟨done, flight, held, offset, true⟩
  | abandoned {q : Queue} {done flight held : List Queued} {offset : Nat}
    (hc : q.closed = true) (hw : q.waiting = []) :
    Stands c ⟨q, .abandoned⟩ ⟨done, flight, held, offset, true⟩

open Writer in
/-- What an event can do to an account, and what is made known then. -/
inductive Move (c : Codec) : Account → Event → List Signal → Account → Prop
  /-- Nothing happens to any message. -/
  | idle {a : Account} {e : Event} (last : Bool) : Move c a e (farewell last) a
  /-- A batch takes messages, and those that cannot be framed are refused. -/
  | start {done ms rest : List Queued} {e : Event} :
    Move c ⟨done, [], ms ++ rest, 0, false⟩ e (refusals c ms) ⟨done, ms, rest, 0, false⟩
  /-- A batch has nothing to write. -/
  | skip {done ms rest : List Queued} {e : Event} {last : Bool} (h : framed c ms = []) :
    Move c ⟨done, [], ms ++ rest, 0, false⟩ e (refusals c ms ++ farewell last)
      ⟨done ++ ms, [], rest, 0, false⟩
  /-- The socket accepts bytes of the batch. -/
  | accept {done flight held : List Queued} {offset n : Nat} :
    Move c ⟨done, flight, held, offset, false⟩ (.wrote n)
      [.sent (((frameBytes c flight).drop offset).take n)]
      ⟨done, flight, held, offset + (((frameBytes c flight).drop offset).take n).length, false⟩
  /-- A batch of which every byte was accepted is flushed. -/
  | complete {done flight held : List Queued} {offset : Nat} {last : Bool}
    (h : (frameBytes c flight).length ≤ offset) :
    Move c ⟨done, flight, held, offset, false⟩ .flushed
      (.active :: successes (framed c flight) ++ farewell last)
      ⟨done ++ flight, [], held, 0, false⟩
  /-- The writer fails. -/
  | lose {done flight held : List Queued} {offset : Nat} {e : Event} :
    Move c ⟨done, flight, held, offset, false⟩ e (drop (framable c flight ++ held))
      ⟨done, flight, held, offset, true⟩

namespace Stands

open Writer

variable {c : Codec} {w : Writer} {a : Account}

theorem failed_eq (h : Stands c w a) : w.hasFailed = a.failed := by
  cases h <;> rfl

theorem of_endedWell (h : Stands c w a) (he : w.endedWell = true) :
    a.flight = [] ∧ a.held = [] ∧ a.failed = false := by
  cases h with
  | ended => exact ⟨rfl, rfl, rfl⟩
  | failed => cases he
  | abandoned => cases he
  | waiting => cases he
  | gathering => cases he
  | writing => cases he

/-- Starting a batch is a move. -/
theorem exists_move_start (w : Writer) (e : Event) (done ms : List Queued) (last : Bool)
    (hl : last = true → w.queue.closed = true ∧ w.queue.waiting = []) :
    ∃ a, Stands c (start c w ms last).1 a ∧
      Move c ⟨done, [], ms ++ w.queue.waiting, 0, false⟩ e (start c w ms last).2 a := by
  by_cases hn : framed c ms = []
  · simp only [start, hn, List.isEmpty_nil, ↓reduceIte]
    refine ⟨_, ?_, .skip hn⟩
    cases last with
    | false => exact .waiting
    | true =>
      obtain ⟨hc, hw⟩ := hl rfl
      rw [hw]
      exact .ended hc hw
  · have hne : (framed c ms).isEmpty = false := by simpa using hn
    simp only [start, hne, Bool.false_eq_true, ↓reduceIte]
    exact ⟨_, .writing rfl hl, .start⟩

/-- Looking for one more message is a move. -/
theorem exists_move_gather (w : Writer) (e : Event) (done ms : List Queued) :
    ∃ a, Stands c (gather c w ms).1 a ∧
      Move c ⟨done, [], ms ++ w.queue.waiting, 0, false⟩ e (gather c w ms).2 a := by
  unfold gather Queue.dequeue?
  cases hq : w.queue.waiting with
  | nil =>
    have := exists_move_start (c := c) w e done ms false (fun h => nomatch h)
    rwa [hq] at this
  | cons m rest =>
    simp only
    split
    · have happ : ms ++ m :: rest = ms ++ [m] ++ rest := by simp
      refine ⟨⟨done, [], ms ++ m :: rest, 0, false⟩, ?_, .idle false⟩
      rw [happ]
      exact .gathering (q := { w.queue with waiting := rest })
    · rw [← hq]
      exact exists_move_start w e done ms false (fun h => nomatch h)

/-- A fault of the socket is a move. -/
theorem exists_move_fail {q : Queue} {b : Batch} {flight : List Queued} (e : Event)
    (done : List Queued) (text : String) (he : b.entries = framed c flight) :
    ∃ a, Stands c (fail ⟨q, .writing b⟩ b text).1 a ∧
      Move c ⟨done, flight, q.waiting, b.written, false⟩ e (fail ⟨q, .writing b⟩ b text).2 a := by
  refine ⟨⟨done, flight, q.waiting, b.written, true⟩, .failed rfl rfl, ?_⟩
  simp only [fail, he, map_framed]
  rw [drop, drop, ← List.map_append]
  exact .lose

/-- **What an event does** to a writer, and what it makes known, is a move of the account. -/
theorem exists_move (h : Stands c w a) (e : Event) :
    ∃ a', Stands c (w.step c e).1 a' ∧ Move c a e (w.step c e).2 a' := by
  cases h with
  | @waiting q done =>
    cases e with
    | wake =>
      simp only [step]
      split
      · next hw =>
        have hw : q.waiting = [] := by simpa using hw
        split
        · exact ⟨_, .waiting, .idle false⟩
        · rw [hw]
          exact ⟨_, .ended rfl rfl, .idle true⟩
      · exact exists_move_gather ⟨q, .waiting⟩ .wake done []
    | closing =>
      have := exists_move_start (c := c) ⟨q.close, .waiting⟩ .closing done q.waiting true
        fun _ => ⟨rfl, rfl⟩
      simpa [step, Queue.close] using this
    | abandon => exact ⟨⟨done, [], q.waiting, 0, true⟩, .abandoned rfl rfl, .lose⟩
    | wrote n => exact ⟨_, .waiting, .idle false⟩
    | failed text => exact ⟨_, .waiting, .idle false⟩
    | flushed => exact ⟨_, .waiting, .idle false⟩
  | @gathering q ms done =>
    cases e with
    | wake => exact exists_move_gather ⟨q, .gathering ms⟩ .wake done ms
    | abandon =>
      refine ⟨⟨done, [], ms ++ q.waiting, 0, true⟩, .abandoned rfl rfl, ?_⟩
      simp only [step]
      rw [drop, drop, ← List.map_append]
      exact .lose
    | closing => exact ⟨_, .gathering, .idle false⟩
    | wrote n => exact ⟨_, .gathering, .idle false⟩
    | failed text => exact ⟨_, .gathering, .idle false⟩
    | flushed => exact ⟨_, .gathering, .idle false⟩
  | @writing q b done flight he hl =>
    have hb : b.bytes = frameBytes c flight := bytes_of_entries he
    cases e with
    | wrote n =>
      simp only [step]
      split
      · exact exists_move_fail _ done _ he
      · rw [Batch.flatten_slices, hb]
        refine ⟨_, .writing (b := b.accept _) he hl, .accept⟩
    | failed text => exact exists_move_fail _ done _ he
    | flushed =>
      simp only [step]
      split
      · next hs =>
        have hdone : (frameBytes c flight).length ≤ b.written := by
          have hlen := Batch.length_flatten_slices b
          rw [List.isEmpty_iff.1 hs, Batch.remaining, hb, List.flatten_nil, List.length_nil] at hlen
          omega
        simp only [complete, he]
        refine ⟨⟨done ++ flight, [], q.waiting, 0, false⟩, ?_, .complete hdone⟩
        cases hlast : b.last with
        | false => exact .waiting (q := q.lower b.releases)
        | true =>
          obtain ⟨hc, hw⟩ := hl hlast
          rw [hw]
          exact .ended hc hw
      · exact ⟨_, .writing he hl, .idle false⟩
    | abandon =>
      refine ⟨⟨done, flight, q.waiting, b.written, true⟩, .abandoned rfl rfl, ?_⟩
      simp only [step, he, map_framed]
      rw [drop, drop, ← List.map_append]
      exact .lose
    | wake => exact ⟨_, .writing he hl, .idle false⟩
    | closing => exact ⟨_, .writing he hl, .idle false⟩
  | ended hc hw => cases e <;> exact ⟨_, .ended hc hw, .idle false⟩
  | failed hc hw => cases e <;> exact ⟨_, .failed hc hw, .idle false⟩
  | abandoned hc hw => cases e <;> exact ⟨_, .abandoned hc hw, .idle false⟩

end Stands

/-! ## The books -/

open Writer in
/-- A report says what an account says. -/
structure Books (c : Codec) (a : Account) (r : Report) : Prop where
  sent : r.sent = frameBytes c a.done ++ (frameBytes c a.flight).take a.offset
  outcomes : r.outcomes.Perm (a.outcomes c)
  completed : r.completed = (framable c a.done).map (·.ticket)
  logged : r.logged = (framable c a.done).map (·.message)

namespace Books

open Writer

variable {c : Codec} {a a' : Account} {r : Report} {ts : List Signal} {e : Event}

theorem empty (c : Codec) : Books c {} {} := ⟨rfl, .refl _, rfl, rfl⟩

/-- Every move keeps the books. -/
theorem move (h : Books c a r) (hm : Move c a e ts a') : Books c a' (r ++ Signal.reports ts) := by
  obtain ⟨hs, ho, hc, hl⟩ := h
  cases hm with
  | idle => exact ⟨by simpa using hs, by simpa using ho, by simpa using hc, by simpa using hl⟩
  | @start done ms =>
    refine ⟨by simpa using hs, ?_, by simpa using hc, by simpa using hl⟩
    rw [Account.outcomes_flight, refused_nil, List.append_nil] at ho
    rw [Account.outcomes_flight, reports_refusals]
    exact ho.append_right _
  | @skip done ms rest _ _ hn =>
    have hbytes : frameBytes c ms = [] := by simp [frameBytes, hn]
    have hframable : framable c ms = [] := by rw [← map_framed, hn, List.map_nil]
    have hms : (refused c ms).Perm (verdicts c ms) := by simpa [hframable] using perm_verdicts c ms
    refine ⟨by simpa [hbytes] using hs, ?_, by simpa [hframable] using hc,
      by simpa [hframable] using hl⟩
    rw [Account.outcomes_flight, refused_nil, List.append_nil] at ho
    simpa [Account.outcomes_flight] using ho.append hms
  | @accept done flight held offset n =>
    refine ⟨?_, ?_, ?_, ?_⟩
    · simp only at hs
      rw [Report.sent_append, hs, List.append_assoc]
      congr 1
      simp [Signal.report, List.take_add]
    · simpa [Signal.report, Account.outcomes_flight] using ho
    · simpa [Signal.report] using hc
    · simpa [Signal.report] using hl
  | @complete done flight held offset last hb =>
    refine ⟨?_, ?_, ?_, ?_⟩
    · simpa [Signal.report, List.take_of_length_le hb] using hs
    · rw [Account.outcomes_flight] at ho ⊢
      have hf := (List.Perm.refl (verdicts c done)).append (perm_verdicts c flight)
      rw [← List.append_assoc] at hf
      simpa [Signal.report] using (ho.append_right _).trans hf
    · simpa [Signal.report] using hc
    · simpa [Signal.report] using hl
  | @lose done flight held =>
    refine ⟨by simpa using hs, ?_, by simpa using hc, by simpa using hl⟩
    rw [Account.outcomes_flight] at ho
    rw [Account.outcomes_failed, reports_drop]
    exact ho.append_right _

/-- What is not taken yet leaves no trace. -/
theorem hold (h : Books c a r) (hf : a.failed = false) (q : Queued) :
    Books c { a with held := a.held ++ [q] } r := by
  obtain ⟨done, flight, held, offset, failed⟩ := a
  cases hf
  exact ⟨h.sent, h.outcomes, h.completed, h.logged⟩

end Books

theorem Move.messages_eq {c : Codec} {a a' : Account} {e : Writer.Event} {ss : List Signal}
    (h : Move c a e ss a') : a'.messages = a.messages := by
  cases h <;> simp [Account.messages]

namespace Stands

open Writer

variable {c : Codec} {w : Writer} {a : Account} {q : Queue}

/-- Where a writer stands depends on what waits and on whether the queue is closed. -/
theorem withQueue (h : Stands c w a) (hw : q.waiting = w.queue.waiting)
    (hc : q.closed = w.queue.closed) : Stands c { w with queue := q } a := by
  cases h with
  | waiting =>
    rw [← hw]
    exact .waiting
  | gathering =>
    rw [← hw]
    exact .gathering
  | writing he hl =>
    rw [← hw]
    exact .writing he fun h => ⟨hc.trans (hl h).1, hw.trans (hl h).2⟩
  | ended h hq => exact .ended (hc.trans h) (hw.trans hq)
  | failed h hq => exact .failed (hc.trans h) (hw.trans hq)
  | abandoned h hq => exact .abandoned (hc.trans h) (hw.trans hq)

/-- A message that an open queue takes is held. -/
theorem enqueue (h : Stands c w a) (ho : w.queue.closed = false) (m : Queued)
    (hw : q.waiting = w.queue.waiting ++ [m]) :
    Stands c { w with queue := q } { a with held := a.held ++ [m] } ∧ a.failed = false := by
  cases h with
  | waiting =>
    refine ⟨?_, rfl⟩
    rw [← hw]
    exact .waiting
  | gathering =>
    refine ⟨?_, rfl⟩
    rw [List.append_assoc, ← hw]
    exact .gathering
  | writing he hl =>
    refine ⟨?_, rfl⟩
    rw [← hw]
    refine .writing he fun h => ?_
    rw [(hl h).1] at ho
    cases ho
  | ended h =>
    rw [h] at ho
    cases ho
  | failed h =>
    rw [h] at ho
    cases ho
  | abandoned h =>
    rw [h] at ho
    cases ho

end Stands

namespace Writer

theorem accepted_start (c : Codec) (w : Writer) (ms : List Queued) (last : Bool) :
    (start c w ms last).1.queue.accepted = w.queue.accepted := by
  unfold start
  simp only
  split <;> rfl

theorem accepted_gather (c : Codec) (w : Writer) (ms : List Queued) :
    (gather c w ms).1.queue.accepted = w.queue.accepted := by
  unfold gather Queue.dequeue?
  cases w.queue.waiting with
  | nil => exact accepted_start ..
  | cons m rest =>
    simp only
    split
    · rfl
    · exact accepted_start ..

/-- No event makes a queue accept a message. -/
theorem accepted_step (c : Codec) (w : Writer) (e : Event) :
    (w.step c e).1.queue.accepted = w.queue.accepted := by
  unfold step
  split
  · split
    · split
      · split <;> rfl
      · exact accepted_gather ..
    · exact accepted_gather ..
    · rfl
  · split
    · exact accepted_start ..
    · rfl
  · split
    · split <;> rfl
    · rfl
  · split <;> rfl
  · split
    · split <;> rfl
    · rfl
  · split <;> rfl

end Writer

/-! ## Runs -/

namespace Outbound

/-- The account of a writer with its history: the messages are those that were accepted, numbered in
their order, the writer stands where the account says, and the books balance. -/
structure Balanced (c : Codec) (o : Outbound) (a : Account) : Prop where
  messages : o.accepted = a.messages
  tickets : o.accepted.map (·.ticket) = List.range o.writer.queue.accepted
  stands : Stands c o.writer a
  books : Books c a o.report

namespace Balanced

variable {c : Codec} {o : Outbound} {a : Account}

theorem new (c : Codec) (bound : Nat) : Balanced c (new bound) {} :=
  ⟨rfl, rfl, .waiting, .empty c⟩

theorem withQueue (h : Balanced c o a) {q : Queue} (hw : q.waiting = o.writer.queue.waiting)
    (hc : q.closed = o.writer.queue.closed) (ha : q.accepted = o.writer.queue.accepted) :
    Balanced c (o.withQueue q) a :=
  ⟨h.messages, h.tickets.trans (by rw [← ha]; rfl), h.stands.withQueue hw hc, h.books⟩

/-- An event of the writer is a move. -/
theorem exists_move (h : Balanced c o a) (e : Writer.Event) :
    ∃ a', Balanced c (o.step c (.writer e)) a' ∧ Move c a e (o.emitted c (.writer e)) a' := by
  obtain ⟨a', hs, hm⟩ := h.stands.exists_move e
  refine ⟨a', ⟨?_, ?_, hs, ?_⟩, hm⟩
  · exact h.messages.trans hm.messages_eq.symm
  · simp only [step, Writer.accepted_step]
    exact h.tickets
  · rw [report, signals_step, Signal.reports_append]
    exact h.books.move hm

/-- An accepted message is held, and one that is refused is not. -/
theorem enqueue (h : Balanced c o a) (m : Message) :
    ∃ ms, Balanced c (o.step c (.enqueue m)) { a with held := a.held ++ ms } := by
  simp only [step]
  split
  · next q ticket hq =>
    unfold Queue.enqueue at hq
    split at hq
    · cases hq
    · next hopen =>
      split at hq
      · cases hq
      · cases hq
        obtain ⟨hs, hf⟩ := h.stands.enqueue (Bool.eq_false_iff.2 hopen)
          ⟨o.writer.queue.accepted, m⟩ (q := { o.writer.queue with
            waiting := o.writer.queue.waiting ++ [⟨o.writer.queue.accepted, m⟩]
            accepted := o.writer.queue.accepted + 1 }) rfl
        refine ⟨_, ?_, ?_, hs, h.books.hold hf _⟩
        · simp [Account.messages, h.messages]
        · rw [List.map_append, h.tickets]
          exact List.range_succ.symm
  · exact ⟨[], by rwa [List.append_nil]⟩

/-- Every step keeps the balance. -/
theorem step (h : Balanced c o a) (x : Action) : ∃ a', Balanced c (o.step c x) a' := by
  cases x with
  | raise => exact ⟨a, h.withQueue rfl rfl rfl⟩
  | enqueue m =>
    obtain ⟨ms, ha⟩ := h.enqueue m
    exact ⟨_, ha⟩
  | lower => exact ⟨a, h.withQueue rfl rfl rfl⟩
  | detach => exact ⟨a, h.withQueue rfl rfl rfl⟩
  | writer e =>
    obtain ⟨a', ha, -⟩ := h.exists_move e
    exact ⟨a', ha⟩

/-- Every run keeps the balance. -/
theorem run (h : Balanced c o a) (xs : List Action) : ∃ a', Balanced c (o.run c xs) a' := by
  induction xs generalizing o a with
  | nil => exact ⟨a, h⟩
  | cons x xs ih =>
    obtain ⟨a', ha⟩ := h.step x
    exact ih ha

end Balanced

/-- **The books balance** after every run. -/
theorem balanced (c : Codec) (bound : Nat) (xs : List Action) :
    ∃ a, Balanced c ((new bound).run c xs) a := (Balanced.new c bound).run xs

end Outbound

end Interchange
