import Interchange.Outbound.Writer

/-!
# Senders and a writer, step by step

Any number of senders and one writer share a queue. An `Action` is one indivisible step of any of
them, and a run is any list of actions: every order in which the steps of senders and of the writer
can fall, against every socket. A send is `raise`, then `enqueue`, and `lower` where it is refused,
with the steps of others in between.

`Outbound` keeps beside the writer what was accepted and what the writer made known, and a `Report`
says what the latter comes to. `run_send` says that an undisturbed send is such
steps, and `exists_events_run` that a writer on a socket takes no others.
-/

namespace Interchange

/-! ## What the signals of a writer say -/

/-- What signals say together. -/
structure Report where
  /-- The bytes that the socket accepted. -/
  sent : List UInt8 := []
  /-- What became of accepted messages, by ticket. -/
  outcomes : List (Nat × Except Fault Unit) := []
  /-- The messages that were logged. -/
  logged : List Message := []

namespace Report

/-- The tickets of the messages that succeeded. -/
def completed (r : Report) : List Nat :=
  r.outcomes.filterMap fun (ticket, outcome) =>
    match outcome with
    | .ok () => some ticket
    | .error _ => none

/-- One report after another. -/
def append (r t : Report) : Report :=
  ⟨r.sent ++ t.sent, r.outcomes ++ t.outcomes, r.logged ++ t.logged⟩

instance : Append Report := ⟨append⟩

section

variable (r t u : Report)

@[simp] theorem sent_append : (r ++ t).sent = r.sent ++ t.sent := rfl

@[simp] theorem outcomes_append : (r ++ t).outcomes = r.outcomes ++ t.outcomes := rfl

@[simp] theorem completed_nil (bytes : List UInt8) (ms : List Message) :
    completed ⟨bytes, [], ms⟩ = [] := rfl

@[simp] theorem completed_append : (r ++ t).completed = r.completed ++ t.completed :=
  List.filterMap_append ..

@[simp] theorem logged_append : (r ++ t).logged = r.logged ++ t.logged := rfl

@[simp] theorem append_empty : r ++ ({} : Report) = r := by
  show append r {} = r
  simp [append]

theorem append_assoc : (r ++ t) ++ u = r ++ (t ++ u) := by
  show append (append r t) u = append r (append t u)
  simp [append]

end

end Report

namespace Signal

/-- What a signal says. -/
def report : Signal → Report
  | .sent bytes => { sent := bytes }
  | .active => {}
  | .logged m => { logged := [m] }
  | .resolved ticket outcome => { outcomes := [(ticket, outcome)] }
  | .shut => {}

/-- What signals say together. -/
def reports (ss : List Signal) : Report := ss.foldr (fun s r => s.report ++ r) {}

@[simp] theorem reports_nil : reports [] = {} := rfl

@[simp] theorem reports_cons (s : Signal) (ss : List Signal) :
    reports (s :: ss) = s.report ++ reports ss := rfl

@[simp] theorem reports_append (ss ts : List Signal) :
    reports (ss ++ ts) = reports ss ++ reports ts := by
  induction ss with
  | nil => rfl
  | cons s ss ih => rw [List.cons_append, reports_cons, ih, reports_cons, Report.append_assoc]

end Signal

/-! ## A writer that goes on -/

namespace Writer

section

variable {σ : Type} {c : Codec} {sock : Socket σ} {closing : Bool} {w v : Writer} {s t : σ}
  {ss : List Signal}

theorem run_of_none (h : advance? c sock closing w s = none) :
    run c sock closing w s = (w, s, []) := by
  rw [run]
  split
  · rfl
  · next h' => rw [h] at h'; cases h'

theorem run_of_some (h : advance? c sock closing w s = some (v, t, ss)) :
    run c sock closing w s =
      ((run c sock closing v t).1, (run c sock closing v t).2.1,
        ss ++ (run c sock closing v t).2.2) := by
  rw [run]
  split
  · next h' => rw [h] at h'; cases h'
  · next h' =>
    rw [h] at h'
    cases h'
    rfl

/-- What a writer does on a socket is what an event makes it do. -/
theorem exists_event_of_advance? (h : advance? c sock closing w s = some (v, t, ss)) :
    ∃ e, v = (w.step c e).1 ∧ ss = (w.step c e).2 := by
  unfold advance? at h
  split at h
  · cases h
  · next e _ _ =>
    cases h
    exact ⟨e, rfl, rfl⟩

end

end Writer

/-! ## Actions -/

/-- An indivisible step around a queue. -/
inductive Action where
  /-- A sender counts its message. -/
  | raise
  /-- A sender puts its message into the queue, or is refused. -/
  | enqueue (m : Message)
  /-- A sender that was refused takes its count back. -/
  | lower
  /-- The last sender goes. -/
  | detach
  /-- Something happens to the writer. -/
  | writer (e : Writer.Event)

/-- A writer with its history. -/
structure Outbound where
  /-- The writer and its queue. -/
  writer : Writer
  /-- The messages that were accepted, in their order. -/
  accepted : List Queued := []
  /-- What the writer made known. -/
  signals : List Signal := []

namespace Outbound

/-- A new writer with a bound on its queue. -/
def new (bound : Nat) : Outbound := { writer := .new bound }

/-- The same writer with another queue. -/
def withQueue (o : Outbound) (q : Queue) : Outbound :=
  { o with writer := { o.writer with queue := q } }

/-- What the writer made known, taken together. -/
def report (o : Outbound) : Report := Signal.reports o.signals

/-- What the writer makes known in a step. -/
def emitted (c : Codec) (o : Outbound) : Action → List Signal
  | .writer e => (o.writer.step c e).2
  | _ => []

/-- Take a step. -/
def step (c : Codec) (o : Outbound) (a : Action) : Outbound :=
  match a with
  | .raise => o.withQueue o.writer.queue.raise
  | .enqueue m =>
    match o.writer.queue.enqueue m with
    | .ok (q, ticket) => { o.withQueue q with accepted := o.accepted ++ [⟨ticket, m⟩] }
    | .error _ => o
  | .lower => o.withQueue (o.writer.queue.lower 1)
  | .detach => o.withQueue o.writer.queue.detach
  | .writer e =>
    { o with writer := (o.writer.step c e).1, signals := o.signals ++ (o.writer.step c e).2 }

/-- Take steps one after the other. -/
def run (c : Codec) (o : Outbound) (as : List Action) : Outbound := as.foldl (step c) o

@[simp] theorem run_nil (c : Codec) (o : Outbound) : o.run c [] = o := rfl

@[simp] theorem run_cons (c : Codec) (o : Outbound) (a : Action) (as : List Action) :
    o.run c (a :: as) = (o.step c a).run c as := rfl

theorem signals_step (c : Codec) (o : Outbound) (a : Action) :
    (o.step c a).signals = o.signals ++ o.emitted c a := by
  cases a with
  | enqueue m =>
    simp only [step, emitted, List.append_nil]
    split <;> rfl
  | writer e => rfl
  | raise => simp [step, emitted, withQueue]
  | lower => simp [step, emitted, withQueue]
  | detach => simp [step, emitted, withQueue]

/-- The steps of a send that nobody comes between. -/
def sendSteps (o : Outbound) (m : Message) : List Action :=
  if o.writer.queue.closed then []
  else if o.writer.queue.isFull then [.raise, .enqueue m, .lower]
  else [.raise, .enqueue m]

/-- **A send that nobody comes between** leaves the queue as sending does, and its message is
accepted when it gets a ticket. -/
theorem run_send (c : Codec) (o : Outbound) (m : Message) :
    o.run c (o.sendSteps m) =
      { o.withQueue (o.writer.queue.trySend m).1 with
        accepted := o.accepted ++
          match (o.writer.queue.trySend m).2 with
          | .ok ticket => [⟨ticket, m⟩]
          | .error _ => [] } := by
  by_cases hc : o.writer.queue.closed
  · simp [sendSteps, Queue.trySend, hc, withQueue]
  · by_cases hf : o.writer.queue.isFull
    · have he : o.writer.queue.raise.enqueue m = .error .notWritable := by
        have hf' : o.writer.queue.raise.isFull := hf
        have hc' : o.writer.queue.raise.closed = false := Bool.eq_false_iff.2 hc
        simp [Queue.enqueue, hf', hc']
      simp [sendSteps, Queue.trySend, hc, hf, step, withQueue, he]
    · have he : o.writer.queue.raise.enqueue m = .ok ({ o.writer.queue.raise with
          waiting := o.writer.queue.waiting ++ [⟨o.writer.queue.accepted, m⟩]
          accepted := o.writer.queue.accepted + 1 }, o.writer.queue.accepted) := by
        have hf' : o.writer.queue.raise.isFull = false := Bool.eq_false_iff.2 hf
        have hc' : o.writer.queue.raise.closed = false := Bool.eq_false_iff.2 hc
        simp only [Queue.enqueue, hf', hc', Bool.false_eq_true, ↓reduceIte]
        rfl
      simp [sendSteps, Queue.trySend, hc, hf, step, withQueue, he]

/-- **A writer on a socket takes the steps of a writer and no others.** -/
theorem exists_events_run {σ : Type} (c : Codec) (sock : Writer.Socket σ) (closing : Bool)
    (o : Outbound) (s : σ) :
    ∃ es : List Writer.Event, o.run c (es.map .writer) =
      { o with
        writer := (o.writer.run c sock closing s).1
        signals := o.signals ++ (o.writer.run c sock closing s).2.2 } := by
  suffices h : ∀ w, ∀ o : Outbound, o.writer = w → ∃ es : List Writer.Event,
      o.run c (es.map .writer) =
        { o with
          writer := (w.run c sock closing s).1
          signals := o.signals ++ (w.run c sock closing s).2.2 } from h _ o rfl
  intro w
  induction w, s using Writer.run.induct c sock closing with
  | case1 w s h =>
    rintro o rfl
    exact ⟨[], by simp [Writer.run_of_none h]⟩
  | case2 w s v t ss h v' t' more hrun ih =>
    rintro o rfl
    obtain ⟨e, hv, hss⟩ := Writer.exists_event_of_advance? h
    obtain ⟨es, hes⟩ := ih (o.step c (.writer e)) hv.symm
    refine ⟨e :: es, ?_⟩
    rw [List.map_cons, run_cons, hes, Writer.run_of_some h]
    simp [step, hss]

end Outbound

end Interchange
