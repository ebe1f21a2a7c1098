import Interchange.Reconnect
import Mathlib.Data.List.DropRight
import Mathlib.Data.List.Induction

/-!
# What the controller of a client answers

`Law` says what the controller of a client's connection attempts answers after any calls, in terms
of these calls and their answers alone: when a new connection may be used, when a close schedules an
attempt, and when an attempt begins. `lawful` says that it holds after all calls of every kind and
in any order.

A call `counts` if it is a request or is answered with yes. `Reflects` is the invariant: the phase
is that of the last call that counted, and the two marks are read off the phase, but for the mark of
an attempt that a disconnect overtook, which may stand until the next call that clears it.
-/

namespace Interchange.Reconnect

/-- A call and its answer. -/
abbrev Answered := Call × Option Bool

/-- The controller after calls one after the other. -/
def run (r : Reconnect) (cs : List Call) : Reconnect := cs.foldl (fun r c => (r.perform c).1) r

/-- Calls one after the other, with their answers. -/
def trace (r : Reconnect) : List Call → List Answered
  | [] => []
  | c :: cs => (c, (r.perform c).2) :: trace (r.perform c).1 cs

/-- Whether a call counts: requests do, and all others that are answered with yes. -/
def counts : Answered → Bool
  | (.requestConnect, _) => true
  | (.requestDisconnect, _) => true
  | (_, answer) => answer = some true

/-- A close that schedules an attempt. -/
def scheduling : Answered := (.onClosed, some true)

/-- An attempt that begins. -/
def beginning : Answered := (.beginAttempt, some true)

/-- The last call that counted. -/
def lastCounted? (es : List Answered) : Option Answered := (es.filter counts).getLast?

/-- The calls since the last request to connect, or since the start. -/
def sinceConnect (cs : List Call) : List Call := cs.rtakeWhile (· ≠ .requestConnect)

/-- What the controller answers after calls, and what its attempts have to do with each other. -/
structure Law (cs : List Call) : Prop where
  /-- A disconnect is in effect in the phase that says so, and in no other. -/
  disconnecting : (initial.run cs).disconnecting = true ↔
    (initial.run cs).phase = .disconnectRequested
  /-- The phase says that an attempt is scheduled if one is and no disconnect is in effect. -/
  reconnecting : (initial.run cs).phase = .reconnecting ↔
    (initial.run cs).pending = true ∧ (initial.run cs).disconnecting = false
  /-- A new connection may be used unless a disconnect was asked for since the last request to
  connect, or since the start. -/
  connected : ((initial.run cs).perform .onConnected).2 = some true ↔
    .requestDisconnect ∉ sinceConnect cs
  /-- A close schedules an attempt unless a disconnect is in effect or one is scheduled. -/
  closed : ((initial.run cs).perform .onClosed).2 = some true ↔
    (initial.run cs).disconnecting = false ∧ (initial.run cs).phase ≠ .reconnecting
  /-- An attempt begins if the last call that counted scheduled it. -/
  begins : ((initial.run cs).perform .beginAttempt).2 = some true ↔
    lastCounted? (initial.trace cs) = some scheduling
  /-- Each attempt that began was scheduled, and nothing that counts came in between. -/
  scheduled : ∀ before after, initial.trace cs = before ++ beginning :: after →
    ∃ earlier between, before = earlier ++ scheduling :: between ∧
      ∀ e ∈ between, counts e = false
  /-- From a close that schedules an attempt to the next one, at most one attempt begins, and only
  before any request. -/
  once : ∀ before between after,
    initial.trace cs = before ++ scheduling :: (between ++ beginning :: after) →
      scheduling ∉ between → ∀ e ∈ between, counts e = false

variable {r : Reconnect} {cs : List Call} {es : List Answered}

/-! ## Calls one after the other -/

theorem run_concat (r : Reconnect) (cs : List Call) (c : Call) :
    r.run (cs ++ [c]) = ((r.run cs).perform c).1 := by
  simp [run]

theorem trace_append (r : Reconnect) (cs ds : List Call) :
    r.trace (cs ++ ds) = r.trace cs ++ (r.run cs).trace ds := by
  induction cs generalizing r with
  | nil => rfl
  | cons c cs ih => simp [trace, ih, run]

theorem trace_concat (r : Reconnect) (cs : List Call) (c : Call) :
    r.trace (cs ++ [c]) = r.trace cs ++ [(c, ((r.run cs).perform c).2)] :=
  trace_append r cs [c]

/-- A part of a trace is the trace of a part of the calls. -/
theorem exists_of_trace_eq_append {e : Answered} {before after : List Answered}
    (h : r.trace cs = before ++ e :: after) : ∃ earlier c later, cs = earlier ++ c :: later ∧
      r.trace earlier = before ∧ e = (c, ((r.run earlier).perform c).2) := by
  induction cs generalizing r before with
  | nil => simp [trace] at h
  | cons c cs ih =>
    cases before with
    | nil =>
      obtain ⟨rfl, -⟩ := List.cons.inj h
      exact ⟨[], c, cs, rfl, rfl, rfl⟩
    | cons e' before =>
      obtain ⟨rfl, htail⟩ := List.cons.inj h
      obtain ⟨earlier, d, later, rfl, rfl, rfl⟩ := ih htail
      exact ⟨c :: earlier, d, later, rfl, rfl, rfl⟩

/-! ## Calls that count -/

theorem lastCounted?_concat (es : List Answered) (e : Answered) :
    lastCounted? (es ++ [e]) = if counts e then some e else lastCounted? es := by
  unfold lastCounted?
  split
  · next h => simp [h]
  · next h => simp [h]

/-- The last call that counted stands in the trace, and nothing after it counts. -/
theorem exists_of_lastCounted? {e : Answered} (h : lastCounted? es = some e) :
    ∃ before after, es = before ++ e :: after ∧ ∀ x ∈ after, counts x = false := by
  induction es using List.reverseRecOn with
  | nil => cases h
  | append_singleton es x ih =>
    rw [lastCounted?_concat] at h
    split at h
    · cases h
      exact ⟨es, [], rfl, List.forall_mem_nil _⟩
    · next hx =>
      obtain ⟨before, after, rfl, hafter⟩ := ih h
      refine ⟨before, after ++ [x], by simp, fun y hy => ?_⟩
      rcases List.mem_append.1 hy with hy | hy
      · exact hafter y hy
      · rw [List.mem_singleton.1 hy]
        exact Bool.eq_false_iff.2 hx

/-- What counts after a call ends with the last call that counted. -/
theorem mem_of_lastCounted? {e x : Answered} {before after : List Answered}
    (h : lastCounted? (before ++ after) = some e) (hx : x ∈ after) (hc : counts x = true) :
    e ∈ after := by
  have hne : after.filter counts ≠ [] := List.ne_nil_of_mem (List.mem_filter.2 ⟨hx, hc⟩)
  rw [lastCounted?, List.filter_append, List.getLast?_append_of_ne_nil _ hne] at h
  exact (List.mem_filter.1 (List.mem_of_getLast? h)).1

/-! ## One call -/

/-- The phase that a call leads to when it counts. -/
def Call.phase : Call → Phase
  | requestConnect => .connecting
  | onConnected => .connected
  | onClosed => .reconnecting
  | beginAttempt => .connecting
  | requestDisconnect => .disconnectRequested

/-- A call that counts leads to its phase, and every other leaves the phase as it is. -/
theorem phase_perform (r : Reconnect) (c : Call) :
    (r.perform c).1.phase = if counts (c, (r.perform c).2) then c.phase else r.phase := by
  cases c with
  | requestConnect => rfl
  | requestDisconnect => rfl
  | onConnected =>
    simp only [perform, onConnected]
    split <;> rfl
  | onClosed =>
    simp only [perform, onClosed]
    split <;> rfl
  | beginAttempt =>
    simp only [perform, beginAttempt]
    split <;> rfl

/-- Only the two requests change whether a disconnect is in effect. -/
theorem disconnecting_perform (r : Reconnect) (c : Call) : (r.perform c).1.disconnecting =
    (c = .requestDisconnect ∨ c ≠ .requestConnect ∧ r.disconnecting = true) := by
  cases c with
  | requestConnect => simp [perform, requestConnect]
  | requestDisconnect => simp [perform, requestDisconnect]
  | onConnected =>
    simp only [perform, onConnected]
    split <;> simp_all
  | onClosed =>
    simp only [perform, onClosed]
    split <;> simp_all
  | beginAttempt =>
    simp only [perform, beginAttempt]
    split <;> simp_all

theorem sinceConnect_concat (cs : List Call) (c : Call) :
    sinceConnect (cs ++ [c]) = if c = .requestConnect then [] else sinceConnect cs ++ [c] := by
  unfold sinceConnect
  rw [List.rtakeWhile_concat]
  cases c <;> rfl

/-- A disconnect is in effect if one was asked for since the last request to connect. -/
theorem disconnecting_run (cs : List Call) :
    (initial.run cs).disconnecting = true ↔ .requestDisconnect ∈ sinceConnect cs := by
  induction cs using List.reverseRecOn with
  | nil => simp [run, initial, sinceConnect]
  | append_singleton cs c ih =>
    rw [run_concat, disconnecting_perform, ih, sinceConnect_concat]
    cases c <;> simp

/-! ## What the controller remembers -/

/-- What a controller remembers of the calls and answers so far. -/
structure Reflects (r : Reconnect) (es : List Answered) : Prop where
  /-- The phase is that of the last call that counted. -/
  phase : r.phase = (lastCounted? es).elim .idle fun e => e.1.phase
  /-- A disconnect is in effect in the phase that says so, and in no other. -/
  disconnecting : r.disconnecting = true ↔ r.phase = .disconnectRequested
  /-- The phase says that an attempt is scheduled if one is and no disconnect is in effect. -/
  reconnecting : r.phase = .reconnecting ↔ r.pending = true ∧ r.disconnecting = false

namespace Reflects

theorem initial : initial.Reflects [] := ⟨rfl, by decide, by decide⟩

/-- A close schedules an attempt unless a disconnect is in effect or one is scheduled. -/
theorem onClosed (h : r.Reflects es) :
    r.onClosed.2 = true ↔ r.disconnecting = false ∧ r.phase ≠ .reconnecting := by
  rw [ne_eq, h.reconnecting, Reconnect.onClosed]
  cases r.disconnecting <;> cases r.pending <;> simp

/-- An attempt begins in the phase that says that it is scheduled. -/
theorem beginAttempt (h : r.Reflects es) : r.beginAttempt.2 = true ↔ r.phase = .reconnecting := by
  have := h.reconnecting
  unfold Reconnect.beginAttempt
  split <;> simp_all

/-- In that phase the last call that counted is the close that scheduled the attempt. -/
theorem phase_eq_reconnecting (h : r.Reflects es) :
    r.phase = .reconnecting ↔ lastCounted? es = some scheduling := by
  rw [h.phase]
  cases hlast : lastCounted? es with
  | none => simp
  | some e =>
    obtain ⟨c, answer⟩ := e
    have hcounts : counts (c, answer) = true :=
      (List.mem_filter.1 (List.mem_of_getLast? hlast)).2
    cases c <;> simp_all [Call.phase, counts, scheduling]

/-- **What a call does to what is remembered.** -/
theorem perform (h : r.Reflects es) (c : Call) :
    (r.perform c).1.Reflects (es ++ [(c, (r.perform c).2)]) := by
  have hphase : (r.perform c).1.phase =
      (lastCounted? (es ++ [(c, (r.perform c).2)])).elim .idle fun e => e.1.phase := by
    rw [phase_perform, lastCounted?_concat, h.phase]
    split <;> rfl
  obtain ⟨-, hd, hr⟩ := h
  -- The marks follow from the marks before, call by call.
  suffices hmarks : ((r.perform c).1.disconnecting = true ↔
      (r.perform c).1.phase = .disconnectRequested) ∧ ((r.perform c).1.phase = .reconnecting ↔
      (r.perform c).1.pending = true ∧ (r.perform c).1.disconnecting = false) from
    ⟨hphase, hmarks.1, hmarks.2⟩
  cases c with
  | requestConnect => simp [Reconnect.perform, requestConnect]
  | requestDisconnect => simp [Reconnect.perform, requestDisconnect]
  | onConnected =>
    simp only [Reconnect.perform, Reconnect.onConnected]
    split
    · exact ⟨hd, hr⟩
    · simp
  | onClosed =>
    simp only [Reconnect.perform, Reconnect.onClosed]
    split
    · exact ⟨hd, hr⟩
    · next h => simp_all
  | beginAttempt =>
    simp only [Reconnect.perform, Reconnect.beginAttempt]
    split <;> simp_all

end Reflects

theorem reflects_run (cs : List Call) : (initial.run cs).Reflects (initial.trace cs) := by
  induction cs using List.reverseRecOn with
  | nil => exact .initial
  | append_singleton cs c ih =>
    rw [run_concat, trace_concat]
    exact ih.perform c

/-- An attempt begins if the last call that counted scheduled it. -/
theorem begins_iff (cs : List Call) : ((initial.run cs).perform .beginAttempt).2 = some true ↔
    lastCounted? (initial.trace cs) = some scheduling := by
  have h := reflects_run cs
  rw [← h.phase_eq_reconnecting, ← h.beginAttempt]
  simp [perform]

/-- Before an attempt that began, the last call that counted scheduled it. -/
theorem lastCounted?_of_beginning {before after : List Answered}
    (h : initial.trace cs = before ++ beginning :: after) :
    lastCounted? before = some scheduling := by
  obtain ⟨earlier, c, later, rfl, rfl, hc⟩ := exists_of_trace_eq_append h
  obtain ⟨rfl, hanswer⟩ := Prod.mk.inj hc
  exact (begins_iff earlier).1 hanswer.symm

/-- **What a controller answers**, after any calls. -/
theorem lawful (cs : List Call) : Law cs where
  disconnecting := (reflects_run cs).disconnecting
  reconnecting := (reflects_run cs).reconnecting
  connected := by
    rw [← disconnecting_run]
    simp only [perform, onConnected]
    split <;> simp_all
  closed := by
    rw [← (reflects_run cs).onClosed]
    simp [perform]
  begins := begins_iff cs
  scheduled before after h := exists_of_lastCounted? (lastCounted?_of_beginning h)
  once before between after h hnone e he := by
    rw [← List.cons_append, ← List.append_assoc] at h
    have hlast := lastCounted?_of_beginning h
    rw [List.append_cons] at hlast
    by_contra hcounts
    exact hnone (mem_of_lastCounted? hlast he (eq_true_of_ne_false hcounts))

end Interchange.Reconnect
