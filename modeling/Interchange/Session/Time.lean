import Interchange.Session.Settle

/-!
# Sessions in time

A connection that reads waits for the time of its next heartbeat, and one that goes down for the
end of its patience. `runUntil` lets time pass from one such moment to the next, and settles the
session at each, until a condition holds or a given time has come.
-/

namespace Interchange.Session

/-! ## The clock stands still while a session settles -/

/-- How one session comes from another without time passing, by what is up with the connection with
a number: something happens to it or does not, and its link changes. -/
def MovesAt (id : Nat) (s t : Session) : Prop :=
  ∃ k f, t = { s with connector := k, links := Numbered.modify id f s.links } ∧
    (k = s.connector ∨ ∃ e, k = s.connector.step id s.now e) ∧ ∀ l : Link, l.id = id → (f l).id = id

/-- How one session comes from another without time passing: something happens to one connection or
to none, and one link changes. -/
def Moves (s t : Session) : Prop := ∃ id, MovesAt id s t

theorem id_next? (closing : Bool) (w : Writer) (l : Link) :
    (Writer.next? Link.socket closing w l).2.id = l.id := by
  unfold Writer.next?
  split
  · split
    · rfl
    · split <;> rfl
  · rfl
  · split
    · rfl
    · simp only [Link.socket, Link.write]
      split
      · rfl
      · split <;> rfl
  · rfl

section

variable {s t : Session} {c : Connection} {l : Link}

theorem moves_updateLink {f : Link → Link} (id : Nat) (hf : ∀ l : Link, l.id = id → (f l).id = id) :
    MovesAt id s (s.updateLink id f) :=
  ⟨s.connector, f, rfl, .inl rfl, hf⟩

theorem moves_writes? (hl : l.id = c.id) (h : s.writes? c l = some t) :
    MovesAt c.id s t := by
  unfold writes? at h
  split at h
  · cases h
  · next e l' hn =>
    have hid : l'.id = c.id := by
      have := id_next? c.state.isClosing c.writer l
      rw [hn] at this
      exact this.trans hl
    refine ⟨_, _, (Option.some.inj h).symm, .inr ⟨_, rfl⟩, fun _ _ => ?_⟩
    split <;> exact hid

theorem moves_reads? (hl : l.id = c.id) (h : s.reads? c l = some t) :
    MovesAt c.id s t := by
  unfold reads? at h
  split at h
  · exact ⟨_, _, (Option.some.inj h).symm, .inr ⟨_, rfl⟩, fun _ _ => hl⟩
  · split at h
    · cases h
    · next e _ =>
      refine ⟨s.connector.step c.id s.now e, id, ?_, .inr ⟨_, rfl⟩, fun _ h => h⟩
      rw [Numbered.modify_id]
      exact (Option.some.inj h).symm

theorem moves_peerReads? (hl : l.id = c.id) (h : s.peerReads? c l = some t) :
    MovesAt c.id s t := by
  unfold peerReads? at h
  split at h
  · cases h
  · split at h
    · cases h
      exact moves_updateLink c.id fun _ _ => hl
    · split at h <;> cases h
      exact moves_updateLink c.id fun _ _ => hl

theorem moves_peerWrites? (hl : l.id = c.id) (h : s.peerWrites? c l = some t) :
    MovesAt c.id s t := by
  unfold peerWrites? at h
  split at h <;> cases h
  exact moves_updateLink c.id fun _ _ => hl

theorem moves_advanceAt? {id : Nat} (h : s.advanceAt? id = some t) : MovesAt id s t := by
  unfold advanceAt? at h
  split at h
  · next c l hc hl =>
    have hid : c.id = id := Numbered.number_of_get? hc
    have hlink : l.id = c.id := (Numbered.number_of_get? hl).trans hid.symm
    rw [← hid]
    simp only [Option.orElse_eq_or, Option.or_eq_some_iff] at h
    rcases h with (h | ⟨-, h⟩) | ⟨-, h | ⟨-, h⟩⟩
    · exact moves_writes? hlink h
    · exact moves_reads? hlink h
    · exact moves_peerReads? hlink h
    · exact moves_peerWrites? hlink h
  · cases h

/-- **What a session does** without time passing. -/
theorem moves_advance? (h : s.advance? = some t) : s.Moves t := by
  obtain ⟨l, -, h⟩ := List.exists_of_findSome?_eq_some h
  exact ⟨l.id, moves_advanceAt? h⟩

theorem Moves.now (h : s.Moves t) : t.now = s.now := by
  obtain ⟨_, _, _, rfl, -⟩ := h
  rfl

end

theorem now_settle (s : Session) : s.settle.now = s.now := by
  fun_induction settle s with
  | case1 => rfl
  | case2 s t h ih => rw [ih, (moves_advance? h).now]

/-! ## Timers -/

/-- When a connection next waits for the time, never before the next millisecond. -/
def timer? (s : Session) (c : Connection) : Option Nat :=
  match c.reader with
  | .reading => s.connector.window?.map fun w => max (c.activity.deadline w) (s.now + 1)
  | .draining since => some (max (since + Connection.drainLimit) (s.now + 1))
  | .ended => none

/-- When any connection next waits for the time. -/
def nextTimer? (s : Session) : Option Nat := (s.connector.connections.filterMap s.timer?).min?

theorem now_lt_nextTimer? {s : Session} {t : Nat} (h : s.nextTimer? = some t) : s.now < t := by
  have hm := List.min?_mem h
  obtain ⟨c, -, hc⟩ := List.mem_filterMap.1 hm
  unfold timer? at hc
  split at hc
  · obtain ⟨w, -, rfl⟩ := Option.map_eq_some_iff.1 hc
    omega
  · cases hc
    omega
  · cases hc

/-- Let every connection whose time has come do what it waited for. -/
def fire (s : Session) : Session :=
  { s with
    connector := s.connector.connections.foldl
      (fun k c => (k.step c.id s.now .alarm).step c.id s.now .gaveUp) s.connector }

/-- Set the clock, and let happen what this brings about. -/
def tick (s : Session) (t : Nat) : Session := ({ s with now := t }).fire.settle

theorem now_tick (s : Session) (t : Nat) : (s.tick t).now = t := now_settle _

/-- Let time pass until a condition holds, at most to a given time: whether the condition held
before that time, and the session then. -/
def runUntil (holds : Session → Bool) (target : Nat) (s : Session) : Bool × Session :=
  if holds s then (true, s)
  else
    match _h : s.nextTimer? with
    | none => (false, s.tick (max target s.now))
    | some t =>
      if t < target then runUntil holds target (s.tick t)
      else (false, s.tick (max target s.now))
termination_by target - s.now
decreasing_by
  rw [now_tick]
  have := now_lt_nextTimer? _h
  omega

/-- Let time pass. -/
def sleep (s : Session) (ms : Nat) : Session := (s.runUntil (fun _ => false) (s.now + ms)).2

/-! ## Waiting for something -/

/-- What became of an accepted message. -/
def outcome? (s : Session) (id ticket : Nat) : Option (Except Fault Unit) :=
  s.connector.history.findSome? fun
    | .resolved i t r => if i = id ∧ t = ticket then some r else none
    | _ => none

/-- Queue a message on a connection: its ticket, or why it is refused. -/
def send (s : Session) (id : Nat) (m : Message) : Session × Except Fault Nat :=
  let (connector, r) := s.connector.send id m
  ({ s with connector }, r)

/-- Wait for a condition, at most `ms` milliseconds: whether it held before they were over. Without
any time nothing more can happen. -/
def await (holds : Session → Bool) (ms : Nat) (s : Session) : Bool × Session :=
  if holds s then (true, s)
  else if ms = 0 then (false, s)
  else s.settle.runUntil holds (s.now + ms)

/-- Queue a message and wait until it was written, at most `ms` milliseconds. -/
def sendAndWait (s : Session) (id : Nat) (m : Message) (ms : Nat) : Session × Except Fault Unit :=
  match s.send id m with
  | (s, .error f) => (s, .error f)
  | (s, .ok ticket) =>
    match s.await (fun s => (s.outcome? id ticket).isSome) ms with
    | (true, s) => (s, (s.outcome? id ticket).getD (.ok ()))
    | (false, s) => (s, .error .timeout)

/-- Begin to close a connection. -/
def close (s : Session) (id : Nat) : Session := { s with connector := s.connector.close id }

/-- Whether a connection is gone. -/
def isGone (id : Nat) (s : Session) : Bool :=
  match s.connector.connection? id with
  | some c => c.state = .disconnected
  | none => true

/-- Begin to close a connection and wait until it is gone, at most `ms` milliseconds. -/
def closeAndWait (s : Session) (id ms : Nat) : Session × Except Fault Unit :=
  match (s.close id).await (isGone id) ms with
  | (true, s) => (s, .ok ())
  | (false, s) => (s, .error .timeout)

end Interchange.Session
