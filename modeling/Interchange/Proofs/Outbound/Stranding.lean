import Interchange.Proofs.Outbound.Senders

/-!
# What a writer that has stopped leaves counted

A batch is released when it is done, whether the socket took it or failed, and so is what the writer
takes from a closed queue before it ends. What waits in an open queue when the socket fails is
dropped with the queue, and nobody releases it: `pending_of_stopped` says that the counter of a
stopped writer stands for these messages and no others.
-/

namespace Interchange

open Writer

namespace Crowd

variable {bound : Nat} {w : Writer} {s : Crowd}

/-- Whether the writer's task has ended and let go of the queue. -/
def hasStopped (s : Crowd) : Bool := s.writer.isEnded && s.queue.closed

/-- A closed queue holds nothing when its task has ended. -/
theorem waiting_eq_nil (h : w.Tidy) (hended : w.isEnded = true) (hc : w.queue.closed = true) :
    w.queue.waiting = [] := by
  unfold Tidy at h
  unfold isEnded at hended
  split at hended
  · next r hp =>
    rw [hp] at h
    cases r with
    | ok => exact h.2
    | error f => exact h hc
  · next hp =>
    rw [hp] at h
    exact h.2
  · cases hended

theorem inFlight_of_isEnded (h : w.isEnded = true) : w.inFlight = 0 := by
  unfold isEnded at h
  unfold inFlight
  split at h
  · next hp => rw [hp]
  · next hp => rw [hp]
  · cases h

/-- A stopped writer has nothing that waits or is in flight. -/
theorem Ledger.pending_of_hasStopped {k : Nat} (h : Ledger bound k s) (hs : s.hasStopped = true) :
    s.queue.pending = s.midway + k := by
  obtain ⟨hended, hclosed⟩ := Bool.and_eq_true_iff.1 hs
  have hbal := h.balance
  have hempty : s.queue.waiting = [] := waiting_eq_nil h.tidy hended hclosed
  rw [hempty, inFlight_of_isEnded hended] at hbal
  simpa using hbal

/-- A writer that has ended well has stopped. -/
theorem hasStopped_of_endedWell (h : s.writer.Tidy) (hw : s.writer.endedWell = true) :
    s.hasStopped = true := by
  unfold endedWell at hw
  split at hw
  · next hp =>
    unfold Tidy at h
    rw [hp] at h
    simp only [hasStopped, queue, isEnded, hp, h.1, Bool.and_self]
  · cases hw

/-- A task that lets go of a closed queue leaves nothing. -/
theorem strands_wake (h : s.writer.Tidy) (hc : s.queue.closed = true) :
    s.strands (.writer .wake) = 0 := by
  cases hp : s.writer.phase with
  | ended r =>
    have hempty := waiting_eq_nil h (by simp [isEnded, hp]) hc
    simp [strands, Writer.strands, hp, hempty]
  | _ => simp [strands, Writer.strands, hp]

/-- Nothing is left in a run if no event leaves anything. -/
theorem stranded_eq_zero_iff (c : Codec) (s : Crowd) (es : List Event) :
    stranded c s es = 0 ↔
      ∀ before e after, es = before ++ e :: after → (s.run c before).strands e = 0 := by
  induction es generalizing s with
  | nil => simp [stranded]
  | cons e es ih =>
    rw [stranded, Nat.add_eq_zero_iff, ih]
    constructor
    · rintro ⟨hfirst, hrest⟩ before e' after he
      cases before with
      | nil =>
        obtain ⟨rfl, rfl⟩ := List.cons.inj he
        exact hfirst
      | cons e'' before =>
        obtain ⟨rfl, rfl⟩ := List.cons.inj he
        exact hrest before e' after rfl
    · intro hall
      exact ⟨hall [] e es rfl, fun before e' after he =>
        hall (e :: before) e' after (by rw [he]; rfl)⟩

/-- What is left counted where a writer has stopped and nobody is in the middle of a send. -/
structure Leavings (c : Codec) (bound : Nat) (es : List Event) (s : Crowd) : Prop where
  /-- The counter stands for the messages that were left. -/
  pending : s.hasStopped = true → s.midway = 0 → s.queue.pending = stranded c (new bound) es
  /-- It is zero if and only if none was left when the task let go of the queue or was given up. -/
  empty_iff : s.hasStopped = true → s.midway = 0 → (s.queue.pending = 0 ↔
    ∀ before e after, es = before ++ e :: after → ((new bound).run c before).strands e = 0)
  /-- A task that has ended well has left none. -/
  clean : s.writer.endedWell = true → s.midway = 0 → s.queue.pending = 0
  /-- A task that takes what is left in a closed queue leaves none, be it that the socket fails. -/
  drained : s.queue.closed = true → s.strands (.writer .wake) = 0

/-- **What a writer that has stopped leaves counted**: the messages that waited when its task failed
and let go of an open queue, or that it had when it was given up, and no others. -/
theorem pending_of_stopped (c : Codec) (bound : Nat) (es : List Event) :
    Leavings c bound es ((new bound).run c es) := by
  have h := ledger c bound es
  have hpending (hs : ((new bound).run c es).hasStopped = true)
      (hm : ((new bound).run c es).midway = 0) :
      ((new bound).run c es).queue.pending = stranded c (new bound) es := by
    rw [h.pending_of_hasStopped hs, hm, Nat.zero_add]
  refine ⟨hpending, fun hs hm => ?_, fun hw hm => ?_, fun hc => ?_⟩
  · rw [hpending hs hm]
    exact stranded_eq_zero_iff ..
  · have hzero : stranded c (new bound) es = 0 := by
      refine Decidable.byContradiction fun hk => ?_
      have hfailed := (h.failed hk).1
      rw [hasFailed, hw, Bool.not_true, Bool.and_false] at hfailed
      cases hfailed
    rw [hpending (hasStopped_of_endedWell h.tidy hw) hm, hzero]
  · exact strands_wake h.tidy hc

/-- A message waits while the socket fails the batch before it. -/
def failing : List Event :=
  [.send (.new 0x0800), .go 0, .go 0, .go 0, .writer .wake, .writer .wake,
    .send (.new 0x0800), .go 1, .go 1, .go 1, .writer (.failed "broken pipe"), .writer .wake]

/-- **A message stays counted** on a stopped writer, although both were accepted and both came to
something. -/
theorem stays_pending :
    let s := (new 1024).run ⟨.binary 2, 64⟩ failing
    s.hasStopped = true ∧ s.midway = 0 ∧ s.sends.map (·.stage) = [.accepted 0, .accepted 1] ∧
      (Signal.reports s.signals).outcomes.map (·.1) = [0, 1] ∧ s.queue.pending = 1 := by
  decide

end Crowd

end Interchange
