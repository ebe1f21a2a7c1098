import Interchange.Proofs.Outbound.Accounting

/-!
# How a writer ends

A writer shuts down its side of the socket when it ends well, once and as the last thing that it
makes known, and otherwise never (`Bids`). When it has ended in whatever way, every accepted message
has come to one thing, and `Resolved` says which it can be, by whether the message can be framed and
whether its frame was written. `Outbound.ends` puts this together for every run.
-/

namespace Interchange

namespace Writer

/-! ## The farewell -/

/-- What a writer makes known until it comes to stand somewhere: its farewell is the last of it if
the writer has ended well, and is no part of it otherwise. -/
def Bids (w : Writer) (ss : List Signal) : Prop :=
  ∃ rest, ss = rest ++ farewell w.endedWell ∧ .shut ∉ rest

section

variable {c : Codec} {w : Writer} {ms : List Queued}

theorem not_shut_refusals : .shut ∉ refusals c ms := by
  intro h
  obtain ⟨q, -, hq⟩ := List.mem_filterMap.1 h
  split at hq <;> cases hq

theorem not_shut_drop : .shut ∉ drop ms := by
  intro h
  obtain ⟨q, -, hq⟩ := List.mem_map.1 h
  cases hq

theorem not_shut_successes (es : List (Queued × Frame)) : .shut ∉ successes es := by
  intro h
  obtain ⟨e, -, he⟩ := List.mem_flatMap.1 h
  simp at he

theorem endedWell_release (w : Writer) (n : Nat) (last : Bool) :
    (w.release n last).endedWell = last := by
  cases last <;> rfl

/-- A writer that has not ended well makes no farewell. -/
theorem Bids.of_not_shut {ss : List Signal} (hw : w.endedWell = false) (h : .shut ∉ ss) :
    w.Bids ss :=
  ⟨ss, by rw [hw]; simp [farewell], h⟩

theorem bids_start (last : Bool) : (start c w ms last).1.Bids (start c w ms last).2 := by
  simp only [start]
  split
  · refine ⟨refusals c ms, ?_, not_shut_refusals⟩
    rw [endedWell_release]
  · exact .of_not_shut rfl not_shut_refusals

theorem bids_gather : (gather c w ms).1.Bids (gather c w ms).2 := by
  unfold gather
  split
  · split
    · exact .of_not_shut rfl List.not_mem_nil
    · exact bids_start false
  · exact bids_start false

theorem bids_fail (b : Batch) (text : String) : (w.fail b text).1.Bids (w.fail b text).2 := by
  refine .of_not_shut rfl fun h => ?_
  rcases List.mem_append.1 h with h | h
  · exact not_shut_drop h
  · exact not_shut_drop h

theorem bids_complete (b : Batch) : (w.complete b).1.Bids (w.complete b).2 := by
  refine ⟨.active :: successes b.entries, ?_, ?_⟩
  · simp only [complete]
    rw [endedWell_release]
    rfl
  · simpa using not_shut_successes b.entries

theorem endedWell_of_not_ended (h : w.isEnded = false) : w.endedWell = false := by
  unfold isEnded at h
  unfold endedWell
  split at h <;> simp_all

/-- Nothing happens to a writer that has ended. -/
theorem step_of_isEnded (h : w.isEnded = true) (e : Event) : w.step c e = (w, []) := by
  unfold isEnded at h
  split at h
  · next hp => cases e <;> simp [step, hp]
  · next hp => cases e <;> simp [step, hp]
  · cases h

/-- **A step of a writer that goes on** ends with a farewell if the writer ends well in it. -/
theorem bids_step (h : w.isEnded = false) (e : Event) : (w.step c e).1.Bids (w.step c e).2 := by
  have same : w.Bids [] := .of_not_shut (endedWell_of_not_ended h) List.not_mem_nil
  cases e with
  | wake =>
    simp only [step]
    split
    · split
      · split
        · exact same
        · exact ⟨[], rfl, List.not_mem_nil⟩
      · exact bids_gather
    · exact bids_gather
    · exact same
  | closing =>
    simp only [step]
    split
    · exact bids_start true
    · exact same
  | wrote n =>
    simp only [step]
    split
    · next b hb =>
      split
      · exact bids_fail b _
      · exact .of_not_shut rfl (by simp)
    · exact same
  | failed text =>
    simp only [step]
    split
    · next b hb => exact bids_fail b text
    · exact same
  | flushed =>
    simp only [step]
    split
    · next b hb =>
      split
      · exact bids_complete b
      · exact same
    · exact same
  | abandon =>
    have lost (ms ns : List Queued) : .shut ∉ drop ms ++ drop ns := by
      intro h
      rcases List.mem_append.1 h with h | h
      · exact not_shut_drop h
      · exact not_shut_drop h
    simp only [step]
    split
    · exact .of_not_shut rfl not_shut_drop
    · exact .of_not_shut rfl (lost _ _)
    · exact .of_not_shut rfl (lost _ _)
    · exact same

end

/-- Every byte of the frame of a message is among the bytes that the socket accepted, behind the
frames of the messages in front of it. -/
def Wrote (c : Codec) (ms : List Queued) (bytes : List UInt8) (q : Queued) : Prop :=
  ∃ before after f, ms = before ++ q :: after ∧ frame c q.message = .ok f ∧
    frameBytes c before ++ f.bytes <+: bytes

end Writer

namespace Outbound

open Writer

variable {c : Codec} {o : Outbound}

/-! ## Runs -/

theorem bids_action (h : o.writer.Bids o.signals) (x : Action) :
    (o.step c x).writer.Bids (o.step c x).signals := by
  cases x with
  | raise => exact h
  | enqueue m =>
    simp only [step]
    split
    · exact h
    · exact h
  | lower => exact h
  | detach => exact h
  | writer e =>
    obtain ⟨rest, hrest, hshut⟩ := h
    simp only [step]
    by_cases he : o.writer.isEnded = true
    · rw [step_of_isEnded he, List.append_nil]
      exact ⟨rest, hrest, hshut⟩
    · have hgoes : o.writer.isEnded = false := Bool.eq_false_iff.2 he
      obtain ⟨more, hmore, hmshut⟩ := bids_step (c := c) hgoes e
      refine ⟨rest ++ more, ?_, ?_⟩
      · rw [hrest, endedWell_of_not_ended hgoes, hmore]
        simp [farewell]
      · rw [List.mem_append, not_or]
        exact ⟨hshut, hmshut⟩

/-- A writer shuts down its side of the socket as the last thing of a run if it has ended well, and
else not at all. -/
theorem bids_run (c : Codec) (bound : Nat) (xs : List Action) :
    ((new bound).run c xs).writer.Bids ((new bound).run c xs).signals := by
  suffices h : ∀ o : Outbound, o.writer.Bids o.signals →
      (o.run c xs).writer.Bids (o.run c xs).signals from h _ ⟨[], rfl, List.not_mem_nil⟩
  induction xs with
  | nil => exact fun o h => h
  | cons x xs ih => exact fun o h => ih _ (bids_action h x)

/-! ## What becomes of every message -/

/-- The frames of all accepted messages were written in their order, and then the writer shut down
its side of the socket, once. -/
structure Flushed (c : Codec) (o : Outbound) : Prop where
  sent : o.report.sent = frameBytes c o.accepted
  shut : ∃ rest, o.signals = rest ++ [.shut] ∧ .shut ∉ rest

/-- Each accepted message has come to one thing, which fits to what was written of it. -/
structure Resolved (c : Codec) (o : Outbound) : Prop where
  /-- No two messages have the same ticket. -/
  tickets : (o.accepted.map (·.ticket)).Nodup
  /-- Each message has come to one thing. -/
  once : (o.report.outcomes.map (·.1)).Perm (o.accepted.map (·.ticket))
  /-- Only what was written succeeds. -/
  succeeds : ∀ q ∈ o.accepted, (q.ticket, .ok ()) ∈ o.report.outcomes →
    Wrote c o.accepted o.report.sent q
  /-- What can be framed and was not written counts as closed. -/
  unwritten : ∀ q ∈ o.accepted, isFramable c q = true → ¬ Wrote c o.accepted o.report.sent q →
    (q.ticket, .error .connectionClosed) ∈ o.report.outcomes
  /-- What cannot be framed comes to its own fault, or counts as closed where the writer ended
  before a batch took it. -/
  refused : ∀ q ∈ o.accepted, ∀ f, frame c q.message = .error f →
    (q.ticket, .error f) ∈ o.report.outcomes ∨
      (q.ticket, .error .connectionClosed) ∈ o.report.outcomes ∧ o.writer.hasFailed = true

/-- A message that succeeded was written. -/
theorem Balanced.wrote {a : Account} (h : Balanced c o a) {q : Queued} (hq : q ∈ o.accepted)
    (ht : (q.ticket, .ok ()) ∈ o.report.outcomes) : Wrote c o.accepted o.report.sent q := by
  rw [h.messages] at hq
  rw [h.books.outcomes.mem_iff, Account.outcomes, List.mem_append, List.mem_append] at ht
  rcases ht with (ht | ht) | ht
  · obtain ⟨p, hp, he⟩ := List.mem_map.1 ht
    obtain ⟨hticket, hverdict⟩ := Prod.mk.inj he
    have hpq : p = q := h.eq_of_ticket (by simp [Account.messages, hp]) hq hticket
    rw [hpq] at hp hverdict
    obtain ⟨before, after, hdone⟩ := List.append_of_mem hp
    cases hf : frame c q.message with
    | error f => rw [verdict_error hf] at hverdict; cases hverdict
    | ok f =>
      refine ⟨before, after ++ a.flight ++ a.held, f, ?_, hf, ?_⟩
      · rw [h.messages, Account.messages, hdone]
        simp
      · have hbytes :
            frameBytes c a.done = frameBytes c before ++ f.bytes ++ frameBytes c after := by
          rw [hdone, frameBytes_append]
          simp [frameBytes, framed_cons_ok hf]
        rw [h.books.sent, hbytes, List.append_assoc]
        exact List.prefix_append ..
  · obtain ⟨_, _, _, _, hr, _⟩ := mem_refused ht
    cases hr
  · obtain ⟨_, _, he⟩ := List.mem_map.1 ht
    cases (Prod.mk.inj he).2

/-- When a writer has ended, every accepted message has come to one thing: success if it was
written, its own fault if it cannot be framed, and else it counts as closed. -/
theorem resolved_of_isEnded (bound : Nat) (xs : List Action)
    (h : ((new bound).run c xs).writer.isEnded = true) : Resolved c ((new bound).run c xs) := by
  obtain ⟨a, ha⟩ := balanced c bound xs
  have hacc := ha.toAccounted
  generalize (new bound).run c xs = o at h ha hacc
  have once := hacc.resolved h
  have exists_outcome {q : Queued} (hq : q ∈ o.accepted) :
      ∃ r, (q.ticket, r) ∈ o.report.outcomes := by
    have hmem : q.ticket ∈ o.report.outcomes.map (·.1) :=
      once.mem_iff.2 (List.mem_map_of_mem (f := (·.ticket)) hq)
    obtain ⟨⟨t, r⟩, hr, ht⟩ := List.mem_map.1 hmem
    exact ⟨r, ht ▸ hr⟩
  refine ⟨?_, once, fun q hq => ha.wrote hq, fun q hq hframable hwrote => ?_, fun q hq f hf => ?_⟩
  · rw [hacc.tickets]
    exact List.nodup_range
  · obtain ⟨r, hr⟩ := exists_outcome hq
    obtain ⟨f, hf⟩ := exists_frame hframable
    rcases hacc.verdict q hq r hr with rfl | ⟨rfl, -⟩
    · rw [verdict_ok hf] at hr
      exact absurd (ha.wrote hq hr) hwrote
    · exact hr
  · obtain ⟨r, hr⟩ := exists_outcome hq
    rcases hacc.verdict q hq r hr with rfl | ⟨rfl, hfailed⟩
    · rw [verdict_error hf] at hr
      exact .inl hr
    · exact .inr ⟨hr, hfailed⟩

/-- How a writer with its history ends, and what it never does. -/
structure Ends (c : Codec) (o : Outbound) : Prop where
  /-- The socket got a beginning of the frames of the accepted messages, in their order. -/
  sent : o.report.sent <+: frameBytes c o.accepted
  /-- A writer that ends well has written everything before it shut down its side of the socket. -/
  flushed : o.writer.endedWell = true → Flushed c o
  /-- A writer that has not ended well did not shut down its side of the socket. -/
  unshut : o.writer.endedWell = false → .shut ∉ o.signals
  /-- When a writer has ended, every accepted message has come to something. -/
  resolved : o.writer.isEnded = true → Resolved c o

/-- **How a writer ends**, whatever the bound of its queue, in whatever order senders and the writer
take their steps, and whatever the socket does. -/
theorem ends (c : Codec) (bound : Nat) (xs : List Action) : Ends c ((new bound).run c xs) := by
  have hacc := accounted c bound xs
  obtain ⟨rest, hrest, hshut⟩ := bids_run c bound xs
  refine ⟨hacc.sent, fun hw => ?_, fun hw => ?_, resolved_of_isEnded bound xs⟩
  · have hsettled : ((new bound).run c xs).writer.isSettled = true := by
      unfold endedWell at hw
      split at hw
      · next hp => rw [isSettled, hp]
      · cases hw
    rw [hw] at hrest
    exact ⟨(hacc.settled hsettled).1, rest, hrest, hshut⟩
  · rw [hw] at hrest
    rw [hrest]
    simpa [farewell] using hshut

end Outbound

end Interchange
