import Interchange.Proofs.Outbound.Ledger
import Mathlib.Data.List.Nodup

/-!
# What a writer owes its senders

`Accounted` says what a writer owes to those who sent messages through it: which bytes the socket
got, when a message counts as written, what else becomes of it, that it comes to one thing and not
to two, and what is logged. `Outbound.accounted` says that a writer meets it after every run.

Everything is read off the account of the writer. Tickets are distinct, so a message of the account
is known by its ticket, and what has come to something is a part of the messages.
-/

namespace Interchange

namespace Writer

/-- The messages that no batch has taken. -/
def held (w : Writer) : List Queued :=
  match w.phase with
  | .gathering ms => ms ++ w.queue.waiting
  | _ => w.queue.waiting

/-- Whether a writer has nothing to do any more, or for now. -/
def isSettled (w : Writer) : Bool :=
  match w.phase with
  | .waiting => w.queue.waiting.isEmpty
  | .ended (.ok ()) => true
  | _ => false

end Writer

/-! ## Tickets -/

/-- Some of distinct messages are those that have their tickets. -/
theorem filter_tickets {ms ns : List Queued} (h : ms.Sublist ns)
    (hn : (ns.map (·.ticket)).Nodup) :
    ns.filter (fun q => decide (q.ticket ∈ ms.map (·.ticket))) = ms := by
  induction h with
  | slnil => rfl
  | @cons ms ns q h ih =>
    rw [List.map_cons, List.nodup_cons] at hn
    have hq : q.ticket ∉ ms.map (·.ticket) := fun hm => hn.1 ((h.map _).subset hm)
    rw [List.filter_cons_of_neg (by simpa using hq)]
    exact ih hn.2
  | @cons_cons ms ns q h ih =>
    rw [List.map_cons, List.nodup_cons] at hn
    rw [List.filter_cons_of_pos (by simp)]
    congr 1
    rw [← ih hn.2]
    apply List.filter_congr
    intro p hp
    have hne : p.ticket ≠ q.ticket := fun he => hn.1 (he ▸ List.mem_map_of_mem hp)
    rw [ih hn.2]
    simp [hne]

namespace Account

open Writer

/-- The messages that have come to nothing yet. -/
def unresolved (c : Codec) (a : Account) : List Queued := if a.failed then [] else a.exposed c

variable {c : Codec} {a : Account}

theorem sublist_exposed : (a.exposed c).Sublist a.messages := by
  have hf : (framable c a.flight).Sublist (a.done ++ a.flight) :=
    List.filter_sublist.trans (List.sublist_append_right ..)
  exact hf.append (.refl _)

theorem sublist_done : (framable c a.done).Sublist a.messages := by
  refine List.filter_sublist.trans ?_
  rw [messages, List.append_assoc]
  exact List.sublist_append_left ..

theorem perm_tickets_verdicts (c : Codec) (ms : List Queued) :
    ((refused c ms).map (·.1) ++ (framable c ms).map (·.ticket)).Perm (ms.map (·.ticket)) := by
  have h := (perm_verdicts c ms).map Prod.fst
  simpa [allTo, verdicts, Function.comp_def] using h

/-- Each message has come to something, or has come to nothing yet. -/
theorem perm_tickets (c : Codec) (a : Account) :
    ((a.outcomes c).map (·.1) ++ (a.unresolved c).map (·.ticket)).Perm
      (a.messages.map (·.ticket)) := by
  have hexposed : ((a.lost c).map (·.ticket) ++ (a.unresolved c).map (·.ticket)) =
      (framable c a.flight).map (·.ticket) ++ a.held.map (·.ticket) := by
    unfold lost unresolved exposed
    split <;> simp
  have hflight := perm_tickets_verdicts c a.flight
  have houtcomes : (a.outcomes c).map (·.1) =
      a.done.map (·.ticket) ++ (refused c a.flight).map (·.1) ++ (a.lost c).map (·.ticket) := by
    simp [outcomes, verdicts, allTo, Function.comp_def]
  rw [houtcomes, List.append_assoc, hexposed, messages, List.map_append, List.map_append,
    List.append_assoc, List.append_assoc, ← List.append_assoc ((refused c a.flight).map _)]
  exact (hflight.append_right _).append_left _

end Account

/-! ## What is owed -/

namespace Outbound

open Writer

/-- The accepted messages that succeeded. -/
def succeeded (o : Outbound) : List Queued :=
  o.accepted.filter fun q => decide (q.ticket ∈ o.report.completed)

/-- The accepted messages that have come to nothing yet. -/
def unresolved (o : Outbound) : List Queued :=
  o.accepted.filter fun q => decide (q.ticket ∉ o.report.outcomes.map (·.1))

/-- A writer with its history meets what it owes to its senders. -/
structure Accounted (c : Codec) (o : Outbound) : Prop where
  /-- Tickets number the accepted messages. -/
  tickets : o.accepted.map (·.ticket) = List.range o.accepted.length
  /-- The socket got a beginning of the frames of the accepted messages, in their order. -/
  sent : o.report.sent <+: frameBytes c o.accepted
  /-- A message that cannot be framed adds no byte. -/
  skipped : ∀ before q after e, o.accepted = before ++ q :: after →
    frame c q.message = .error e → frameBytes c o.accepted = frameBytes c (before ++ after)
  /-- No message comes to two things. -/
  once : (o.report.outcomes.map (·.1)).Nodup
  /-- Only accepted messages come to something. -/
  only : ∀ t r, (t, r) ∈ o.report.outcomes → ∃ q ∈ o.accepted, q.ticket = t
  /-- Each message has come to one thing when the writer has ended. -/
  resolved : o.writer.isEnded = true →
    (o.report.outcomes.map (·.1)).Perm (o.accepted.map (·.ticket))
  /-- A writer that has nothing to do, or ended well, has sent every frame and brought each message
  to its verdict. -/
  settled : o.writer.isSettled = true →
    o.report.sent = frameBytes c o.accepted ∧
      o.report.outcomes.Perm (verdicts c o.accepted)
  /-- A message succeeds when the socket was flushed after it got every byte of its frame and of
  those before. -/
  succeeds : ∀ x t, (t, .ok ()) ∈ (Signal.reports (o.emitted c x)).outcomes →
    x = .writer .flushed ∧ ∃ before q after f, o.accepted = before ++ q :: after ∧ q.ticket = t ∧
      frame c q.message = .ok f ∧ frameBytes c before ++ f.bytes <+: o.report.sent
  /-- A message comes to its verdict, be it success or its own fault, unless the writer failed. -/
  verdict : ∀ q ∈ o.accepted, ∀ r, (q.ticket, r) ∈ o.report.outcomes →
    r = verdict c q ∨ r = .error .connectionClosed ∧ o.writer.hasFailed = true
  /-- A message that cannot be framed is refused when a batch takes it. -/
  refused : ∀ q ∈ o.accepted, ∀ e, frame c q.message = .error e →
    q ∈ o.writer.held ∨ (q.ticket, .error e) ∈ o.report.outcomes ∨
      o.writer.hasFailed = true
  /-- The writer fails when the socket does, or accepts nothing. -/
  breaks : ∀ b e, o.writer.phase = .writing b → (e = .wrote 0 ∨ ∃ text, e = .failed text) →
    (o.step c (.writer e)).writer.hasFailed = true
  /-- When the writer fails, everything that has come to nothing yet counts as closed. -/
  fails : ∀ x, o.writer.hasFailed = false → (o.step c x).writer.hasFailed = true →
    (Signal.reports (o.emitted c x)).outcomes = allTo (.error .connectionClosed) o.unresolved
  /-- What succeeded is logged, in the order in which it was accepted. -/
  logged : o.report.logged = o.succeeded.map (·.message)
  /-- Messages succeed in the order in which they were accepted. -/
  ordered : o.report.completed = o.succeeded.map (·.ticket)

namespace Balanced

variable {c : Codec} {o : Outbound} {a : Account}

theorem nodup_tickets (h : Balanced c o a) : (a.messages.map (·.ticket)).Nodup := by
  rw [← h.messages, h.tickets]
  exact List.nodup_range

/-- What came to something, and what has come to nothing yet. -/
theorem perm_tickets (h : Balanced c o a) :
    (o.report.outcomes.map (·.1) ++ (a.unresolved c).map (·.ticket)).Perm
      (a.messages.map (·.ticket)) :=
  ((h.books.outcomes.map _).append_right _).trans (a.perm_tickets c)

theorem nodup_outcomes (h : Balanced c o a) :
    (o.report.outcomes.map (·.1) ++ (a.unresolved c).map (·.ticket)).Nodup :=
  h.perm_tickets.nodup_iff.2 h.nodup_tickets

theorem eq_of_ticket (h : Balanced c o a) {p q : Queued} (hp : p ∈ a.messages)
    (hq : q ∈ a.messages) (he : p.ticket = q.ticket) : p = q :=
  List.inj_on_of_nodup_map h.nodup_tickets hp hq he

/-- The bytes that the socket got begin those of the messages that are done or in flight. -/
theorem sent_of_le (h : Balanced c o a) (hb : (frameBytes c a.flight).length ≤ a.offset) :
    o.report.sent = frameBytes c (a.done ++ a.flight) := by
  rw [h.books.sent, List.take_of_length_le hb, frameBytes_append]

theorem sent (h : Balanced c o a) : o.report.sent <+: frameBytes c o.accepted := by
  rw [h.books.sent, h.messages, Account.messages, frameBytes_append, frameBytes_append]
  refine .trans ?_ (List.prefix_append ..)
  exact (List.prefix_append_right_inj _).2 (List.take_prefix ..)

theorem unresolved_eq_nil (h : Balanced c o a) (he : o.writer.isEnded = true) :
    a.unresolved c = [] := by
  have hs := h.stands
  unfold Account.unresolved
  split
  · rfl
  · next hf =>
    have hwell : o.writer.endedWell = true := by
      rw [← hs.failed_eq] at hf
      simpa [hasFailed, he] using hf
    obtain ⟨hflight, hheld, -⟩ := hs.of_endedWell hwell
    simp [Account.exposed, hflight, hheld]

theorem settled (h : Balanced c o a) (he : o.writer.isSettled = true) :
    o.report.sent = frameBytes c o.accepted ∧
      o.report.outcomes.Perm (verdicts c o.accepted) := by
  have hdone : a.flight = [] ∧ a.held = [] ∧ a.failed = false := by
    have hs := h.stands
    generalize o.writer = w at hs he
    cases hs with
    | waiting => exact ⟨rfl, by simpa [isSettled] using he, rfl⟩
    | ended => exact ⟨rfl, rfl, rfl⟩
    | gathering => cases he
    | writing => cases he
    | failed => cases he
    | abandoned => cases he
  obtain ⟨hflight, hheld, hfailed⟩ := hdone
  have haccepted : o.accepted = a.done := by simp [h.messages, Account.messages, hflight, hheld]
  rw [haccepted]
  refine ⟨by simpa [hflight] using h.books.sent, ?_⟩
  simpa [Account.outcomes, Account.lost, hflight, hfailed] using h.books.outcomes

/-- A move brings success when it is the flush of a batch whose every byte was sent. -/
theorem of_success {e : Writer.Event} {ss : List Signal} {a' : Account} {t : Nat}
    (hm : Move c a e ss a') (ht : (t, .ok ()) ∈ (Signal.reports ss).outcomes) :
    e = .flushed ∧ (frameBytes c a.flight).length ≤ a.offset ∧
      ∃ q ∈ framable c a.flight, q.ticket = t := by
  cases hm with
  | idle => simp at ht
  | start =>
    rw [reports_refusals] at ht
    obtain ⟨_, _, _, _, hr, _⟩ := mem_refused ht
    cases hr
  | skip hn =>
    rw [Signal.reports_append, reports_refusals, reports_farewell, Report.append_empty] at ht
    obtain ⟨_, _, _, _, hr, _⟩ := mem_refused ht
    cases hr
  | accept => simp [Signal.report] at ht
  | complete hb =>
    refine ⟨rfl, hb, ?_⟩
    simpa [Signal.report, allTo] using ht
  | lose => simp [allTo] at ht

theorem succeeds (h : Balanced c o a) {x : Action} {t : Nat}
    (ht : (t, .ok ()) ∈ (Signal.reports (o.emitted c x)).outcomes) :
    x = .writer .flushed ∧ ∃ before q after f, o.accepted = before ++ q :: after ∧ q.ticket = t ∧
      frame c q.message = .ok f ∧ frameBytes c before ++ f.bytes <+: o.report.sent := by
  cases x with
  | raise => simp [emitted] at ht
  | enqueue => simp [emitted] at ht
  | lower => simp [emitted] at ht
  | detach => simp [emitted] at ht
  | writer e =>
    obtain ⟨a', -, hm⟩ := h.exists_move e
    obtain ⟨rfl, hb, q, hq, rfl⟩ := of_success hm ht
    obtain ⟨hflight, hframable⟩ := List.mem_filter.1 hq
    obtain ⟨f, hf⟩ := exists_frame hframable
    obtain ⟨before, after, hsplit⟩ := List.append_of_mem hflight
    refine ⟨rfl, a.done ++ before, q, after ++ a.held, f, ?_, rfl, hf, ?_⟩
    · simp [h.messages, Account.messages, hsplit]
    · have hbytes : frameBytes c (a.done ++ a.flight) =
          frameBytes c (a.done ++ before) ++ f.bytes ++ frameBytes c after := by
        simp [hsplit, frameBytes, framed_append, framed_cons_ok hf]
      rw [h.sent_of_le hb, hbytes]
      exact List.prefix_append ..

theorem verdict (h : Balanced c o a) {q : Queued} (hq : q ∈ o.accepted) {r : Except Fault Unit}
    (hr : (q.ticket, r) ∈ o.report.outcomes) :
    r = Writer.verdict c q ∨ r = .error .connectionClosed ∧ o.writer.hasFailed = true := by
  rw [h.messages] at hq
  rw [h.books.outcomes.mem_iff, Account.outcomes, List.mem_append, List.mem_append] at hr
  rcases hr with (hr | hr) | hr
  · left
    obtain ⟨p, hp, he⟩ := List.mem_map.1 hr
    obtain ⟨ht, rfl⟩ := Prod.mk.inj he
    rw [h.eq_of_ticket (by simp [Account.messages, hp]) hq ht]
  · left
    obtain ⟨p, hp, e, ht, rfl, he⟩ := mem_refused hr
    rw [← h.eq_of_ticket (by simp [Account.messages, hp]) hq ht, verdict_error he]
  · right
    obtain ⟨p, hp, he⟩ := List.mem_map.1 hr
    refine ⟨(Prod.mk.inj he).2.symm, ?_⟩
    rw [h.stands.failed_eq]
    unfold Account.lost at hp
    split at hp
    · next hf => exact hf
    · cases hp

theorem refused (h : Balanced c o a) {q : Queued} (hq : q ∈ o.accepted) {e : Fault}
    (he : frame c q.message = .error e) :
    q ∈ o.writer.held ∨ (q.ticket, .error e) ∈ o.report.outcomes ∨
      o.writer.hasFailed = true := by
  rw [h.messages, Account.messages, List.mem_append, List.mem_append] at hq
  rcases hq with (hq | hq) | hq
  · right; left
    rw [h.books.outcomes.mem_iff]
    apply List.mem_append_left
    apply List.mem_append_left
    exact List.mem_map.2 ⟨q, hq, by rw [verdict_error he]⟩
  · right; left
    rw [h.books.outcomes.mem_iff]
    apply List.mem_append_left
    apply List.mem_append_right
    exact mem_refused_of_error hq he
  · have hs := h.stands
    generalize o.writer = w at hs
    cases hs with
    | waiting => exact .inl hq
    | gathering => exact .inl hq
    | writing => exact .inl hq
    | ended => cases hq
    | failed => exact .inr (.inr rfl)
    | abandoned => exact .inr (.inr rfl)

/-- Before the writer fails, what has come to nothing is what it would take along. -/
theorem exposed_eq (h : Balanced c o a) (hf : a.failed = false) :
    a.exposed c = o.unresolved := by
  have hunresolved : a.unresolved c = a.exposed c := by simp [Account.unresolved, hf]
  have hperm := h.perm_tickets
  have hnodup := h.nodup_outcomes
  rw [hunresolved] at hperm hnodup
  rw [Outbound.unresolved, h.messages, ← filter_tickets a.sublist_exposed h.nodup_tickets]
  apply List.filter_congr
  intro q hq
  rw [decide_eq_decide]
  constructor
  · intro hin hout
    exact List.disjoint_of_nodup_append hnodup hout hin
  · intro hout
    rcases List.mem_append.1 (hperm.mem_iff.2 (List.mem_map_of_mem hq)) with h | h
    · exact absurd h hout
    · exact h

theorem fails (h : Balanced c o a) {x : Action} (hf : o.writer.hasFailed = false)
    (hx : (o.step c x).writer.hasFailed = true) :
    (Signal.reports (o.emitted c x)).outcomes = allTo (.error .connectionClosed) o.unresolved := by
  cases x with
  | raise => cases hf.symm.trans hx
  | lower => cases hf.symm.trans hx
  | detach => cases hf.symm.trans hx
  | enqueue m =>
    exfalso
    simp only [Outbound.step] at hx
    split at hx
    · cases hf.symm.trans hx
    · cases hf.symm.trans hx
  | writer e =>
    obtain ⟨a', ha, hm⟩ := h.exists_move e
    have hold := h.stands.failed_eq.symm.trans hf
    have hnew := ha.stands.failed_eq.symm.trans hx
    rw [← h.exposed_eq hold]
    generalize o.emitted c (.writer e) = ss at hm
    cases hm with
    | lose =>
      rw [reports_drop]
      rfl
    | idle => cases hold.symm.trans hnew
    | start => cases hnew
    | skip => cases hnew
    | accept => cases hnew
    | complete => cases hnew

theorem succeeded_eq (h : Balanced c o a) : o.succeeded = framable c a.done := by
  rw [succeeded, h.books.completed, h.messages, filter_tickets a.sublist_done h.nodup_tickets]

theorem breaks {b : Batch} {e : Writer.Event} (hb : o.writer.phase = .writing b)
    (he : e = .wrote 0 ∨ ∃ text, e = .failed text) :
    (o.step c (.writer e)).writer.hasFailed = true := by
  rcases he with rfl | ⟨text, rfl⟩
  · simp [Outbound.step, Writer.step, hb, fail, hasFailed, isEnded, endedWell]
  · simp [Outbound.step, Writer.step, hb, fail, hasFailed, isEnded, endedWell]

/-- A writer whose books balance meets what it owes. -/
theorem toAccounted (h : Balanced c o a) : Accounted c o where
  tickets := by
    have hlength := congrArg List.length h.tickets
    rw [List.length_map, List.length_range] at hlength
    rw [h.tickets, hlength]
  sent := h.sent
  skipped := by
    intro before q after e hsplit he
    rw [hsplit, frameBytes_append, frameBytes_append, frameBytes, frameBytes, frameBytes,
      framed_cons_error he]
  once := h.nodup_outcomes.of_append_left
  only := by
    intro t r ht
    have hmem := List.mem_append_left ((a.unresolved c).map (·.ticket))
      (List.mem_map_of_mem (f := Prod.fst) ht)
    rw [h.messages]
    exact List.mem_map.1 (h.perm_tickets.mem_iff.1 hmem)
  resolved := by
    intro he
    have hperm := h.perm_tickets
    rwa [h.unresolved_eq_nil he, List.map_nil, List.append_nil, ← h.messages] at hperm
  settled := h.settled
  succeeds := fun _ _ => h.succeeds
  verdict := fun _ hq _ => h.verdict hq
  refused := fun _ hq _ => h.refused hq
  breaks := fun _ _ => breaks
  fails := fun _ => h.fails
  logged := by
    rw [h.succeeded_eq]
    exact h.books.logged
  ordered := by
    rw [h.succeeded_eq]
    exact h.books.completed

end Balanced

/-- **What a writer owes its senders** it meets after every run: whatever the bound of its queue, in
whatever order senders and the writer take their steps, and whatever the socket does. -/
theorem accounted (c : Codec) (bound : Nat) (xs : List Action) :
    Accounted c ((new bound).run c xs) := by
  obtain ⟨a, ha⟩ := balanced c bound xs
  exact ha.toAccounted

end Outbound

end Interchange
