import Mathlib.Data.List.Induction
import Interchange.Proofs.Outbound.Senders

/-!
# Sends that come between one another

Each send is decided at one moment. The queue is then as it would be if nobody were in the middle of
a send, but for what those in the middle have counted, and `view` takes that away: a step that
decides a send does to the view what the whole send does by itself, and no other step of a send does
anything to it. A send that goes on comes to that moment: `due` counts the steps that it may take,
whatever the others do between them. `orderly` puts together what follows for the bound of the
queue, for who is refused and why, and for the counter.
-/

namespace Interchange

namespace Queue

variable {q : Queue} {m : Message} {f : Fault}

/-- A closed queue refuses every message. -/
theorem trySend_of_closed (h : q.closed = true) (m : Message) :
    q.trySend m = (q, .error .connectionClosed) := by
  simp [trySend, h]

/-- A full queue refuses every message. -/
theorem trySend_of_full (ho : q.closed = false) (h : q.bound ≤ q.waiting.length) (m : Message) :
    q.trySend m = (q, .error .notWritable) := by
  obtain ⟨bound, waiting, pending, accepted, closed, attached⟩ := q
  cases ho
  simp [trySend, enqueue, isFull, raise, lower, show bound ≤ waiting.length from h]

/-- An open queue with room takes a message. -/
theorem trySend_of_room (ho : q.closed = false) (h : q.waiting.length < q.bound) (m : Message) :
    q.trySend m = ({ q.taking m with pending := q.pending + 1 }, .ok q.accepted) := by
  simp [trySend, enqueue, isFull, raise, taking, ho, Nat.not_le_of_lt h]

/-- A queue that is closed, or full, or neither. -/
theorem trySend_cases (q : Queue) (m : Message) :
    q.closed = true ∧ q.trySend m = (q, .error .connectionClosed) ∨
      (q.closed = false ∧ q.bound ≤ q.waiting.length) ∧ q.trySend m = (q, .error .notWritable) ∨
        (q.closed = false ∧ q.waiting.length < q.bound) ∧
          q.trySend m = ({ q.taking m with pending := q.pending + 1 }, .ok q.accepted) := by
  cases hc : q.closed with
  | true => exact .inl ⟨rfl, trySend_of_closed hc m⟩
  | false =>
    rcases Nat.lt_or_ge q.waiting.length q.bound with hroom | hfull
    · exact .inr (.inr ⟨⟨rfl, hroom⟩, trySend_of_room hc hroom m⟩)
    · exact .inr (.inl ⟨⟨rfl, hfull⟩, trySend_of_full hc hfull m⟩)

/-- A queue that refuses a message stays as it is. -/
theorem fst_trySend_of_error (h : (q.trySend m).2 = .error f) : (q.trySend m).1 = q := by
  rcases q.trySend_cases m with ⟨-, ht⟩ | ⟨-, ht⟩ | ⟨-, ht⟩
  · rw [ht]
  · rw [ht]
  · rw [ht] at h
    cases h

/-- A message is refused as closed by a closed queue. -/
theorem trySend_closed_iff : (q.trySend m).2 = .error .connectionClosed ↔ q.closed = true := by
  rcases q.trySend_cases m with ⟨hc, ht⟩ | ⟨hc, ht⟩ | ⟨hc, ht⟩
  · simp [ht, hc]
  · simp [ht, hc.1]
  · simp [ht, hc.1]

/-- A message is refused as not writable by an open queue that is full. -/
theorem trySend_notWritable_iff :
    (q.trySend m).2 = .error .notWritable ↔ q.closed = false ∧ q.bound ≤ q.waiting.length := by
  rcases q.trySend_cases m with ⟨hc, ht⟩ | ⟨hc, ht⟩ | ⟨hc, ht⟩
  · simp [ht, hc]
  · simp [ht, hc]
  · simp [ht, Nat.not_le_of_lt hc.2]

end Queue

namespace Sending

/-- How many steps a send takes at most until it is decided. -/
def due (a : Sending) : Nat :=
  match a.stage with
  | .begun => 3
  | .passed => 2
  | .raised => 1
  | _ => 0

/-- A send is decided when no step is due. -/
theorem exists_answer? {a : Sending} (h : a.due = 0) : ∃ r, a.answer? = some r := by
  obtain ⟨number, message, stage⟩ := a
  cases stage with
  | begun => cases h
  | passed => cases h
  | raised => cases h
  | refused f => exact ⟨_, rfl⟩
  | accepted ticket => exact ⟨_, rfl⟩
  | rejected f => exact ⟨_, rfl⟩

end Sending

namespace Crowd

/-- Whether an event is a step of a send. -/
def Event.isGo (n : Nat) : Event → Bool
  | .go i => i = n
  | _ => false

variable {c : Codec} {bound k n : Nat} {s : Crowd} {a : Sending}

/-- The queue as it is without what sends in the middle of their steps have counted. -/
def view (s : Crowd) : Queue := { s.queue with pending := s.queue.pending - s.midway }

/-- The next step of a send decides it: what it is told. -/
structure Decides (c : Codec) (s : Crowd) (n : Nat) (m : Message) (r : Except Fault Nat) :
    Prop where
  /-- The send has not been told anything. -/
  undecided : ∃ a, s.sending? n = some a ∧ a.message = m ∧ a.answer? = none
  /-- It is told by its next step. -/
  told : ∃ a, (s.step c (.go n)).sending? n = some a ∧ a.answer? = some r

/-- What a send was told after it went on. -/
theorem answer?_advance (h : s.sending? n = some a) (stage : Sending.Stage) :
    ((s.advance n stage).sending? n).bind Sending.answer? = Sending.answer? { a with stage } := by
  rw [sending?_advance, if_pos rfl, h]
  rfl

/-- The view depends on the counter and what senders have counted by their difference. -/
theorem view_advance (s : Crowd) {q : Queue} {p : Nat} (stage : Sending.Stage)
    (hp : q.pending - ((s.withQueue q).advance n stage).midway = p) :
    ((s.withQueue q).advance n stage).view = { q with pending := p } := by
  rw [view, queue_advance, queue_withQueue, hp]

/-- A send that goes on without counting or taking a count back leaves the view. -/
theorem view_advance_of_weight (ha : s.sending? n = some a) {stage : Sending.Stage}
    (hw : Sending.weight { a with stage } = a.weight) : (s.advance n stage).view = s.view := by
  have hmid := midway_advance ha stage
  rw [hw] at hmid
  exact view_advance s (q := s.queue) stage
    (congrArg (s.queue.pending - ·) (Nat.add_right_cancel hmid))

/-- **What a step of a send does**: it decides the send as if nobody came between its steps, or the
queue stays as it is but for what such sends have counted. -/
theorem view_proceed (h : Ledger bound k s) (ha : s.sending? n = some a) :
    (a.answer? = none ∧ ∃ r, ((s.proceed a).sending? n).bind Sending.answer? = some r ∧
      s.view.trySend a.message = ((s.proceed a).view, r)) ∨
    (s.proceed a).view = s.view ∧ ((s.proceed a).sending? n).bind Sending.answer? = a.answer? := by
  obtain rfl := sending?_number ha
  have hbal := h.balance
  have hanswer (q : Queue) := answer?_advance (s := s.withQueue q) ha
  have hmid (q : Queue) := midway_advance (s := s.withQueue q) ha
  unfold Crowd.proceed
  split
  · next hst =>
    cases hc : s.queue.closed with
    | true =>
      refine .inl ⟨by simp [Sending.answer?, hst], .error .connectionClosed, hanswer s.queue _, ?_⟩
      rw [Queue.trySend_of_closed (q := s.view) hc]
      exact congrArg (·, _) (view_advance_of_weight ha (by simp [Sending.weight, hst])).symm
    | false =>
      refine .inr ⟨view_advance_of_weight ha (by simp [Sending.weight, hst]), ?_⟩
      refine (hanswer s.queue _).trans ?_
      simp [Sending.answer?, hst]
  · next hst =>
    refine .inr ⟨?_, ?_⟩
    · specialize hmid s.queue.raise .raised
      simp only [Sending.weight, hst, midway_withQueue] at hmid
      refine view_advance s .raised ?_
      show s.queue.pending + 1 - _ = s.queue.pending - s.midway
      omega
    · rw [hanswer, Sending.answer?, Sending.answer?, hst]
  · next hst =>
    have hnone : a.answer? = none := by simp [Sending.answer?, hst]
    split
    · next q ticket hq =>
      obtain ⟨hopen, hroom, rfl, rfl⟩ := Queue.enqueue_ok hq
      refine .inl ⟨hnone, .ok s.queue.accepted, hanswer _ _, ?_⟩
      specialize hmid (s.queue.taking a.message) (.accepted s.queue.accepted)
      simp only [Sending.weight, hst, midway_withQueue] at hmid
      have hview := view_advance s (q := s.queue.taking a.message) (p := s.view.pending + 1)
        (n := a.number) (.accepted s.queue.accepted) (by
          show s.queue.pending - _ = s.queue.pending - s.midway + 1
          omega)
      rw [Queue.trySend_of_room (q := s.view) hopen hroom, hview]
      rfl
    · next f hf =>
      refine .inl ⟨hnone, .error f, hanswer s.queue _, ?_⟩
      rw [view_advance_of_weight ha (by simp [Sending.weight, hst])]
      rcases Queue.enqueue_error hf with ⟨hc, rfl⟩ | ⟨hc, hfull, rfl⟩
      · exact Queue.trySend_of_closed (q := s.view) hc _
      · exact Queue.trySend_of_full (q := s.view) hc hfull _
  · next f hst =>
    refine .inr ⟨?_, ?_⟩
    · specialize hmid (s.queue.lower 1) (.rejected f)
      simp only [Sending.weight, hst, midway_withQueue] at hmid
      refine view_advance s (.rejected f) ?_
      show s.queue.pending - 1 - _ = s.queue.pending - s.midway
      omega
    · rw [hanswer, Sending.answer?, Sending.answer?, hst]
  · exact .inr ⟨rfl, by rw [ha]; rfl⟩

/-- What a send is told by its next step, or was told before. -/
def verdict? (s : Crowd) (a : Sending) : Option (Except Fault Nat) :=
  match a.stage with
  | .begun => if s.queue.closed then some (.error .connectionClosed) else none
  | .raised => some ((s.queue.enqueue a.message).map Prod.snd)
  | _ => a.answer?

/-- What a send has been told after its next step. -/
theorem answer?_proceed (ha : s.sending? n = some a) :
    ((s.proceed a).sending? n).bind Sending.answer? = s.verdict? a := by
  obtain rfl := sending?_number ha
  have hanswer (q : Queue) := answer?_advance (s := s.withQueue q) ha
  obtain ⟨number, message, stage⟩ := a
  cases stage with
  | begun =>
    refine (hanswer s.queue _).trans ?_
    simp only [verdict?]
    cases s.queue.closed <;> rfl
  | passed => exact hanswer s.queue.raise .raised
  | raised =>
    simp only [Crowd.proceed, verdict?]
    cases s.queue.enqueue message with
    | ok taken => exact hanswer taken.1 (.accepted taken.2)
    | error f => exact hanswer s.queue (.refused f)
  | refused f => exact hanswer (s.queue.lower 1) (.rejected f)
  | accepted ticket => exact congrArg (Option.bind · Sending.answer?) ha
  | rejected f => exact congrArg (Option.bind · Sending.answer?) ha

/-- What a send was told stays. -/
theorem verdict?_of_answer? {r : Except Fault Nat} (hr : a.answer? = some r) :
    s.verdict? a = some r := by
  rw [← hr]
  obtain ⟨number, message, stage⟩ := a
  cases stage with
  | begun => cases hr
  | raised => cases hr
  | _ => rfl

/-- A step of a send changes the queue and how far the send has come, and brings it nearer to its
decision. -/
theorem exists_advance (ha : s.sending? n = some a) :
    ∃ q stage, s.proceed a = (s.withQueue q).advance n stage ∧
      Sending.due { a with stage } ≤ a.due - 1 := by
  obtain rfl := sending?_number ha
  obtain ⟨number, message, stage⟩ := a
  have hself : s = (s.withQueue s.queue).advance number stage := by
    have hsends : (s.advance number stage).sends = s.sends := Numbered.modify_of_eq ha rfl
    show s = { s with sends := (s.advance number stage).sends }
    rw [hsends]
  cases stage with
  | begun =>
    refine ⟨s.queue, _, rfl, ?_⟩
    cases s.queue.closed <;> exact Nat.le_of_ble_eq_true rfl
  | passed => exact ⟨_, _, rfl, Nat.le_refl 1⟩
  | raised =>
    simp only [Crowd.proceed]
    cases s.queue.enqueue message with
    | ok taken => exact ⟨taken.1, .accepted taken.2, rfl, Nat.le_refl 0⟩
    | error f => exact ⟨s.queue, .refused f, rfl, Nat.le_refl 0⟩
  | refused f => exact ⟨_, _, rfl, Nat.le_refl 0⟩
  | accepted ticket => exact ⟨_, _, hself, Nat.le_refl 0⟩
  | rejected f => exact ⟨_, _, hself, Nat.le_refl 0⟩

/-- A step brings a send nearer to its decision, and nothing takes it back. -/
theorem exists_due_step (c : Codec) (ha : s.sending? n = some a) (e : Event) :
    ∃ a', (s.step c e).sending? n = some a' ∧ a'.due ≤ a.due - (if e.isGo n then 1 else 0) := by
  have hsame {s' : Crowd} (h : s'.sends = s.sends) (hle : a.due ≤ a.due - 0) :
      ∃ a', s'.sending? n = some a' ∧ a'.due ≤ a.due - 0 :=
    ⟨a, by rwa [sending?, h], hle⟩
  cases e with
  | clone =>
    simp only [Crowd.step]
    split <;> exact hsame rfl (Nat.le_refl _)
  | drop =>
    simp only [Crowd.step]
    split
    · exact hsame rfl (Nat.le_refl _)
    · split <;> exact hsame rfl (Nat.le_refl _)
  | send m =>
    simp only [Crowd.step]
    split
    · refine ⟨a, ?_, Nat.le_refl _⟩
      rw [sending?, Numbered.get?_append, Option.or_eq_some_iff]
      exact .inl ha
    · exact hsame rfl (Nat.le_refl _)
  | writer e => exact hsame rfl (Nat.le_refl _)
  | go i =>
    by_cases hi : i = n
    · subst hi
      obtain ⟨q, stage, hq, hdue⟩ := exists_advance ha
      refine ⟨{ a with stage }, ?_, by simpa [Event.isGo] using hdue⟩
      rw [step_go ha, hq, sending?_advance, if_pos rfl]
      exact congrArg (Option.map _) ha
    · refine ⟨a, ?_, by simp [Event.isGo, hi]⟩
      cases hb : s.sending? i with
      | none =>
        simp only [Crowd.step, hb]
        exact ha
      | some b =>
        obtain ⟨q, stage, hq, -⟩ := exists_advance hb
        rw [step_go hb, hq, sending?_advance, if_neg (Ne.symm hi)]
        exact ha

/-- **A send that takes as many steps as are due** is decided, whatever comes between them. -/
theorem exists_answered (c : Codec) (ha : s.sending? n = some a) {es : List Event}
    (hes : a.due ≤ es.countP (Event.isGo n)) :
    ∃ a' r, (s.run c es).sending? n = some a' ∧ a'.answer? = some r := by
  have hrun : ∃ a', (s.run c es).sending? n = some a' ∧
      a'.due ≤ a.due - es.countP (Event.isGo n) := by
    clear hes
    induction es generalizing s a with
    | nil => exact ⟨a, ha, Nat.le_refl _⟩
    | cons e es ih =>
      obtain ⟨a₁, ha₁, hstep⟩ := exists_due_step c ha e
      obtain ⟨a₂, ha₂, hrest⟩ := ih ha₁
      refine ⟨a₂, ha₂, ?_⟩
      rw [List.countP_cons]
      omega
  obtain ⟨a', ha', hdue⟩ := hrun
  obtain ⟨r, hr⟩ := Sending.exists_answer? (a := a') (by omega)
  exact ⟨a', r, ha', hr⟩

/-- A send that was told something was told it before the last event, or is decided by it. -/
theorem answered_step (c : Codec) {e : Event} {r : Except Fault Nat}
    (ha : (s.step c e).sending? n = some a) (hr : a.answer? = some r) :
    (∃ a', s.sending? n = some a' ∧ a'.message = a.message ∧ a'.answer? = some r) ∨
      e = .go n ∧ s.Decides c n a.message r := by
  have hsame (h : s.sending? n = some a) : ∃ a', s.sending? n = some a' ∧ a'.message = a.message ∧
      a'.answer? = some r := ⟨a, h, rfl, hr⟩
  cases e with
  | clone =>
    simp only [Crowd.step] at ha
    split at ha <;> exact .inl (hsame ha)
  | drop =>
    simp only [Crowd.step] at ha
    split at ha
    · exact .inl (hsame ha)
    · split at ha <;> exact .inl (hsame ha)
  | send m =>
    simp only [Crowd.step] at ha
    split at ha
    · rw [sending?, Numbered.get?_append, Option.or_eq_some_iff] at ha
      rcases ha with ha | ⟨-, ha⟩
      · exact .inl (hsame ha)
      · obtain rfl := List.mem_singleton.1 (Numbered.mem_of_get? ha)
        cases hr
    · exact .inl (hsame ha)
  | writer e => exact .inl (hsame ha)
  | go i =>
    cases hb : s.sending? i with
    | none =>
      simp only [Crowd.step, hb] at ha
      exact .inl (hsame ha)
    | some b =>
      have hstep : s.step c (.go i) = s.proceed b := step_go hb
      obtain ⟨q, stage, hq, -⟩ := exists_advance hb
      have hafter := ha
      rw [hstep, hq, sending?_advance] at hafter
      by_cases hi : n = i
      · subst hi
        have hbq : (s.withQueue q).sending? n = some b := hb
        rw [if_pos rfl, hbq] at hafter
        have hba : { b with stage } = a := Option.some.inj hafter
        have hm : b.message = a.message := by rw [← hba]
        cases hnone : b.answer? with
        | none => exact .inr ⟨rfl, ⟨b, hb, hm, hnone⟩, a, ha, hr⟩
        | some r' =>
          have hkeeps := (answer?_proceed hb).trans (verdict?_of_answer? hnone)
          rw [← hstep, ha, Option.bind_some, hr] at hkeeps
          exact .inl ⟨b, hb, hm, hnone.trans hkeeps.symm⟩
      · rw [if_neg hi] at hafter
        exact .inl (hsame hafter)

/-- A send that was told something was decided by one of its steps. -/
theorem exists_decides (c : Codec) (h : ∀ a, s.sending? n = some a → a.answer? = none)
    (es : List Event) {r : Except Fault Nat} (ha : (s.run c es).sending? n = some a)
    (hr : a.answer? = some r) : ∃ before after,
      es = before ++ .go n :: after ∧ (s.run c before).Decides c n a.message r := by
  induction es using List.reverseRecOn generalizing a with
  | nil => cases (h a ha).symm.trans hr
  | append_singleton es e ih =>
    have hlast : ((s.run c es).step c e).sending? n = some a := by
      rw [run_append] at ha
      exact ha
    rcases answered_step c hlast hr with ⟨a', ha', hm, hr'⟩ | ⟨rfl, hd⟩
    · obtain ⟨before, after, rfl, hd⟩ := ih ha' hr'
      exact ⟨before, after ++ [e], by simp, hm ▸ hd⟩
    · exact ⟨es, [], rfl, hd⟩

/-- **Which steps decide a send** that was told nothing: the one behind its count, and its first one
if the queue is closed. -/
theorem decides_iff (c : Codec) (ha : s.sending? n = some a) (hnone : a.answer? = none) :
    (∃ r, s.Decides c n a.message r) ↔
      a.stage = .raised ∨ a.stage = .begun ∧ s.queue.closed = true := by
  have htold : (∃ r, s.Decides c n a.message r) ↔ ∃ r, s.verdict? a = some r := by
    refine exists_congr fun r => ?_
    rw [← answer?_proceed ha, ← step_go (c := c) ha, Option.bind_eq_some_iff]
    exact ⟨fun h => h.told, fun h => ⟨⟨a, ha, rfl, hnone⟩, h⟩⟩
  rw [htold]
  obtain ⟨number, message, stage⟩ := a
  cases stage with
  | begun => cases hc : s.queue.closed <;> simp [verdict?, hc]
  | passed => simp [verdict?, Sending.answer?]
  | raised => simp [verdict?]
  | _ => cases hnone

/-- How much an event adds to the counter. -/
def raises (s : Crowd) : Event → Nat
  | .go n => if (s.sending? n).any fun a => a.stage = .passed then 1 else 0
  | _ => 0

/-- How much an event takes off the counter. -/
def lowers (c : Codec) (s : Crowd) : Event → Nat
  | .go n =>
    match s.sending? n with
    | some ⟨_, _, .refused _⟩ => 1
    | _ => 0
  | .writer e => s.writer.released (s.writer.perform c e).1
  | _ => 0

/-- The step that decides a send does what the send would do by itself. -/
theorem Ledger.atOnce (h : Ledger bound k s) {m : Message} {r : Except Fault Nat}
    (hd : s.Decides c n m r) : s.view.trySend m = ((s.step c (.go n)).view, r) := by
  obtain ⟨⟨a, ha, rfl, hnone⟩, a', ha', hr⟩ := hd
  rw [step_go ha] at ha' ⊢
  rcases view_proceed h ha with ⟨-, r', hr', htry⟩ | ⟨-, hsame⟩
  · rw [ha', Option.bind_some, hr] at hr'
    cases hr'
    exact htry
  · rw [ha', Option.bind_some, hr, hnone] at hsame
    cases hsame

/-- A step that decides no send leaves the view. -/
theorem Ledger.unmoved (h : Ledger bound k s) (hd : ∀ m r, ¬ s.Decides c n m r) :
    (s.step c (.go n)).view = s.view := by
  cases ha : s.sending? n with
  | none => simp only [Crowd.step, ha]
  | some a =>
    have hstep : s.step c (.go n) = s.proceed a := step_go ha
    rcases view_proceed h ha with ⟨hnone, r, hr, -⟩ | ⟨hview, -⟩
    · rw [← hstep, Option.bind_eq_some_iff] at hr
      exact (hd a.message r ⟨⟨a, ha, rfl, hnone⟩, hr⟩).elim
    · rw [hstep, hview]

/-- What is taken off the counter is on it. -/
theorem Ledger.covered (h : Ledger bound k s) (c : Codec) (e : Event) :
    s.lowers c e ≤ s.queue.pending := by
  have hbal := h.balance
  cases e with
  | go n =>
    simp only [lowers]
    split
    · next number message f ha =>
      have hmid := midway_advance ha .passed
      simp only [Sending.weight] at hmid
      omega
    · exact Nat.zero_le _
  | writer e =>
    have hconserves := (Shift.perform c s.writer e).conserves
    simp only [queue] at hbal ⊢
    simp only [lowers]
    omega
  | clone => exact Nat.zero_le _
  | drop => exact Nat.zero_le _
  | send m => exact Nat.zero_le _

/-- An event adds to the counter and takes off it, and nothing else happens to it. -/
theorem Ledger.counted (h : Ledger bound k s) (c : Codec) (e : Event) :
    (s.step c e).queue.pending + s.lowers c e = s.queue.pending + s.raises e := by
  have hcovered := h.covered c e
  cases e with
  | clone =>
    simp only [Crowd.step]
    split <;> rfl
  | drop =>
    simp only [Crowd.step]
    split
    · rfl
    · split <;> rfl
  | send m =>
    simp only [Crowd.step]
    split <;> rfl
  | writer e =>
    have hpending := (Shift.perform c s.writer e).pending
    simp only [lowers, queue] at hcovered
    show (s.writer.perform c e).1.queue.pending + _ = s.writer.queue.pending + 0
    simp only [lowers]
    omega
  | go n =>
    cases ha : s.sending? n with
    | none => simp [Crowd.step, lowers, raises, ha]
    | some a =>
      obtain ⟨number, message, stage⟩ := a
      simp only [lowers, ha] at hcovered
      simp only [Crowd.step, lowers, raises, ha]
      cases stage with
      | raised =>
        simp only [Crowd.proceed]
        cases hq : s.queue.enqueue message with
        | ok taken =>
          obtain ⟨-, -, htaken, -⟩ := Queue.enqueue_ok hq
          show taken.1.pending = s.queue.pending
          rw [htaken]
          rfl
        | error f => rfl
      | refused f => exact Nat.sub_add_cancel hcovered
      | _ => rfl

/-- What holds of senders and their writer wherever they come to stand. -/
structure Orderly (c : Codec) (bound : Nat) (es : List Event) (s : Crowd) : Prop where
  /-- The queue holds no more messages than its bound. -/
  bounded : s.queue.waiting.length ≤ bound
  /-- A send that was told something was decided at one moment. -/
  decided : ∀ n a r, s.sending? n = some a → a.answer? = some r → ∃ before after,
    es = before ++ .go n :: after ∧ ((new bound).run c before).Decides c n a.message r
  /-- A step decides a send that was told nothing if the send has counted its message, or if it is
  its first one and the queue is closed, and no other step does. -/
  decides : ∀ n a, s.sending? n = some a → a.answer? = none →
    ((∃ r, s.Decides c n a.message r) ↔
      a.stage = .raised ∨ a.stage = .begun ∧ s.queue.closed = true)
  /-- A send that takes as many steps as are due is decided, whatever comes between them. -/
  answered : ∀ n a es', s.sending? n = some a → a.due ≤ es'.countP (Event.isGo n) →
    ∃ a' r, (s.run c es').sending? n = some a' ∧ a'.answer? = some r
  /-- What is decided is as if the send were made at that moment and nobody came between its
  steps. -/
  atOnce : ∀ n m r, s.Decides c n m r → s.view.trySend m = ((s.step c (.go n)).view, r)
  /-- A send that is refused does nothing to the queue. -/
  refused : ∀ n m f, s.Decides c n m (.error f) → (s.step c (.go n)).view = s.view
  /-- No other step of a send does anything to the queue, but for what such sends have counted. -/
  unmoved : ∀ n, (∀ m r, ¬ s.Decides c n m r) → (s.step c (.go n)).view = s.view
  /-- No step of a send does anything to what is written. -/
  unwritten : ∀ n, (s.step c (.go n)).writer.phase = s.writer.phase ∧
    (s.step c (.go n)).signals = s.signals
  /-- A send is refused as not writable exactly when the queue is open and full. -/
  notWritable : ∀ n m r, s.Decides c n m r →
    (r = .error .notWritable ↔ s.queue.closed = false ∧ s.queue.waiting.length = bound)
  /-- A send is refused as closed exactly when the queue is closed. -/
  connectionClosed : ∀ n m r, s.Decides c n m r →
    (r = .error .connectionClosed ↔ s.queue.closed = true)
  /-- What an event takes off the counter is on it. -/
  covered : ∀ e, s.lowers c e ≤ s.queue.pending
  /-- An event adds to the counter and takes off it, and nothing else happens to it. -/
  counted : ∀ e, (s.step c e).queue.pending + s.lowers c e = s.queue.pending + s.raises e
  /-- The counter stands for what waits, what is in flight, and what senders have counted, as long
  as the writer has not failed. -/
  balanced : s.writer.hasFailed = false →
    s.queue.pending = s.queue.waiting.length + s.writer.inFlight + s.midway

/-- **A queue with any number of senders** is orderly after every run: it keeps to its bound, each
send that goes on is decided, as it would be by itself at one moment between its beginning and its
end, and the counter never falls short of what is taken off it. -/
theorem orderly (c : Codec) (bound : Nat) (es : List Event) :
    Orderly c bound es ((new bound).run c es) := by
  have h := ledger c bound es
  have hcap := h.capacity
  refine ⟨h.fits, fun n a r ha hr => ?_, fun n a => decides_iff c,
    fun n a es' ha hdue => exists_answered c ha hdue, fun n m r => h.atOnce, fun n m f hd => ?_,
    fun n => h.unmoved, fun n => ?_, fun n m r hd => ?_, fun n m r hd => ?_, h.covered c,
    h.counted c, fun hf => ?_⟩
  · exact exists_decides c (fun a ha => by cases ha) es ha hr
  · have htry := h.atOnce hd
    rw [← Queue.fst_trySend_of_error (congrArg Prod.snd htry), htry]
  · generalize (new bound).run c es = s
    simp only [Crowd.step]
    split
    · next ha =>
      obtain ⟨q, stage, hq, -⟩ := exists_advance ha
      rw [hq]
      exact ⟨rfl, rfl⟩
    · exact ⟨rfl, rfl⟩
  · have hr : r = (((new bound).run c es).view.trySend m).2 := by rw [h.atOnce hd]
    rw [hr, Queue.trySend_notWritable_iff]
    simp only [view, hcap]
    exact and_congr_right fun _ => ⟨Nat.le_antisymm h.fits, Nat.le_of_eq ∘ Eq.symm⟩
  · have hr : r = (((new bound).run c es).view.trySend m).2 := by rw [h.atOnce hd]
    rw [hr, Queue.trySend_closed_iff]
    rfl
  · have hbal := h.balance
    have hzero : stranded c (new bound) es = 0 := by
      by_contra hk
      cases hf.symm.trans (h.failed hk).1
    rwa [hzero, Nat.add_zero] at hbal

end Crowd

end Interchange
