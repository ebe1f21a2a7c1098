import Interchange.Proofs.Connector.Serving
import Interchange.Proofs.Outbound.Ending

/-!
# What leaves a connection

`Connector.outbound k i` is the writer of connection `i` with its history, put together from what
became known about the connector: the messages that were accepted on the connection, and what its
writer let others know. `exists_actions` says that whatever happens to a connector is, for each
connection, a run of its senders and its writer. So what a writer owes its senders, a connection
owes them as well, whatever happens to others.
-/

namespace Interchange

/-! ## What others learn of a writer -/

/-- Whether a signal tells others what became of their messages and of the socket. -/
def Signal.isTold : Signal → Bool
  | .active => false
  | .logged _ => false
  | _ => true

namespace Signal

theorem reports_told (ss : List Signal) :
    (reports (ss.filter isTold)).sent = (reports ss).sent ∧
      (reports (ss.filter isTold)).outcomes = (reports ss).outcomes := by
  induction ss with
  | nil => exact ⟨rfl, rfl⟩
  | cons s ss ih =>
    obtain ⟨hsent, houtcomes⟩ := ih
    cases s <;> simp [List.filter_cons, isTold, report, hsent, houtcomes]

end Signal

namespace Outbound

open Writer

variable {c : Codec} {o : Outbound}

/-- A writer with what others learn of its history. -/
def told (o : Outbound) : Outbound := { o with signals := o.signals.filter Signal.isTold }

@[simp] theorem writer_told (o : Outbound) : o.told.writer = o.writer := rfl

@[simp] theorem accepted_told (o : Outbound) : o.told.accepted = o.accepted := rfl

@[simp] theorem sent_told (o : Outbound) : o.told.report.sent = o.report.sent :=
  (Signal.reports_told _).1

@[simp] theorem outcomes_told (o : Outbound) : o.told.report.outcomes = o.report.outcomes :=
  (Signal.reports_told _).2

theorem told_step (c : Codec) (o : Outbound) (x : Action) :
    (o.told.step c x).told = (o.step c x).told := by
  cases x with
  | enqueue m =>
    simp only [step, writer_told]
    split <;> simp [told, withQueue]
  | raise => simp [step, told, withQueue]
  | lower => simp [step, told, withQueue]
  | detach => simp [step, told, withQueue]
  | writer e => simp [step, told]

/-- What others learn of a run depends on what they learned before. -/
theorem told_run (c : Codec) (o : Outbound) (xs : List Action) :
    (o.told.run c xs).told = (o.run c xs).told := by
  induction xs generalizing o with
  | nil => simp [told]
  | cons x xs ih => rw [run_cons, run_cons, ← ih, told_step, ih]

/-- What holds of the end of a writer, others learn. -/
theorem Ends.told (h : Ends c o) : Ends c o.told where
  sent := by simpa using h.sent
  flushed hw := by
    obtain ⟨hsent, rest, hrest, hshut⟩ := h.flushed hw
    refine ⟨by simpa using hsent, rest.filter Signal.isTold, ?_, fun hm => ?_⟩
    · simp [Outbound.told, hrest, Signal.isTold]
    · exact hshut (List.mem_of_mem_filter hm)
  unshut hw hm := h.unshut hw (List.mem_of_mem_filter hm)
  resolved he := by
    obtain ⟨tickets, once, succeeds, unwritten, refused⟩ := h.resolved he
    exact ⟨tickets, by simpa using once, by simpa using succeeds, by simpa using unwritten,
      by simpa using refused⟩

/-- The only fault with which a writer ends is one of the socket. -/
theorem io_of_run (bound : Nat) (xs : List Action) {f : Fault}
    (h : ((new bound).run c xs).writer.phase = .ended (.error f)) : ∃ text, f = .io text := by
  suffices hrun : ∀ o : Outbound, (o.run c xs).writer.phase = .ended (.error f) →
      (∃ text, f = .io text) ∨ o.writer.phase = .ended (.error f) by
    rcases hrun _ h with hio | hnew
    · exact hio
    · cases hnew
  clear h
  induction xs with
  | nil => exact fun o h => .inr h
  | cons x xs ih =>
    intro o h
    rcases ih _ h with hio | hstep
    · exact .inl hio
    · cases x with
      | writer e => exact io_of_step hstep
      | enqueue m =>
        simp only [step] at hstep
        split at hstep <;> exact .inr hstep
      | raise => exact .inr hstep
      | lower => exact .inr hstep
      | detach => exact .inr hstep

end Outbound

/-! ## The history of a connection -/

/-- The message that was accepted on a connection, if a notice tells of one. -/
def Notice.queued? (i : Nat) : Notice → Option Queued
  | .accepted id ticket m => if id = i then some ⟨ticket, m⟩ else none
  | _ => none

/-- What the writer of a connection let others know, if a notice tells of it. -/
def Notice.signal? (i : Nat) : Notice → Option Signal
  | .sent id bytes => if id = i then some (.sent bytes) else none
  | .resolved id ticket outcome => if id = i then some (.resolved ticket outcome) else none
  | .shut id => if id = i then some .shut else none
  | _ => none

/-- Whether a notice tells nothing of what leaves a connection. -/
def Notice.IsMute (i : Nat) (n : Notice) : Prop := n.queued? i = none ∧ n.signal? i = none

namespace Connector

open Outbound

variable {k k' : Connector} {id i : Nat} {ns : List Notice}

/-- The writer of the connection with a number. One that is not there yet counts as new. -/
def writerOf (k : Connector) (i : Nat) : Writer :=
  ((k.connection? i).map (·.writer)).getD (.new k.settings.maxPendingWrites.toNat)

/-- The writer of a connection with its history. -/
def outbound (k : Connector) (i : Nat) : Outbound where
  writer := k.writerOf i
  accepted := k.history.filterMap (Notice.queued? i)
  signals := k.history.filterMap (Notice.signal? i)

theorem writer_outbound {c : Connection} (h : k.connection? i = some c) :
    (k.outbound i).writer = c.writer := by
  rw [outbound, writerOf, h]
  rfl

/-- What is put down adds to the history of a connection. -/
theorem outbound_note (k : Connector) (ns : List Notice) (i : Nat) : (k.note ns).outbound i =
    { writer := (k.outbound i).writer
      accepted := (k.outbound i).accepted ++ ns.filterMap (Notice.queued? i)
      signals := (k.outbound i).signals ++ ns.filterMap (Notice.signal? i) } := by
  simp only [outbound, note, List.filterMap_append]
  rfl

theorem outbound_note_of_mute (h : ∀ n ∈ ns, n.IsMute i) :
    (k.note ns).outbound i = k.outbound i := by
  have hqueued : ns.filterMap (Notice.queued? i) = [] :=
    List.filterMap_eq_nil_iff.2 fun n hn => (h n hn).1
  have hsignal : ns.filterMap (Notice.signal? i) = [] :=
    List.filterMap_eq_nil_iff.2 fun n hn => (h n hn).2
  rw [outbound_note, hqueued, hsignal, List.append_nil, List.append_nil]

/-- A connection that changes may change its writer. -/
theorem outbound_update {f : Connection → Connection} {c d : Connection}
    (hc : k.connection? id = some c) (hf : ∀ c, c.id = id → (f c).id = id) (hd : f c = d) :
    (k.update id f).outbound i =
      if i = id then { k.outbound i with writer := d.writer } else k.outbound i := by
  unfold outbound writerOf
  rw [connection?_update hf]
  split
  · rw [hc, Option.map_some, Option.map_some, hd]
    rfl
  · rfl

/-- A change that keeps every writer. -/
theorem outbound_update_of_eq {f : Connection → Connection} (hi : ∀ c, (f c).id = c.id)
    (hw : ∀ c, (f c).writer = c.writer) : (k.update id f).outbound i = k.outbound i := by
  unfold outbound writerOf
  rw [connection?_update fun c h => (hi c).trans h]
  split
  · next h =>
    have hfun : ((fun c : Connection => c.writer) ∘ f) = fun c => c.writer := funext hw
    rw [h, Option.map_map, hfun]
    rfl
  · rfl

/-- Others learn everything that is put down about a writer. -/
theorem signals_filter (k : Connector) (i : Nat) :
    (k.outbound i).signals.filter Signal.isTold = (k.outbound i).signals := by
  rw [List.filter_eq_self]
  intro s hs
  obtain ⟨n, -, hn⟩ := List.mem_filterMap.1 hs
  unfold Notice.signal? at hn
  split at hn
  · split at hn <;> cases hn
    rfl
  · split at hn <;> cases hn
    rfl
  · split at hn <;> cases hn
    rfl
  · cases hn

theorem told_outbound (k : Connector) (i : Nat) : (k.outbound i).told = k.outbound i := by
  rw [told, signals_filter]

/-- What one writer makes known tells nothing of what leaves other connections. -/
theorem isMute_notices (h : id ≠ i) (k : Connector) (ss : List Signal) :
    ∀ n ∈ ss.flatMap (k.notices id), n.IsMute i := by
  intro n hn
  obtain ⟨s, -, hs⟩ := List.mem_flatMap.1 hn
  cases s with
  | logged m =>
    simp only [notices, logLine] at hs
    split at hs
    · cases List.mem_singleton.1 hs
      exact ⟨rfl, rfl⟩
    · cases hs
  | active => cases hs
  | sent bytes =>
    cases List.mem_singleton.1 hs
    exact ⟨rfl, if_neg h⟩
  | resolved ticket r =>
    cases List.mem_singleton.1 hs
    exact ⟨rfl, if_neg h⟩
  | shut =>
    cases List.mem_singleton.1 hs
    exact ⟨rfl, if_neg h⟩

/-- What a writer makes known tells of no message that was accepted, and of all its signals that
others learn. -/
theorem filterMap_notices (k : Connector) (i : Nat) (ss : List Signal) :
    (ss.flatMap (k.notices i)).filterMap (Notice.queued? i) = [] ∧
      (ss.flatMap (k.notices i)).filterMap (Notice.signal? i) = ss.filter Signal.isTold := by
  induction ss with
  | nil => exact ⟨rfl, rfl⟩
  | cons s ss ih =>
    rw [List.flatMap_cons, List.filterMap_append, List.filterMap_append, ih.1, ih.2]
    cases s with
    | logged m =>
      simp only [notices, logLine]
      split <;> exact ⟨rfl, rfl⟩
    | active => exact ⟨rfl, rfl⟩
    | sent bytes => simp [List.filter_cons, notices, Notice.queued?, Notice.signal?, Signal.isTold]
    | resolved ticket r =>
      simp [List.filter_cons, notices, Notice.queued?, Notice.signal?, Signal.isTold]
    | shut => simp [List.filter_cons, notices, Notice.queued?, Notice.signal?, Signal.isTold]

/-! ## What happens is a run of senders and writers -/

/-- The history of a connection goes on by a run of its senders and its writer. -/
def GoesOn (i : Nat) (k k' : Connector) : Prop :=
  ∃ xs, k'.outbound i = ((k.outbound i).run k.settings.codec xs).told

namespace GoesOn

theorem of_eq (h : k'.outbound i = k.outbound i) : GoesOn i k k' :=
  ⟨[], by rw [run_nil, told_outbound, h]⟩

theorem note (h : ∀ n ∈ ns, n.IsMute i) : GoesOn i k (k.note ns) :=
  of_eq (outbound_note_of_mute h)

theorem update {f : Connection → Connection} (hi : ∀ c, (f c).id = c.id)
    (hw : ∀ c, (f c).writer = c.writer) : GoesOn i k (k.update id f) :=
  of_eq (outbound_update_of_eq hi hw)

theorem trans {k'' : Connector} (h : GoesOn i k k') (h' : GoesOn i k' k'')
    (hs : k'.settings = k.settings) : GoesOn i k k'' := by
  obtain ⟨xs, hxs⟩ := h
  obtain ⟨ys, hys⟩ := h'
  refine ⟨xs ++ ys, ?_⟩
  rw [hys, hxs, told_run, hs, Outbound.run, Outbound.run, Outbound.run, List.foldl_append]

theorem send (k : Connector) (id : Nat) (m : Message) (i : Nat) : GoesOn i k (k.send id m).1 := by
  unfold Connector.send
  split
  · exact of_eq rfl
  · next c hc =>
    have hid : (c.send m).1.id = id := (c.id_send m).trans (id_of_connection? hc)
    have hupdate := outbound_update (i := i) hc (fun _ _ => hid) rfl
    by_cases hi : i = id
    · subst hi
      rw [if_pos rfl] at hupdate
      have hq := writer_outbound hc
      by_cases hcl : c.state.isClosing = true
      · have hs : c.send m = (c, .error .connectionClosed) := if_pos hcl
        rw [hs] at hupdate ⊢
        rw [← hq] at hupdate
        exact of_eq hupdate
      · -- The steps of the send are those of one that nobody comes between.
        refine ⟨(k.outbound i).sendSteps m, ?_⟩
        have hs : c.send m = ({ c with writer :=
            { c.writer with queue := (c.writer.queue.trySend m).1 } },
            (c.writer.queue.trySend m).2) := if_neg hcl
        rw [hs] at hupdate ⊢
        rw [run_send, hq]
        cases hr : (c.writer.queue.trySend m).2 with
        | ok ticket =>
          dsimp only at hupdate ⊢
          rw [outbound_note, hupdate, told, withQueue, hq, signals_filter]
          simp [Notice.queued?, Notice.signal?]
        | error f =>
          dsimp only at hupdate ⊢
          rw [hupdate, told, withQueue, hq, signals_filter, List.append_nil]
    · rw [if_neg hi] at hupdate
      split
      · next h =>
        rw [h] at hupdate
        refine of_eq ((outbound_note_of_mute fun n hn => ?_).trans hupdate)
        cases List.mem_singleton.1 hn
        exact ⟨if_neg (Ne.symm hi), rfl⟩
      · next h =>
        rw [h] at hupdate
        exact of_eq hupdate

theorem stepWriter {c : Connection} (hc : k.connection? c.id = some c) (now : Nat)
    (e : Writer.Event) (i : Nat) : GoesOn i k (k.stepWriter c now e) := by
  unfold Connector.stepWriter
  cases hs : c.writer.step k.settings.codec e with
  | mk writer signals =>
  dsimp only
  generalize (if signals.any Signal.isActive then c.activity.record now else c.activity) = activity
  have hupdate := outbound_update (i := i) (f := fun d => { d with writer, activity }) hc
    (fun _ h => h) rfl
  by_cases hi : i = c.id
  · subst hi
    rw [if_pos rfl] at hupdate
    obtain ⟨hqueued, hsignals⟩ := filterMap_notices k c.id signals
    refine ⟨[.writer e], ?_⟩
    rw [outbound_note, hupdate, hqueued, hsignals, List.append_nil, run_cons, run_nil, told,
      Outbound.step, writer_outbound hc, hs, List.filter_append, signals_filter]
  · rw [if_neg hi] at hupdate
    exact of_eq ((outbound_note_of_mute (isMute_notices (Ne.symm hi) k signals)).trans hupdate)

theorem publish (e : Connection.Event) : GoesOn i k (k.publish e) := by
  refine note fun n hn => ?_
  cases List.mem_singleton.1 hn
  exact ⟨rfl, rfl⟩

theorem finish (k : Connector) (id i : Nat) : GoesOn i k (k.finish id) := by
  have hupdate : GoesOn i k
      (k.update id fun c => { c with state := .disconnected, reader := .ended }) :=
    update (fun _ => rfl) fun _ => rfl
  exact hupdate.trans (publish _) rfl

theorem windDown (k : Connector) (id now i : Nat) : GoesOn i k (k.windDown id now) := by
  unfold Connector.windDown
  split
  · exact of_eq rfl
  · split
    · exact finish k id i
    · refine update (fun c => ?_) fun c => ?_
      · simp only [Connection.close]
        split <;> rfl
      · simp only [Connection.close]
        split <;> rfl

end GoesOn

/-- **Whatever happens to a connector**, the history of a connection goes on by a run of its senders
and its writer. -/
theorem Change.goesOn (h : Change k k') (i : Nat) : GoesOn i k k' := by
  cases h with
  | send id m => exact .send k id m i
  | close id =>
    refine .update (fun c => ?_) fun c => ?_
    · unfold Connection.close
      split <;> rfl
    · unfold Connection.close
      split <;> rfl
  | arrange chain hi => exact .of_eq rfl
  | log id m =>
    refine .note fun n hn => ?_
    unfold logLine at hn
    split at hn
    · cases List.mem_singleton.1 hn
      exact ⟨rfl, rfl⟩
    · cases hn
  | call h l mti =>
    refine .note fun n hn => ?_
    cases List.mem_singleton.1 hn
    exact ⟨rfl, rfl⟩
  | reject h f => exact .publish _
  | refresh id hf =>
    refine .update (fun c => ?_) fun c => ?_
    · obtain ⟨decoder, activity, hd⟩ := hf c
      rw [hd]
    · obtain ⟨decoder, activity, hd⟩ := hf c
      rw [hd]
  | write hc now e => exact .stepWriter hc now e i
  | windDown h now => exact .windDown k _ now i
  | fail h now hf => exact (GoesOn.publish _).trans (.windDown _ _ now i) rfl
  | finish h => exact .finish k _ i

/-- A connection that is opened starts with a new writer. -/
theorem GoesOn.openConnection (k : Connector) (now i : Nat) :
    GoesOn i k (k.openConnection now) := by
  have hw : (k.openConnection now).writerOf i = k.writerOf i := by
    unfold writerOf
    rw [connection?_openConnection]
    cases hc : k.connection? i with
    | some c => rfl
    | none =>
      rw [Option.none_or]
      split <;> rfl
  apply of_eq
  rw [outbound, outbound, hw]
  simp only [Connector.openConnection, List.filterMap_append]
  simp [Notice.queued?, Notice.signal?]

theorem Advances.goesOn (h : Advances k k') (i : Nat) : GoesOn i k k' := by
  induction h with
  | refl => exact .of_eq rfl
  | tail hk hstep ih =>
    refine ih.trans ?_ (Advances.configured hk).1
    cases hstep with
    | change hc => exact hc.goesOn i
    | openConnection now => exact .openConnection _ now i

theorem IsNew.outbound (h : k.IsNew) (i : Nat) :
    k.outbound i = .new k.settings.maxPendingWrites.toNat := by
  unfold Connector.outbound writerOf connection?
  rw [h.1, h.2]
  rfl

/-- **The history of a connection is a run of its senders and its writer**, whatever happens to the
connector. -/
theorem exists_actions (hk : k.IsNew) (h : Advances k k') (i : Nat) : ∃ xs, k'.outbound i =
    ((Outbound.new k.settings.maxPendingWrites.toNat).run k.settings.codec xs).told := by
  obtain ⟨xs, hxs⟩ := h.goesOn i
  rw [hk.outbound] at hxs
  exact ⟨xs, hxs⟩

/-- How the writer of a connection ends, and what it never does. -/
theorem outbound_ends (hk : k.IsNew) (h : Advances k k') (i : Nat) :
    Ends k.settings.codec (k'.outbound i) := by
  obtain ⟨xs, hxs⟩ := exists_actions hk h i
  rw [hxs]
  exact (ends k.settings.codec _ xs).told

/-- A connection that is closing accepts no message any more. -/
theorem accepted_of_closing (h : Advances k k') {s : Connection.State} (hs : k.state? i = some s)
    (hcl : s.isClosing = true) : (k'.outbound i).accepted = (k.outbound i).accepted := by
  obtain ⟨-, ns, -, -, hns, hn⟩ := h.forward hs
  have hnone : ns.filterMap (Notice.queued? i) = [] := by
    rw [List.filterMap_eq_nil_iff]
    intro n hmem
    unfold Notice.queued?
    split
    · next id ticket m =>
      refine if_neg ?_
      rintro rfl
      exact hn hcl ticket m hmem
    · rfl
  simp only [outbound, hns, List.filterMap_append, hnone, List.append_nil]

/-- The only fault with which the writer of a connection ends is one of the socket. -/
theorem exists_text_of_ended (hk : k.IsNew) (h : Advances k k') {f : Fault}
    (hf : (k'.outbound i).writer.phase = .ended (.error f)) : ∃ text, f = .io text := by
  obtain ⟨xs, hxs⟩ := exists_actions hk h i
  rw [hxs] at hf
  exact io_of_run _ xs hf

end Connector

end Interchange
