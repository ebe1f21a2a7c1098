import Interchange.Proofs.Connector.Lifecycle

/-!
# Connections in service

A connection is in service while it is connected and reads, and its writer takes messages and goes
on. `Serves i k ns k'` says that connection `i` stays in service and keeps the bytes that it holds
while the connector `k` becomes `k'`, and that `ns` is all that becomes known of its input
meanwhile.

Each thing that can happen to a connector is treated once here. `Serves.turn` says that a turn that
`spares` the connection makes nothing of its input known, whoever sends and whatever happens to
other connections; `Serves.dispatch` says that a message that is sent through the chain makes calls
of listeners known and nothing else, provided that no listener closes the connection.
-/

namespace Interchange

/-! ## Writers that go on -/

namespace Writer

/-- A writer that takes messages, and that has not been told to write its last batch. -/
structure IsOpen (w : Writer) : Prop where
  closed : w.queue.closed = false
  attached : w.queue.attached = true
  goesOn : w.isEnded = false
  notLast : ∀ b, w.phase = .writing b → b.last = false

theorem isOpen_new (bound : Nat) : (new bound).IsOpen := ⟨rfl, rfl, rfl, fun _ h => by cases h⟩

/-- Whether an event leaves an open writer open: the socket does not fail, and nobody ends it. -/
def Event.spares : Event → Bool
  | .closing => false
  | .wrote n => n != 0
  | .failed _ => false
  | .abandon => false
  | _ => true

namespace IsOpen

variable {c : Codec} {w : Writer}

theorem release (h : w.IsOpen) (n : Nat) : (w.release n false).IsOpen :=
  ⟨h.closed, h.attached, rfl, fun _ h => by cases h⟩

theorem start (h : w.IsOpen) (ms : List Queued) : (start c w ms false).1.IsOpen := by
  simp only [Writer.start]
  split
  · exact h.release _
  · refine ⟨h.closed, h.attached, rfl, fun b hb => ?_⟩
    cases hb
    rfl

theorem gather (h : w.IsOpen) (ms : List Queued) : (gather c w ms).1.IsOpen := by
  unfold Writer.gather Queue.dequeue?
  cases w.queue.waiting with
  | nil => exact h.start ms
  | cons m rest =>
    dsimp only
    split
    · exact ⟨h.closed, h.attached, rfl, fun _ h => by cases h⟩
    · exact h.start ms

/-- An open writer stays open. -/
theorem step (h : w.IsOpen) {e : Event} (he : e.spares = true) : (w.step c e).1.IsOpen := by
  cases e with
  | wake =>
    simp only [Writer.step]
    split
    · split
      · rw [if_pos h.attached]
        exact h
      · exact h.gather []
    · exact h.gather _
    · exact h
  | wrote n =>
    simp only [Writer.step]
    split
    · next b hb =>
      have hn : n ≠ 0 := by simpa [Event.spares] using he
      rw [if_neg hn]
      refine ⟨h.closed, h.attached, rfl, fun b' hb' => ?_⟩
      cases hb'
      exact h.notLast b hb
    · exact h
  | flushed =>
    simp only [Writer.step]
    split
    · next b hb =>
      split
      · rw [complete, h.notLast b hb]
        exact h.release _
      · exact h
    · exact h
  | closing => cases he
  | failed text => cases he
  | abandon => cases he

end IsOpen

end Writer

theorem Queue.trySend_flags (q : Queue) (m : Message) :
    (q.trySend m).1.closed = q.closed ∧ (q.trySend m).1.attached = q.attached := by
  unfold trySend enqueue
  split
  · exact ⟨rfl, rfl⟩
  · split
    · next h =>
      split at h
      · cases h
      · split at h
        · cases h
        · cases h
          exact ⟨rfl, rfl⟩
    · exact ⟨rfl, rfl⟩

/-! ## Connections in service -/

namespace Connection

/-- A connection that is connected, reads, and has a writer that takes messages and goes on. -/
structure InService (c : Connection) : Prop where
  state : c.state = .connected
  reader : c.reader = .reading
  writer : c.writer.IsOpen

theorem inService_start (id bound now : Nat) : (start id bound now).InService :=
  ⟨rfl, rfl, Writer.isOpen_new bound⟩

namespace InService

variable {c : Connection}

theorem not_closing (h : c.InService) : c.state.isClosing = false := by rw [h.state]; rfl

/-- Sending leaves a connection in service. -/
theorem send (h : c.InService) (m : Message) : (c.send m).1.InService := by
  unfold Connection.send
  rw [if_neg (Bool.eq_false_iff.1 h.not_closing)]
  obtain ⟨hclosed, hattached⟩ := c.writer.queue.trySend_flags m
  exact ⟨h.state, h.reader, hclosed.trans h.writer.closed, hattached.trans h.writer.attached,
    h.writer.goesOn, h.writer.notLast⟩

/-- A connection in service accepts a message unless its queue is full. -/
theorem send_result (h : c.InService) (m : Message) : (c.send m).2 =
    if c.writer.queue.isFull then .error .notWritable else .ok c.writer.queue.accepted := by
  unfold Connection.send Queue.trySend
  rw [if_neg (Bool.eq_false_iff.1 h.not_closing), h.writer.closed]
  have hfull : c.writer.queue.raise.isFull = c.writer.queue.isFull := rfl
  have hclosed : c.writer.queue.raise.closed = false := h.writer.closed
  simp only [Queue.enqueue, hclosed, hfull, Bool.false_eq_true, ↓reduceIte]
  cases c.writer.queue.isFull <;> rfl

end InService

theorem id_send (c : Connection) (m : Message) : (c.send m).1.id = c.id := by
  unfold send
  split <;> rfl

theorem decoder_send (c : Connection) (m : Message) : (c.send m).1.decoder = c.decoder := by
  unfold send
  split <;> rfl

end Connection

/-! ## What becomes known of the input of a connection -/

/-- Whether a notice tells of the input of a connection: a message that arrived on it, the call of a
listener for it, something that went wrong with it, or its end. -/
def Notice.isInput (i : Nat) : Notice → Bool
  | .logged id .inbound _ => id = i
  | .called _ id _ => id = i
  | .published (.failed id _) => id = i
  | .published (.closed id) => id = i
  | _ => false

/-- What becomes known of the input of a connection. -/
def Notice.input (i : Nat) (ns : List Notice) : List Notice := ns.filter (Notice.isInput i)

/-! ## Listeners that close nothing -/

/-- A handler never asks to close a connection, whatever it is answered. -/
def Handler.Spares (i : Nat) : Handler → Prop
  | .done _ => True
  | .ask r next => r ≠ .close i ∧ ∀ answer, (next answer).Spares i

/-- A listener never asks to close a connection. -/
def Listener.Spares (i : Nat) (l : Listener) : Prop := ∀ id m, (l.handle id m).Spares i

theorem Handler.spares_askAll {i : Nat} {rs : List Request} (hr : ∀ r ∈ rs, r ≠ .close i)
    {next : Handler} (hn : next.Spares i) : (Handler.askAll rs next).Spares i := by
  induction rs with
  | nil => exact hn
  | cons r rs ih =>
    refine ⟨hr r (by simp), fun answer => ?_⟩
    cases answer with
    | ok _ => exact ih fun r h => hr r (by simp [h])
    | error f => trivial

theorem Listener.spares_echo (i : Nat) (rule : EchoRule) (version : Mti.Version) :
    (Listener.echo rule version).Spares i :=
  fun id m => Handler.spares_askAll (by simp) trivial

theorem Listener.spares_silent (i : Nat) : Listener.silent.Spares i := fun _ _ => trivial

namespace Connector

open Connection (InService)

/-- What becomes known of the input of connection `i` while `k` becomes `k'` is `ns`. What the
connector was told, and the listeners that have names, stay as they are. -/
structure Tells (i : Nat) (k : Connector) (ns : List Notice) (k' : Connector) : Prop where
  settings : k'.settings = k.settings
  version : k'.version = k.version
  registry : k'.registry = k.registry
  history : ∃ ms, k'.history = k.history ++ ms ∧ Notice.input i ms = ns

/-- Connection `i` is spared while `k` becomes `k'`: if it is in service, it stays so and keeps the
bytes that it holds. What becomes known of its input is `ns`. -/
structure Serves (i : Nat) (k : Connector) (ns : List Notice) (k' : Connector) : Prop
    extends Tells i k ns k' where
  service : ∀ c, k.connection? i = some c → c.InService →
    ∃ c', k'.connection? i = some c' ∧ c'.InService ∧ c'.decoder = c.decoder

/-- The listeners of a connector never close a connection. -/
def Tame (i : Nat) (k : Connector) : Prop := ∀ e ∈ k.registry, e.2.Spares i

variable {i id now : Nat} {k k' k'' : Connector} {ns ms : List Notice}

/-- What holds of every listener that is there by itself and of those that have names. -/
theorem forall_listener {P : Listener → Prop} (hecho : ∀ rule version, P (.echo rule version))
    (hsilent : P .silent) (hk : ∀ e ∈ k.registry, P e.2) (l : ListenerId) : P (k.listener l) := by
  cases l with
  | echo => exact hecho _ _
  | named name =>
    simp only [Connector.listener]
    cases hl : k.registry.lookup name with
    | none => exact hsilent
    | some l =>
      obtain ⟨before, after, hr, -⟩ := List.lookup_eq_some_iff.1 hl
      exact hk (name, l) (by simp [hr])

theorem Tame.listener (h : k.Tame i) (l : ListenerId) : (k.listener l).Spares i :=
  forall_listener (Listener.spares_echo i) (Listener.spares_silent i) h l

theorem Tame.of_tells (h : k.Tame i) (ht : Tells i k ns k') : k'.Tame i := by
  unfold Tame
  rwa [ht.registry]

namespace Tells

theorem of_history_eq (hs : k'.settings = k.settings) (hv : k'.version = k.version)
    (hr : k'.registry = k.registry) (hh : k'.history = k.history) : Tells i k [] k' :=
  ⟨hs, hv, hr, [], hh.trans (List.append_nil _).symm, rfl⟩

theorem trans (h : Tells i k ns k') (h' : Tells i k' ms k'') : Tells i k (ns ++ ms) k'' where
  settings := h'.settings.trans h.settings
  version := h'.version.trans h.version
  registry := h'.registry.trans h.registry
  history := by
    obtain ⟨xs, hx, rfl⟩ := h.history
    obtain ⟨ys, hy, rfl⟩ := h'.history
    exact ⟨xs ++ ys, by rw [hy, hx, List.append_assoc], List.filter_append ..⟩

end Tells

theorem Tame.of_serves (h : k.Tame i) (hs : Serves i k ns k') : k'.Tame i := h.of_tells hs.toTells

namespace Serves

/-- What changes no connection. -/
theorem of_connections_eq (h : Tells i k ns k') (hc : k'.connections = k.connections) :
    Serves i k ns k' where
  toTells := h
  service c hi hs := ⟨c, by rwa [connection?, hc], hs, rfl⟩

theorem refl (i : Nat) (k : Connector) : Serves i k [] k :=
  of_connections_eq (.of_history_eq rfl rfl rfl rfl) rfl

theorem trans (h : Serves i k ns k') (h' : Serves i k' ms k'') : Serves i k (ns ++ ms) k'' where
  toTells := h.toTells.trans h'.toTells
  service c hc hs := by
    obtain ⟨c', hc', hs', hd'⟩ := h.service c hc hs
    obtain ⟨c'', hc'', hs'', hd''⟩ := h'.service c' hc' hs'
    exact ⟨c'', hc'', hs'', hd''.trans hd'⟩

theorem note (i : Nat) (k : Connector) (ms : List Notice) :
    Serves i k (Notice.input i ms) (k.note ms) :=
  of_connections_eq ⟨rfl, rfl, rfl, ms, rfl, rfl⟩ rfl

/-- What is put down without telling of the input of the connection. -/
theorem note_nil (h : Notice.input i ms = []) : Serves i k [] (k.note ms) := h ▸ note i k ms

/-- A change of one connection: if it is this one, it has to be left in service. -/
theorem update {f : Connection → Connection} (hf : ∀ c, c.id = id → (f c).id = id)
    (hs : id = i → ∀ c, k.connection? i = some c → c.InService →
      (f c).InService ∧ (f c).decoder = c.decoder) : Serves i k [] (k.update id f) where
  toTells := .of_history_eq rfl rfl rfl rfl
  service c hc hc' := by
    rw [connection?_update hf]
    split
    · next hi =>
      obtain ⟨h₁, h₂⟩ := hs hi.symm c hc hc'
      exact ⟨f c, by rw [← hi, hc]; rfl, h₁, h₂⟩
    · exact ⟨c, hc, hc', rfl⟩

/-! ## Requests -/

theorem send (i : Nat) (k : Connector) (id : Nat) (m : Message) :
    Serves i k [] (k.send id m).1 := by
  unfold Connector.send
  split
  · exact refl i k
  · next c hc =>
    have hupdate : Serves i k [] (k.update id fun _ => (c.send m).1) := by
      refine update (fun _ _ => (c.id_send m).trans (id_of_connection? hc)) ?_
      rintro rfl d hd hs
      cases hc.symm.trans hd
      exact ⟨hs.send m, c.decoder_send m⟩
    split
    · next c' ticket h =>
      rw [h] at hupdate
      exact hupdate.trans (note_nil rfl)
    · next c' f h =>
      rw [h] at hupdate
      exact hupdate

theorem close (h : id ≠ i) : Serves i k [] (k.close id) := by
  refine update (fun c hc => ?_) fun hi => absurd hi h
  unfold Connection.close
  split <;> exact hc

theorem arrange (i : Nat) (k : Connector) (chain : Chain) (initialized : Bool) :
    Serves i k [] { k with chain, initialized } :=
  of_connections_eq (.of_history_eq rfl rfl rfl rfl) rfl

theorem perform {r : Request} (hr : r ≠ .close i) (k : Connector) :
    Serves i k [] (Connector.perform r k).1 := by
  cases r with
  | send id m =>
    have hsend := send i k id m
    simp only [Connector.perform]
    split
    · next h => rwa [h] at hsend
    · next h => rwa [h] at hsend
  | close id =>
    refine close ?_
    rintro rfl
    exact hr rfl
  | append l => exact arrange i k _ k.initialized
  | insertFirst l => exact arrange i k _ k.initialized
  | remove l => exact arrange i k _ k.initialized

theorem openConnection (i : Nat) (k : Connector) (now : Nat) :
    Serves i k [] (k.openConnection now) where
  toTells := ⟨rfl, rfl, rfl, _, rfl, rfl⟩
  service c hc hs := by
    refine ⟨c, ?_, hs, rfl⟩
    rw [connection?_openConnection, hc]
    rfl

theorem init (i : Nat) (k : Connector) : Serves i k [] k.init.1 := by
  unfold Connector.init
  split
  · exact refl i k
  · split
    · exact refl i k
    · exact arrange i k _ true

/-! ## Listeners -/

/-- A handler that does not close the connection lets nothing of its input be known. -/
theorem run {h : Handler} (hh : h.Spares i) (k : Connector) :
    Serves i k [] (h.run Connector.perform k).1 := by
  induction h generalizing k with
  | done r => exact refl i k
  | ask r next ih => exact (perform hh.1 k).trans (ih _ (hh.2 _) _)

/-- A listener that is called lets its call be known. -/
theorem call (hk : k.Tame i) (id : Nat) (m : Message) (l : ListenerId) :
    ∃ ls : List ListenerId, ls.Sublist [l] ∧
      Serves i k (Notice.input i (ls.map fun l => .called l id m.mti)) (k.call id m l).1 := by
  unfold Connector.call
  split
  · exact ⟨[], List.nil_sublist _, refl i k⟩
  · exact ⟨[], List.nil_sublist _, refl i k⟩
  · refine ⟨[l], .refl _, ?_⟩
    have := (note i k [.called l id m.mti]).trans (run (hk.listener l id m) _)
    rwa [List.append_nil] at this

/-- **A message goes through the chain**: listeners are called in the order of the chain, each at
most as often as it stands there. -/
theorem dispatch (hk : k.Tame i) (id : Nat) (m : Message) (failFast : Bool)
    (chain : List ListenerId) : ∃ ls : List ListenerId, ls.Sublist chain ∧
      Serves i k (Notice.input i (ls.map fun l => .called l id m.mti))
        (Interchange.dispatch failFast (Connector.call id m) chain k).1 := by
  induction chain generalizing k with
  | nil => exact ⟨[], .refl _, refl i k⟩
  | cons l chain ih =>
    obtain ⟨ls, hls, hcall⟩ := Serves.call hk id m l
    have hstop : ls.Sublist (l :: chain) := hls.trans (List.sublist_append_left [l] chain)
    have hgo : ∃ ms : List ListenerId, ms.Sublist (l :: chain) ∧
        Serves i k (Notice.input i (ms.map fun l => .called l id m.mti))
          (Interchange.dispatch failFast (Connector.call id m) chain (k.call id m l).1).1 := by
      obtain ⟨ms, hms, hrest⟩ := ih (hk.of_serves hcall)
      refine ⟨ls ++ ms, hls.append hms, ?_⟩
      rw [List.map_append, Notice.input, List.filter_append]
      exact hcall.trans hrest
    rw [Interchange.dispatch]
    split
    · next hl => rwa [hl] at hgo
    · next hl =>
      rw [hl] at hcall
      exact ⟨ls, hstop, hcall⟩
    · next hl =>
      rw [hl] at hcall hgo
      split
      · exact ⟨ls, hstop, hcall⟩
      · exact hgo

/-! ## Other connections -/

theorem input_called (h : id ≠ i) (ls : List ListenerId) (mti : UInt16) :
    Notice.input i (ls.map fun l => .called l id mti) = [] := by
  rw [Notice.input, List.filter_eq_nil_iff]
  simp [Notice.isInput, h]

theorem input_logLine (h : id ≠ i) (d : Direction) (m : Message) :
    Notice.input i (k.logLine id d m) = [] := by
  unfold logLine
  split
  · cases d <;> simp [Notice.input, Notice.isInput, h]
  · rfl

theorem input_notices (i : Nat) (k : Connector) (id : Nat) (ss : List Signal) :
    Notice.input i (ss.flatMap (k.notices id)) = [] := by
  rw [Notice.input, List.filter_eq_nil_iff]
  intro n hn
  obtain ⟨s, -, hs⟩ := List.mem_flatMap.1 hn
  cases s with
  | logged m =>
    simp only [notices, logLine] at hs
    split at hs
    · cases List.mem_singleton.1 hs
      simp [Notice.isInput]
    · cases hs
  | active => cases hs
  | sent bytes => cases List.mem_singleton.1 hs; simp [Notice.isInput]
  | resolved ticket r => cases List.mem_singleton.1 hs; simp [Notice.isInput]
  | shut => cases List.mem_singleton.1 hs; simp [Notice.isInput]

theorem reject (i : Nat) (k : Connector) (id : Nat) (f : Pack.Fault) :
    Serves i k [] (k.reject id f) := by
  unfold Connector.reject
  split
  · exact send i k id _
  · exact refl i k

theorem handle (hk : k.Tame i) (h : id ≠ i) (body : List UInt8) :
    Serves i k [] (k.handle id body).1 := by
  unfold Connector.handle
  split
  · next m _ =>
    have hlog : Serves i k [] (k.note (k.logLine id .inbound m)) :=
      note_nil (input_logLine h .inbound m)
    obtain ⟨ls, -, hd⟩ := Serves.dispatch (hk.of_serves hlog) id m
      k.settings.failOnListenerError k.chain
    rw [input_called h] at hd
    exact hlog.trans hd
  · next f _ =>
    have hpublish : Serves i (k.reject id f) [] ((k.reject id f).publish (.failed id (.parse f))) :=
      note_nil (by simp [Notice.input, Notice.isInput, h])
    exact (reject i k id f).trans hpublish

theorem handleAll (hk : k.Tame i) (h : id ≠ i) (bodies : List (List UInt8)) :
    Serves i k [] (k.handleAll id bodies).1 := by
  induction bodies generalizing k with
  | nil => exact refl i k
  | cons b bs ih =>
    have hb := handle hk h b
    rw [Connector.handleAll]
    split
    · next hl =>
      rw [hl] at hb
      exact hb.trans (ih (hk.of_serves hb))
    · next hl => rwa [hl] at hb

theorem finish (h : id ≠ i) : Serves i k [] (k.finish id) := by
  have hupdate : Serves i k []
      (k.update id fun c => { c with state := .disconnected, reader := .ended }) :=
    update (fun _ hc => hc) fun hi => absurd hi h
  exact hupdate.trans (note_nil (by simp [Notice.input, Notice.isInput, h]))

theorem windDown (h : id ≠ i) (now : Nat) : Serves i k [] (k.windDown id now) := by
  unfold Connector.windDown
  split
  · exact refl i k
  · split
    · exact finish h
    · refine update (fun c hc => ?_) fun hi => absurd hi h
      simp only [Connection.close]
      split <;> exact hc

theorem fail (h : id ≠ i) (now : Nat) (f : Fault) : Serves i k [] (k.fail id now f) := by
  have hpublish : Serves i k [] (k.publish (.failed id f)) :=
    note_nil (by simp [Notice.input, Notice.isInput, h])
  exact hpublish.trans (windDown h now)

theorem receive (hk : k.Tame i) {c : Connection} (h : c.id ≠ i) (now : Nat) (bytes : List UInt8) :
    Serves i k [] (k.receive c now bytes) := by
  unfold Connector.receive
  cases c.decoder.push k.settings.codec bytes with
  | mk bodies decoder =>
  have htake : Serves i k [] (k.update c.id fun c =>
      { c with decoder, activity := c.activity.record now }) :=
    update (fun _ hc => hc) fun hi => absurd hi h
  cases bodies with
  | error f => exact htake.trans (fail h now f)
  | ok bodies =>
    dsimp only
    have hall := handleAll (hk.of_serves htake) h bodies
    split
    · next hl =>
      rw [hl] at hall
      exact htake.trans hall
    · next f hl =>
      rw [hl] at hall
      exact (htake.trans hall).trans (fail h now f)

/-! ## What happens to a connection -/

theorem stepWriter {c : Connection} (hc : k.connection? c.id = some c) (now : Nat)
    {e : Writer.Event} (he : c.id = i → e.spares = true) :
    Serves i k [] (k.stepWriter c now e) := by
  unfold Connector.stepWriter
  cases hstep : c.writer.step k.settings.codec e with
  | mk writer signals =>
  have hupdate (activity : Activity) :
      Serves i k [] (k.update c.id fun c => { c with writer, activity }) := by
    refine update (fun _ h => h) fun hi d hd hs => ?_
    rw [hi] at hc
    cases hc.symm.trans hd
    have hopen := hs.writer.step (he hi) (c := k.settings.codec)
    rw [hstep] at hopen
    exact ⟨⟨hs.state, hs.reader, hopen⟩, rfl⟩
  exact (hupdate _).trans (note_nil (input_notices i k c.id signals))

theorem heartbeat (i : Nat) (k : Connector) (c : Connection) (now : Nat) :
    Serves i k [] (k.heartbeat c now) := by
  unfold Connector.heartbeat
  have hsend := send i k c.id (.echoRequest k.version)
  split
  · next h =>
    rw [h] at hsend
    refine hsend.trans (update (fun _ h => h) fun _ d _ hs => ?_)
    exact ⟨⟨hs.state, hs.reader, hs.writer⟩, rfl⟩
  · next h => rwa [h] at hsend

end Serves

/-- Whether something that happens to a connection leaves it in service: its input neither ends nor
fails, nothing arrives, and its socket takes what is written. -/
def Happening.spares : Happening → Bool
  | .received _ => false
  | .inputEnded => false
  | .inputFailed _ => false
  | .writer (.wrote n) => n != 0
  | .writer (.failed _) => false
  | _ => true

/-- Whether a turn leaves a connection in service. -/
def Turn.spares (i : Nat) : Turn → Bool
  | .ask (.close id) => id != i
  | .happening id h => id != i || h.spares
  | _ => true

namespace Serves

theorem stepReading (hk : k.Tame i) {c : Connection} (now : Nat) {h : Happening}
    (hh : c.id = i → h.spares = true ∧ c.InService) :
    Serves i k [] (k.stepReading c now h) := by
  cases h with
  | received bytes => exact receive hk (fun hi => by cases (hh hi).1) now bytes
  | inputEnded => exact windDown (fun hi => by cases (hh hi).1) now
  | inputFailed text => exact fail (fun hi => by cases (hh hi).1) now _
  | sawClosing =>
    simp only [Connector.stepReading]
    split
    · next hcl => exact windDown (fun hi => by cases hcl.symm.trans (hh hi).2.not_closing) now
    · exact refl i k
  | sawWriterEnd =>
    have goesOn (he : c.writer.isEnded = true) : c.id ≠ i :=
      fun hi => by cases he.symm.trans (hh hi).2.writer.goesOn
    simp only [Connector.stepReading]
    split
    · next f hf => exact fail (goesOn (by rw [Writer.isEnded, hf])) now f
    · split
      · next he => exact windDown (goesOn he) now
      · exact refl i k
  | alarm =>
    simp only [Connector.stepReading]
    split
    · split
      · exact heartbeat i k c now
      · exact refl i k
    · exact refl i k
  | drained => exact refl i k
  | gaveUp => exact refl i k
  | writer e => exact refl i k

theorem stepDraining {c : Connection} (hc : k.connection? c.id = some c) (hi : c.id ≠ i)
    (since now : Nat) (h : Happening) : Serves i k [] (k.stepDraining c since now h) := by
  cases h with
  | drained =>
    simp only [Connector.stepDraining]
    split
    · exact finish hi
    · exact refl i k
  | gaveUp =>
    simp only [Connector.stepDraining]
    split
    · exact (stepWriter hc now fun h => absurd h hi).trans (finish hi)
    · exact refl i k
  | _ => exact refl i k

/-- **What leaves a connection in service**: whatever happens to other connections, and what spares
this one. -/
theorem step (hk : k.Tame i) (hs : ∃ c, k.connection? i = some c ∧ c.InService) (id now : Nat)
    {h : Happening} (hh : id = i → h.spares = true) : Serves i k [] (k.step id now h) := by
  obtain ⟨d, hd, hservice⟩ := hs
  unfold Connector.step
  cases hc : k.connection? id with
  | none => exact refl i k
  | some c =>
  cases id_of_connection? hc
  have hserved (hi : c.id = i) : c.InService := by
    rw [hi] at hc
    cases hc.symm.trans hd
    exact hservice
  cases h with
  | writer e =>
    cases e with
    | wake => exact stepWriter hc now fun _ => rfl
    | closing =>
      dsimp only
      split
      · next hcl =>
        exact stepWriter hc now fun hi => by cases hcl.symm.trans (hserved hi).not_closing
      · exact refl i k
    | wrote n => exact stepWriter hc now hh
    | failed text => exact stepWriter hc now hh
    | flushed => exact stepWriter hc now fun _ => rfl
    | abandon => exact refl i k
  | _ =>
    -- Whatever else happens concerns the reading side.
    dsimp only
    split
    · exact stepReading hk now fun hi => ⟨hh hi, hserved hi⟩
    · next since hr =>
      have hne : c.id ≠ i := fun hi => by cases hr.symm.trans (hserved hi).reader
      exact stepDraining hc hne since now _
    · exact refl i k

/-- **A turn that spares a connection** leaves it in service and lets nothing of its input be known.
-/
theorem turn (hk : k.Tame i) (hs : ∃ c, k.connection? i = some c ∧ c.InService) (now : Nat)
    {t : Turn} (ht : t.spares i = true) : Serves i k [] (k.turn now t) := by
  cases t with
  | init => exact Serves.init i k
  | openConnection => exact Serves.openConnection i k now
  | ask r =>
    refine perform (fun hr => ?_) k
    rw [hr] at ht
    simp [Turn.spares] at ht
  | happening id h => exact step hk hs id now fun hi => by simpa [Turn.spares, hi] using ht

end Serves

end Connector

end Interchange
