import Interchange.Proofs.Connector.Serving
import Interchange.Proofs.Connector.Strides

/-!
# What happens to a connection stays with it

The connections of a connector have its settings, its listeners and its history in common. Where
every listener keeps to the connection that it is called with, nothing of this carries anything from
one connection to another: what happens to one connection is `Confined` to it (`confined_step`),
faults and failures of listeners included.
-/

namespace Interchange

/-! ## Listeners that keep to a connection -/

/-- A request is about connection `i`. -/
def Request.IsAbout (i : Nat) : Request → Prop
  | .send id _ => id = i
  | .close id => id = i
  | _ => False

/-- A handler asks for nothing but what is about connection `i`, whatever it is answered. -/
def Handler.KeepsTo (i : Nat) : Handler → Prop
  | .done _ => True
  | .ask r next => r.IsAbout i ∧ ∀ answer, (next answer).KeepsTo i

/-- A listener keeps to the connection that it is called with, and leaves the chain as it is. -/
def Listener.KeepsToItself (l : Listener) : Prop := ∀ id m, (l.handle id m).KeepsTo id

theorem Handler.keepsTo_askAll {i : Nat} {rs : List Request} (hr : ∀ r ∈ rs, r.IsAbout i)
    {next : Handler} (hn : next.KeepsTo i) : (Handler.askAll rs next).KeepsTo i := by
  induction rs with
  | nil => exact hn
  | cons r rs ih =>
    refine ⟨hr r List.mem_cons_self, fun answer => ?_⟩
    cases answer with
    | ok _ => exact ih fun r h => hr r (List.mem_cons_of_mem _ h)
    | error f => trivial

theorem Listener.keepsToItself_echo (rule : EchoRule) (version : Mti.Version) :
    (Listener.echo rule version).KeepsToItself :=
  fun id _ => Handler.keepsTo_askAll (i := id) (by simp [Request.IsAbout]) trivial

theorem Listener.keepsToItself_silent : Listener.silent.KeepsToItself := fun _ _ => trivial

/-! ## Notices about a connection -/

/-- The connection that a notice is about. -/
def Notice.connection : Notice → Nat
  | published e => e.id
  | called _ id _ => id
  | logged id _ _ => id
  | accepted id _ _ => id
  | resolved id _ _ => id
  | sent id _ => id
  | shut id => id

theorem Connection.id_close (c : Connection) : c.close.id = c.id := by
  unfold close
  split <;> rfl

namespace Connector

/-- The listeners of a connector keep to the connection that they are called with. -/
def KeepsApart (k : Connector) : Prop := ∀ e ∈ k.registry, e.2.KeepsToItself

variable {k k' : Connector} {i now : Nat} {c : Connection}

theorem KeepsApart.listener (h : k.KeepsApart) (l : ListenerId) : (k.listener l).KeepsToItself :=
  forall_listener Listener.keepsToItself_echo Listener.keepsToItself_silent h l

theorem connection_of_mem_logLine {d : Direction} {m : Message} {n : Notice}
    (h : n ∈ k.logLine i d m) : n.connection = i := by
  unfold logLine at h
  split at h
  · cases List.mem_singleton.1 h
    rfl
  · cases h

theorem connection_of_mem_notices {ss : List Signal} {n : Notice}
    (h : n ∈ ss.flatMap (k.notices i)) : n.connection = i := by
  obtain ⟨s, -, hs⟩ := List.mem_flatMap.1 h
  cases s with
  | logged m => exact connection_of_mem_logLine hs
  | active => cases hs
  | sent bytes => cases List.mem_singleton.1 hs; rfl
  | resolved ticket r => cases List.mem_singleton.1 hs; rfl
  | shut => cases List.mem_singleton.1 hs; rfl

/-! ## What concerns one connection only -/

/-- What happens while `k` becomes `k'` concerns no connection but number `i`. -/
structure Confined (i : Nat) (k k' : Connector) : Prop where
  /-- What the connector was told stays as it is. -/
  settings : k'.settings = k.settings
  /-- So does the version of its messages. -/
  version : k'.version = k.version
  /-- So do the listeners that have names. -/
  registry : k'.registry = k.registry
  /-- So do those that are called. -/
  chain : k'.chain = k.chain
  /-- What is initialized was so. -/
  initialized : k'.initialized = k.initialized
  /-- All other connections stay as they are. -/
  others : ∀ j, j ≠ i → k'.connection? j = k.connection? j
  /-- What becomes known is about connection `i`. -/
  history : ∃ ns, k'.history = k.history ++ ns ∧ ∀ n ∈ ns, n.connection = i

namespace Confined

theorem refl (i : Nat) (k : Connector) : Confined i k k :=
  ⟨rfl, rfl, rfl, rfl, rfl, fun _ _ => rfl, [], (List.append_nil _).symm, List.forall_mem_nil _⟩

theorem trans {k'' : Connector} (h : Confined i k k') (h' : Confined i k' k'') :
    Confined i k k'' where
  settings := h'.settings.trans h.settings
  version := h'.version.trans h.version
  registry := h'.registry.trans h.registry
  chain := h'.chain.trans h.chain
  initialized := h'.initialized.trans h.initialized
  others j hj := (h'.others j hj).trans (h.others j hj)
  history := by
    obtain ⟨ms, hms, hm⟩ := h.history
    obtain ⟨ns, hns, hn⟩ := h'.history
    exact ⟨ms ++ ns, by rw [hns, hms, List.append_assoc], List.forall_mem_append.2 ⟨hm, hn⟩⟩

theorem keepsApart (h : Confined i k k') (hk : k.KeepsApart) : k'.KeepsApart := by
  unfold KeepsApart
  rwa [h.registry]

theorem note (k : Connector) {ns : List Notice} (h : ∀ n ∈ ns, n.connection = i) :
    Confined i k (k.note ns) :=
  ⟨rfl, rfl, rfl, rfl, rfl, fun _ _ => rfl, ns, rfl, h⟩

theorem publish (k : Connector) {e : Connection.Event} (h : e.id = i) :
    Confined i k (k.publish e) :=
  note k fun _ hn => by cases List.mem_singleton.1 hn; exact h

theorem update (k : Connector) {f : Connection → Connection} (hf : ∀ c, c.id = i → (f c).id = i) :
    Confined i k (k.update i f) where
  settings := rfl
  version := rfl
  registry := rfl
  chain := rfl
  initialized := rfl
  others j hj := by rw [connection?_update hf, if_neg hj]
  history := ⟨[], (List.append_nil _).symm, List.forall_mem_nil _⟩

theorem send (i : Nat) (k : Connector) (m : Message) : Confined i k (k.send i m).1 := by
  rcases k.send_cases i m with h | ⟨c, queue, hc, h⟩
  · rw [h]
    exact refl i k
  · have hid := id_of_connection? hc
    have hupdate :
        Confined i k (k.update i fun _ => { c with writer := { c.writer with queue } }) :=
      update k fun _ _ => hid
    rcases h with h | ⟨-, ticket, h⟩
    · rwa [h]
    · rw [h]
      exact hupdate.trans (note _ fun _ hn => by cases List.mem_singleton.1 hn; rfl)

theorem close (i : Nat) (k : Connector) : Confined i k (k.close i) :=
  update k fun c hc => c.id_close.trans hc

theorem perform {r : Request} (hr : r.IsAbout i) (k : Connector) :
    Confined i k (perform r k).1 := by
  cases r with
  | send id m =>
    rw [perform_send, show id = i from hr]
    exact send i k m
  | close id =>
    rw [show id = i from hr]
    exact close i k
  | append l => exact hr.elim
  | insertFirst l => exact hr.elim
  | remove l => exact hr.elim

theorem run {h : Handler} (hh : h.KeepsTo i) (k : Connector) :
    Confined i k (h.run Connector.perform k).1 := by
  induction h generalizing k with
  | done r => exact refl i k
  | ask r next ih => exact (perform hh.1 k).trans (ih _ (hh.2 _) _)

theorem call (hk : k.KeepsApart) (i : Nat) (m : Message) (l : ListenerId) :
    Confined i k (k.call i m l).1 := by
  unfold Connector.call
  split
  · exact refl i k
  · exact refl i k
  · exact (note k fun _ hn => by cases List.mem_singleton.1 hn; rfl).trans
      (run (hk.listener l i m) _)

theorem dispatch (hk : k.KeepsApart) (i : Nat) (m : Message) (failFast : Bool)
    (ls : List ListenerId) :
    Confined i k (Interchange.dispatch failFast (Connector.call i m) ls k).1 := by
  refine dispatch_preserves (fun l k' hk' => ?_) ls (refl i k)
  exact hk'.trans (call (hk'.keepsApart hk) i m l)

theorem reject (i : Nat) (k : Connector) (f : Pack.Fault) : Confined i k (k.reject i f) := by
  unfold Connector.reject
  split
  · exact send i k _
  · exact refl i k

theorem handle (hk : k.KeepsApart) (i : Nat) (body : List UInt8) :
    Confined i k (k.handle i body).1 := by
  unfold Connector.handle
  split
  · next m _ =>
    have hlog : Confined i k (k.note (k.logLine i .inbound m)) :=
      note k fun _ hn => connection_of_mem_logLine hn
    exact hlog.trans (dispatch (hlog.keepsApart hk) i m _ _)
  · next f _ => exact (reject i k f).trans (publish _ rfl)

theorem handleAll (hk : k.KeepsApart) (i : Nat) (bodies : List (List UInt8)) :
    Confined i k (k.handleAll i bodies).1 := by
  induction bodies generalizing k with
  | nil => exact refl i k
  | cons b bs ih =>
    have hb := handle hk i b
    rw [Connector.handleAll]
    split
    · next hl =>
      rw [hl] at hb
      exact hb.trans (ih (hb.keepsApart hk))
    · next hl => rwa [hl] at hb

theorem finish (i : Nat) (k : Connector) : Confined i k (k.finish i) := by
  have hgone : Confined i k
      (k.update i fun c => { c with state := .disconnected, reader := .ended }) :=
    update k fun _ hc => hc
  exact hgone.trans (publish _ rfl)

theorem windDown (i : Nat) (k : Connector) (now : Nat) : Confined i k (k.windDown i now) := by
  unfold Connector.windDown
  split
  · exact refl i k
  · split
    · exact finish i k
    · exact update k fun c hc => c.id_close.trans hc

theorem fail (i : Nat) (k : Connector) (now : Nat) (f : Fault) : Confined i k (k.fail i now f) := by
  have hpublish : Confined i k (k.publish (.failed i f)) := publish k rfl
  exact hpublish.trans (windDown i _ now)

theorem stepWriter (k : Connector) (c : Connection) (now : Nat) (e : Writer.Event) :
    Confined c.id k (k.stepWriter c now e) := by
  unfold Connector.stepWriter
  cases c.writer.step k.settings.codec e with
  | mk writer signals =>
  refine trans (update k ?_) (note _ ?_)
  · exact fun _ hc => hc
  · exact fun _ hn => connection_of_mem_notices hn

theorem receive (hk : k.KeepsApart) (c : Connection) (now : Nat) (bytes : List UInt8) :
    Confined c.id k (k.receive c now bytes) := by
  unfold Connector.receive
  cases c.decoder.push k.settings.codec bytes with
  | mk bodies decoder =>
  have htake : Confined c.id k
      (k.update c.id fun c => { c with decoder, activity := c.activity.record now }) :=
    update k fun _ hc => hc
  cases bodies with
  | error f => exact htake.trans (fail c.id _ now f)
  | ok bodies =>
    have hall := htake.trans (handleAll (htake.keepsApart hk) c.id bodies)
    dsimp only
    split
    · next hl => rwa [hl] at hall
    · next hl =>
      rw [hl] at hall
      exact hall.trans (fail c.id _ now _)

theorem heartbeat (k : Connector) (c : Connection) (now : Nat) :
    Confined c.id k (k.heartbeat c now) := by
  have hsend := send c.id k (.echoRequest k.version)
  unfold Connector.heartbeat
  split
  · next h =>
    rw [h] at hsend
    exact hsend.trans (update _ fun _ hc => hc)
  · next h => rwa [h] at hsend

theorem stepReading (hk : k.KeepsApart) (c : Connection) (now : Nat) (h : Happening) :
    Confined c.id k (k.stepReading c now h) := by
  cases h with
  | received bytes => exact receive hk c now bytes
  | inputEnded => exact windDown c.id k now
  | inputFailed text => exact fail c.id k now _
  | sawClosing =>
    simp only [Connector.stepReading]
    split
    · exact windDown c.id k now
    · exact refl c.id k
  | sawWriterEnd =>
    simp only [Connector.stepReading]
    split
    · exact fail c.id k now _
    · split
      · exact windDown c.id k now
      · exact refl c.id k
  | alarm =>
    simp only [Connector.stepReading]
    split
    · split
      · exact heartbeat k c now
      · exact refl c.id k
    · exact refl c.id k
  | drained => exact refl c.id k
  | gaveUp => exact refl c.id k
  | writer e => exact refl c.id k

theorem stepDraining (k : Connector) (c : Connection) (since now : Nat) (h : Happening) :
    Confined c.id k (k.stepDraining c since now h) := by
  cases h with
  | drained =>
    simp only [Connector.stepDraining]
    split
    · exact finish c.id k
    · exact refl c.id k
  | gaveUp =>
    simp only [Connector.stepDraining]
    split
    · exact (stepWriter k c now .abandon).trans (finish c.id _)
    · exact refl c.id k
  | _ => exact refl c.id k

end Confined

/-- **What happens to a connection concerns no other**, where the listeners keep to the connection
that they are called with. -/
theorem confined_step (hk : k.KeepsApart) (i now : Nat) (h : Happening) :
    Confined i k (k.step i now h) := by
  unfold step
  split
  · exact .refl i k
  · next c hc =>
    obtain rfl := id_of_connection? hc
    split
    · split
      · exact .stepWriter k c now .closing
      · exact .refl c.id k
    · exact .refl c.id k
    · exact .stepWriter k c now _
    · split
      · exact .stepReading hk c now h
      · exact .stepDraining k c _ now h
      · exact .refl c.id k

end Connector

end Interchange
