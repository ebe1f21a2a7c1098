import Interchange.Proofs.Connector.Lifecycle
import Interchange.Proofs.Outbound.Ending

/-!
# The strides of a connection

A `Stride` is what a turn at a time does to the reading side and the writer of a connection: most
turns leave the reading side as it is, some make it wait for the writer from that time on, and some
end it, since the writer has ended or is given up. `exists_stride` says that no turn does anything
else to any connection, whatever listeners do meanwhile.
-/

namespace Interchange

/-- A writer that has not ended can be given up. -/
theorem Writer.phase_abandon {c : Codec} {w : Writer} (h : w.isEnded = false) :
    (w.step c .abandon).1.phase = .abandoned := by
  unfold isEnded at h
  cases hp : w.phase <;> simp_all [step]

namespace Connector

open Connection (Reader State drainLimit)

variable {k k' : Connector} {id i now : Nat}

/-! ## What a turn does to a connection -/

theorem connection?_note (k : Connector) (ns : List Notice) (i : Nat) :
    (k.note ns).connection? i = k.connection? i := rfl

theorem connections_init (k : Connector) : k.init.1.connections = k.connections := by
  unfold init
  split
  · rfl
  · split <;> rfl

theorem connection?_finish (k : Connector) (id i : Nat) : (k.finish id).connection? i =
    if i = id then
      (k.connection? id).map fun c => { c with state := .disconnected, reader := .ended }
    else k.connection? i :=
  connection?_update fun _ h => h

/-- What happens to a writer changes the writer of its connection, and when something last passed
over it. -/
theorem connection?_stepWriter {c : Connection} (hc : k.connection? c.id = some c) (now : Nat)
    (e : Writer.Event) (i : Nat) : (k.stepWriter c now e).connection? i =
      if i = c.id then
        some { c with
          writer := (c.writer.step k.settings.codec e).1
          activity := if (c.writer.step k.settings.codec e).2.any Signal.isActive then
            c.activity.record now else c.activity }
      else k.connection? i := by
  unfold stepWriter
  cases c.writer.step k.settings.codec e with
  | mk writer signals =>
  dsimp only
  rw [connection?_note, connection?_update, hc]
  · rfl
  · exact fun _ h => h

theorem exists_connection?_stepWriter {c : Connection} (hc : k.connection? c.id = some c)
    (now : Nat) (e : Writer.Event) : ∃ activity, ∀ i, (k.stepWriter c now e).connection? i =
      if i = c.id then some { c with writer := (c.writer.step k.settings.codec e).1, activity }
      else k.connection? i :=
  ⟨_, connection?_stepWriter hc now e⟩

/-- A connection that a turn brings about was opened by it. -/
theorem exists_start_of_turn {c : Connection} (h : k.connection? i = none) {now : Nat} {t : Turn}
    (hc : (k.turn now t).connection? i = some c) :
    t = .openConnection ∧ k.nextId = i ∧ ∃ bound, c = .start k.nextId bound now := by
  cases t with
  | init =>
    rw [turn, connection?, connections_init] at hc
    cases h.symm.trans hc
  | openConnection =>
    rw [turn, connection?_openConnection, h, Option.none_or] at hc
    split at hc
    · next hi => exact ⟨rfl, hi, _, (Option.some.inj hc).symm⟩
    · cases hc
  | ask r => cases ((Meanwhile.perform r k).changes.connection?_eq_none h).symm.trans hc
  | happening id e => cases ((changes_step k id now e).connection?_eq_none h).symm.trans hc

/-! ## What is left as it is -/

section

variable {α : Type} {g : Connection → α}

/-- Connection `i` is left as it is, as far as `g` shows it. -/
def Retains (g : Connection → α) (i : Nat) (k k' : Connector) : Prop :=
  ∀ x, k.connection? i = some x → ∃ y, k'.connection? i = some y ∧ g y = g x

/-- A view of a connection that neither sending nor closing changes. -/
structure Settled (g : Connection → α) : Prop where
  queue : ∀ (c : Connection) (queue : Queue), g { c with writer := { c.writer with queue } } = g c
  close : ∀ c : Connection, g c.close = g c

namespace Retains

theorem of_connections_eq (h : k'.connections = k.connections) : Retains g i k k' :=
  fun x hx => ⟨x, by rwa [connection?, h], rfl⟩

theorem refl (g : Connection → α) (i : Nat) (k : Connector) : Retains g i k k :=
  of_connections_eq rfl

theorem trans {k'' : Connector} (h : Retains g i k k') (h' : Retains g i k' k'') :
    Retains g i k k'' := by
  intro x hx
  obtain ⟨y, hy, hyx⟩ := h x hx
  obtain ⟨z, hz, hzy⟩ := h' y hy
  exact ⟨z, hz, hzy.trans hyx⟩

/-- A change of one connection: if it is this one, it has to leave it as it is. -/
theorem update {f : Connection → Connection} (hf : ∀ c, c.id = id → (f c).id = id)
    (h : id = i → ∀ c, k.connection? i = some c → g (f c) = g c) :
    Retains g i k (k.update id f) := by
  intro x hx
  rw [connection?_update hf]
  split
  · next hi =>
    rw [← hi, hx]
    exact ⟨f x, rfl, h hi.symm x hx⟩
  · exact ⟨x, hx, rfl⟩

theorem send (hg : Settled g) (i : Nat) (k : Connector) (id : Nat) (m : Message) :
    Retains g i k (k.send id m).1 := by
  rcases k.send_cases id m with h | ⟨c, queue, hc, h⟩
  · rw [h]
    exact refl g i k
  · have hid := id_of_connection? hc
    have hupdate : Retains g i k
        (k.update id fun _ => { c with writer := { c.writer with queue } }) := by
      refine update (fun _ _ => hid) fun hi d hd => ?_
      rw [hi] at hc
      cases hc.symm.trans hd
      exact hg.queue c queue
    rcases h with h | ⟨-, ticket, h⟩
    · rwa [h]
    · rw [h]
      exact hupdate.trans (of_connections_eq rfl)

theorem close (hg : Settled g) (i : Nat) (k : Connector) (id : Nat) :
    Retains g i k (k.close id) := by
  refine update (fun c hc => ?_) fun _ c _ => hg.close c
  unfold Connection.close
  split <;> exact hc

theorem perform (hg : Settled g) (i : Nat) (r : Request) (k : Connector) :
    Retains g i k (perform r k).1 := by
  cases r with
  | send id m =>
    rw [perform_send]
    exact send hg i k id m
  | close id => exact close hg i k id
  | append l => exact of_connections_eq rfl
  | insertFirst l => exact of_connections_eq rfl
  | remove l => exact of_connections_eq rfl

/-- What is done while bodies are taken is only sending and closing. -/
theorem accompanies (hg : Settled g) (i id : Nat) : Accompanies id (Retains g i) where
  refl := refl g i
  trans := trans
  perform := perform hg i
  log _ _ := of_connections_eq rfl
  call _ _ _ := of_connections_eq rfl
  reject _ _ := of_connections_eq rfl

theorem openConnection (i : Nat) (k : Connector) (now : Nat) :
    Retains g i k (k.openConnection now) := by
  intro x hx
  refine ⟨x, ?_, rfl⟩
  rw [connection?_openConnection, hx]
  rfl

end Retains

end

/-- The reading side of a connection does what it did, and its writer stands where it stood. -/
def Keeps (i : Nat) (k k' : Connector) : Prop :=
  ∀ x, k.connection? i = some x → ∃ y, k'.connection? i = some y ∧ y.reader = x.reader ∧
    y.writer.phase = x.writer.phase

namespace Keeps

theorem iff_retains : Keeps i k k' ↔ Retains (fun c => (c.reader, c.writer.phase)) i k k' := by
  simp only [Keeps, Retains, Prod.mk.injEq]

theorem settled : Settled fun c : Connection => (c.reader, c.writer.phase) where
  queue _ _ := rfl
  close c := by
    unfold Connection.close
    split <;> rfl

theorem of_connections_eq (h : k'.connections = k.connections) : Keeps i k k' :=
  iff_retains.2 (.of_connections_eq h)

theorem refl (i : Nat) (k : Connector) : Keeps i k k := of_connections_eq rfl

theorem trans {k'' : Connector} (h : Keeps i k k') (h' : Keeps i k' k'') : Keeps i k k'' :=
  iff_retains.2 ((iff_retains.1 h).trans (iff_retains.1 h'))

/-- A change of one connection: if it is this one, its reading side and the stand of its writer have
to be left. -/
theorem update {f : Connection → Connection} (hf : ∀ c, c.id = id → (f c).id = id)
    (h : id = i → ∀ c, k.connection? i = some c →
      (f c).reader = c.reader ∧ (f c).writer.phase = c.writer.phase) : Keeps i k (k.update id f) :=
  iff_retains.2 (.update hf fun hi c hc => Prod.ext (h hi c hc).1 (h hi c hc).2)

theorem send (i : Nat) (k : Connector) (id : Nat) (m : Message) : Keeps i k (k.send id m).1 :=
  iff_retains.2 (.send settled i k id m)

theorem perform (i : Nat) (r : Request) (k : Connector) : Keeps i k (perform r k).1 :=
  iff_retains.2 (.perform settled i r k)

/-- Nothing that is done while bodies are taken stops a reading side or a writer. -/
theorem accompanies (i id : Nat) : Accompanies id (Keeps i) where
  refl := refl i
  trans := trans
  perform := perform i
  log _ _ := of_connections_eq rfl
  call _ _ _ := of_connections_eq rfl
  reject _ _ := of_connections_eq rfl

theorem heartbeat (i : Nat) (k : Connector) (c : Connection) (now : Nat) :
    Keeps i k (k.heartbeat c now) := by
  have hsend := send i k c.id (.echoRequest k.version)
  unfold Connector.heartbeat
  split
  · next h =>
    rw [h] at hsend
    exact hsend.trans (update (fun _ h => h) fun _ _ _ => ⟨rfl, rfl⟩)
  · next h => rwa [h] at hsend

theorem init (i : Nat) (k : Connector) : Keeps i k k.init.1 := of_connections_eq k.connections_init

theorem openConnection (i : Nat) (k : Connector) (now : Nat) : Keeps i k (k.openConnection now) :=
  iff_retains.2 (.openConnection i k now)

theorem isReading (h : Keeps i k k') (hk : k.IsReading i) : k'.IsReading i := by
  obtain ⟨s, hs⟩ := hk
  obtain ⟨x, hx, hface⟩ := Option.map_eq_some_iff.1 hs
  obtain ⟨y, hy, hr, -⟩ := h x hx
  have hreading : x.reader = .reading := congrArg Connection.Face.reader hface
  refine ⟨y.state, ?_⟩
  rw [face?, hy, Option.map_some, Connection.face, hr, hreading]

end Keeps

theorem reader_of_isReading (h : k.IsReading i) {x : Connection} (hx : k.connection? i = some x) :
    x.reader = .reading := by
  obtain ⟨s, hs⟩ := h
  rw [face?, hx] at hs
  exact congrArg Connection.Face.reader (Option.some.inj hs)

/-- What a turn at a time does to the reading side and the writer of a connection. -/
inductive Stride (now : Nat) (x y : Connection) : Prop
  /-- The reading side does what it did. A writer that has ended stays as it is, and none is given
  up. -/
  | stay (hr : y.reader = x.reader)
    (he : x.writer.isEnded = true → y.writer.phase = x.writer.phase)
    (ha : y.writer.phase = .abandoned → x.writer.phase = .abandoned)
  /-- It stops reading, and waits for its writer from now on. -/
  | windDown (hx : x.reader = .reading) (hy : y.reader = .draining now)
    (hp : y.writer.phase = x.writer.phase) (he : x.writer.isEnded = false)
  /-- It is gone, since its writer has ended. -/
  | leave (hx : x.reader ≠ .ended) (hy : y.reader = .ended) (hp : y.writer.phase = x.writer.phase)
    (he : x.writer.isEnded = true)
  /-- It is gone, since it has waited long enough, and gives its writer up. -/
  | giveUp {since : Nat} (hx : x.reader = .draining since) (hl : since + drainLimit ≤ now)
    (hy : y.reader = .ended) (hp : y.writer.phase = .abandoned)

/-- A connection that reads read before. -/
theorem Stride.reading {x y : Connection} (h : Stride now x y) (hy : y.reader = .reading) :
    x.reader = .reading := by
  cases h with
  | stay hr => rw [← hr, hy]
  | windDown _ hr => cases hr.symm.trans hy
  | leave _ hr => cases hr.symm.trans hy
  | giveUp _ _ hr => cases hr.symm.trans hy

/-- Connection `i` makes a stride. -/
def Strides (now i : Nat) (k k' : Connector) : Prop :=
  ∀ x, k.connection? i = some x → ∃ y, k'.connection? i = some y ∧ Stride now x y

theorem isEnded_congr {v w : Writer} (h : v.phase = w.phase) : v.isEnded = w.isEnded := by
  rw [Writer.isEnded, h]
  rfl

namespace Strides

theorem of_keeps (h : Keeps i k k') : Strides now i k k' := by
  intro x hx
  obtain ⟨y, hy, hr, hp⟩ := h x hx
  exact ⟨y, hy, .stay hr (fun _ => hp) fun ha => hp.symm.trans ha⟩

theorem refl (now i : Nat) (k : Connector) : Strides now i k k := of_keeps (.refl i k)

/-- A stride behind what leaves the reading side and the writer as they are. -/
theorem after {k'' : Connector} (h : Keeps i k k') (h' : Strides now i k' k'') :
    Strides now i k k'' := by
  intro x hx
  obtain ⟨y, hy, hr, hp⟩ := h x hx
  obtain ⟨z, hz, hs⟩ := h' y hy
  refine ⟨z, hz, ?_⟩
  have hended : y.writer.isEnded = x.writer.isEnded := isEnded_congr hp
  cases hs with
  | stay hzr he ha =>
    refine .stay (hzr.trans hr) (fun hx => (he (hended.trans hx)).trans hp) fun hz => ?_
    rw [← hp]
    exact ha hz
  | windDown hy hzr hzp he => exact .windDown (hr ▸ hy) hzr (hzp.trans hp) (hended ▸ he)
  | leave hy hzr hzp he => exact .leave (hr ▸ hy) hzr (hzp.trans hp) (hended ▸ he)
  | giveUp hy hl hzr hzp => exact .giveUp (hr ▸ hy) hl hzr hzp

/-- A change of one connection: if it is this one, it has to be a stride. -/
theorem update {f : Connection → Connection} (hf : ∀ c, c.id = id → (f c).id = id)
    (h : id = i → ∀ c, k.connection? i = some c → Stride now c (f c)) :
    Strides now i k (k.update id f) := by
  intro x hx
  by_cases hi : id = i
  · refine ⟨f x, ?_, h hi x hx⟩
    rw [connection?_update hf, if_pos hi.symm, hi, hx]
    rfl
  · refine ⟨x, ?_, .stay rfl (fun _ => rfl) fun ha => ha⟩
    rw [connection?_update hf, if_neg (Ne.symm hi), hx]

theorem finish (h : id = i → ∀ x, k.connection? i = some x →
    x.reader ≠ .ended ∧ x.writer.isEnded = true) : Strides now i k (k.finish id) := by
  refine update (k := k) (fun _ hc => hc) fun hi x hx => ?_
  obtain ⟨hr, he⟩ := h hi x hx
  exact .leave hr rfl rfl he

theorem windDown (h : k.IsReading id) (now i : Nat) : Strides now i k (k.windDown id now) := by
  unfold Connector.windDown
  split
  · exact refl now i k
  · next c hc =>
    have hreading := reader_of_isReading h hc
    -- The connection that is looked at is the one that goes down.
    have same (hi : id = i) (x : Connection) (hx : k.connection? i = some x) : x = c := by
      rw [hi] at hc
      exact Option.some.inj (hx.symm.trans hc)
    split
    · next he =>
      refine finish fun hi x hx => ?_
      rw [same hi x hx, hreading]
      exact ⟨by rintro ⟨⟩, he⟩
    · next he =>
      refine update (fun d hd => ?_) fun hi x hx => ?_
      · simp only [Connection.close]
        split <;> exact hd
      · rw [same hi x hx]
        refine .windDown hreading rfl ?_ (Bool.eq_false_iff.2 he)
        simp only [Connection.close]
        split <;> rfl

theorem fail (h : k.IsReading id) (now i : Nat) (f : Fault) :
    Strides now i k (k.fail id now f) := by
  have hpublish : (k.publish (.failed id f)).IsReading id := h
  exact after (.of_connections_eq rfl) (windDown hpublish now i)

theorem receive {c : Connection} (h : k.IsReading c.id) (now i : Nat) (bytes : List UInt8) :
    Strides now i k (k.receive c now bytes) := by
  unfold Connector.receive
  cases c.decoder.push k.settings.codec bytes with
  | mk bodies decoder =>
  have htake (j : Nat) : Keeps j k (k.update c.id fun c =>
      { c with decoder, activity := c.activity.record now }) :=
    .update (fun _ hc => hc) fun _ _ _ => ⟨rfl, rfl⟩
  cases bodies with
  | error f => exact after (htake i) (fail ((htake c.id).isReading h) now i f)
  | ok bodies =>
    dsimp only
    have hall (j : Nat) := (htake j).trans ((Keeps.accompanies j c.id).handleAll bodies _)
    split
    · next hl =>
      rw [hl] at hall
      exact of_keeps (hall i)
    · next f hl =>
      rw [hl] at hall
      exact after (hall i) (fail ((hall c.id).isReading h) now i f)

theorem stepWriter {c : Connection} (hc : k.connection? c.id = some c) (now i : Nat)
    {e : Writer.Event} (he : e ≠ .abandon) : Strides now i k (k.stepWriter c now e) := by
  obtain ⟨activity, hwrite⟩ := exists_connection?_stepWriter hc now e
  intro x hx
  rw [hwrite]
  by_cases hi : i = c.id
  · rw [hi, hc] at hx
    cases hx
    rw [if_pos hi]
    refine ⟨_, rfl, .stay rfl (fun hended => ?_) (Writer.abandoned_of_step he)⟩
    rw [Writer.step_of_isEnded hended]
  · rw [if_neg hi]
    exact ⟨x, hx, .stay rfl (fun _ => rfl) fun h => h⟩

theorem stepReading {c : Connection} (hc : k.connection? c.id = some c)
    (hr : c.reader = .reading) (now i : Nat) (h : Happening) :
    Strides now i k (k.stepReading c now h) := by
  have hreading : k.IsReading c.id := ⟨c.state, by simp [face?, hc, Connection.face, hr]⟩
  cases h with
  | received bytes => exact receive hreading now i bytes
  | inputEnded => exact windDown hreading now i
  | inputFailed text => exact fail hreading now i _
  | sawClosing =>
    simp only [Connector.stepReading]
    split
    · exact windDown hreading now i
    · exact refl now i k
  | sawWriterEnd =>
    simp only [Connector.stepReading]
    split
    · next f _ => exact fail hreading now i f
    · split
      · exact windDown hreading now i
      · exact refl now i k
  | alarm =>
    simp only [Connector.stepReading]
    split
    · split
      · exact of_keeps (.heartbeat i k c now)
      · exact refl now i k
    · exact refl now i k
  | drained => exact refl now i k
  | gaveUp => exact refl now i k
  | writer e => exact refl now i k

theorem giveUp {c : Connection} {since : Nat} (hc : k.connection? c.id = some c)
    (hr : c.reader = .draining since) (hl : since + drainLimit ≤ now)
    (he : c.writer.isEnded = false) (i : Nat) :
    Strides now i k ((k.stepWriter c now .abandon).finish c.id) := by
  obtain ⟨activity, hwrite⟩ := exists_connection?_stepWriter hc now .abandon
  intro x hx
  rw [connection?_finish, hwrite, hwrite, if_pos rfl]
  by_cases hi : i = c.id
  · rw [hi, hc] at hx
    cases hx
    rw [if_pos hi]
    exact ⟨_, rfl, .giveUp hr hl rfl (Writer.phase_abandon he)⟩
  · rw [if_neg hi, if_neg hi]
    exact ⟨x, hx, .stay rfl (fun _ => rfl) fun h => h⟩

theorem stepDraining {c : Connection} {since : Nat} (hc : k.connection? c.id = some c)
    (hr : c.reader = .draining since) (now i : Nat) (h : Happening) :
    Strides now i k (k.stepDraining c since now h) := by
  cases h with
  | drained =>
    simp only [Connector.stepDraining]
    split
    · next he =>
      refine finish fun hi x hx => ?_
      rw [← hi, hc] at hx
      cases hx
      exact ⟨by rw [hr]; rintro ⟨⟩, he⟩
    · exact refl now i k
  | gaveUp =>
    simp only [Connector.stepDraining]
    split
    · next hg =>
      simp only [Bool.and_eq_true, decide_eq_true_eq, Bool.not_eq_true'] at hg
      exact giveUp hc hr hg.1 hg.2 i
    · exact refl now i k
  | _ => exact refl now i k

end Strides

/-- **What a turn does** to the reading side and the writer of a connection is a stride. -/
theorem exists_stride (k : Connector) (now : Nat) (t : Turn) (i : Nat) :
    Strides now i k (k.turn now t) := by
  cases t with
  | init => exact .of_keeps (.init i k)
  | openConnection => exact .of_keeps (.openConnection i k now)
  | ask r => exact .of_keeps (.perform i r k)
  | happening id h =>
    simp only [turn]
    unfold Connector.step
    split
    · exact .refl now i k
    · next c hc =>
      rw [← id_of_connection? hc] at hc
      split
      · split
        · exact .stepWriter hc now i (by rintro ⟨⟩)
        · exact .refl now i k
      · exact .refl now i k
      · next e _ he => exact .stepWriter hc now i he
      · split
        · next hr => exact .stepReading hc hr now i _
        · next hr => exact .stepDraining hc hr now i _
        · exact .refl now i k

end Connector

end Interchange
