import Interchange.Connector
import Mathlib.Logic.Relation

/-!
# What can happen to a connector

A `Change` is an indivisible change of the connections that are there: a request, the call of a
listener, one thing that the writer or the reading side of a connection does. `changes_step` says
that whatever happens to a connection between two points at which it waits is a succession of
changes, whatever the listeners are that are called meanwhile.

A `Passage` is what a change comes to for one connection, in terms of its `Face` and of what becomes
known about it. `Change.exists_passage` says that there are no other passages, so a fact about the
life of a connection is a fact about passages.
-/

namespace Interchange

/-! ## Faults that end a connection -/

namespace Geometry

theorem endsConnection_of_fieldValue {g : Geometry} {field : List UInt8} {f : Fault}
    (h : g.fieldValue field = .error f) : f.endsConnection = true := by
  unfold fieldValue at h
  split at h
  · split at h
    · cases h
      rfl
    · split at h
      · cases h
      · cases h
        rfl
  · cases h

theorem endsConnection_of_bodyLength {g : Geometry} {bytes : List UInt8} {f : Fault}
    (h : g.bodyLength bytes = .error f) : f.endsConnection = true := by
  unfold bodyLength at h
  cases hv : g.fieldValue ((bytes.drop g.offset).take g.width) with
  | error e =>
    rw [hv] at h
    cases h
    exact endsConnection_of_fieldValue hv
  | ok value =>
    rw [hv] at h
    simp only [bind, Except.bind] at h
    split at h
    · cases h
      rfl
    · split at h
      · cases h
        rfl
      · cases h

end Geometry

namespace Decoder

theorem endsConnection_of_next {c : Codec} {d e : Decoder} {f : Fault}
    (h : next c d = .fault f e) : f.endsConnection = true := by
  have body_ne {buffer : List UInt8} {n : Nat} : takeBody buffer n ≠ .fault f e := by
    simp only [takeBody]
    split <;> simp
  unfold next at h
  split at h
  · exact absurd h body_ne
  · split at h
    · next hl =>
      cases h
      unfold nextLength at hl
      split at hl
      · cases hl
      · cases hb : c.geometry.bodyLength d.buffer with
        | error e =>
          rw [hb] at hl
          cases hl
          exact Geometry.endsConnection_of_bodyLength hb
        | ok length =>
          rw [hb] at hl
          simp only [bind, Except.bind] at hl
          split at hl
          · cases hl
            rfl
          · cases hl
    · cases h
    · exact absurd h body_ne

/-- A fault of the framing ends the connection on which it arises. -/
theorem endsConnection_of_push {c : Codec} {d : Decoder} {piece : List UInt8} {f : Fault}
    (h : (d.push c piece).1 = .error f) : f.endsConnection = true := by
  unfold push at h
  simp only at h
  split at h
  · next hc =>
    generalize { d with buffer := d.buffer ++ piece } = e at h
    fun_induction drain c hc e with
    | case1 => cases h
    | case2 d g e hn =>
      cases h
      exact endsConnection_of_next hn
    | case3 d b rest hn bodies e hd ih =>
      rw [hd] at ih
      cases bodies with
      | error g => exact ih h
      | ok bs => cases h
  · unfold takeRaw at h
    split at h
    · cases h
    · split at h
      · cases h
        rfl
      · cases h

end Decoder

theorem Fault.endsConnection_ofListener (f : Fault) : f.ofListener.endsConnection = true := by
  cases f <;> rfl

/-- The fault of a dispatch ends the connection on which it arises. -/
theorem endsConnection_of_dispatch {ι σ : Type} {failFast : Bool}
    {call : ι → σ → σ × Except Failure Bool} {ls : List ι} {s : σ} {f : Fault}
    (h : (dispatch failFast call ls s).2 = .error f) : f.endsConnection = true := by
  induction ls generalizing s with
  | nil => cases h
  | cons l ls ih =>
    rw [dispatch] at h
    split at h
    · exact ih h
    · cases h
    · split at h
      · cases h
        exact Fault.endsConnection_ofListener _
      · exact ih h

section Dispatch

variable {ι ι' σ σ' : Type} {failFast : Bool} {call : ι → σ → σ × Except Failure Bool}
  {call' : ι' → σ' → σ' × Except Failure Bool}

/-- Two dispatches go the same way if their first listeners do the same and the rest goes the same
way. -/
theorem dispatch_cons_congr (f : σ → σ') {l : ι} {l' : ι'} {ls : List ι} {ls' : List ι'} {s : σ}
    {s' : σ'} (hfirst : call' l' s' = (call l s).map f id)
    (hrest : dispatch failFast call' ls' (f (call l s).1) =
      (dispatch failFast call ls (call l s).1).map f id) :
    dispatch failFast call' (l' :: ls') s' = (dispatch failFast call (l :: ls) s).map f id := by
  rw [dispatch, dispatch, hfirst]
  generalize call l s = x at hrest
  obtain ⟨s, answer⟩ := x
  cases answer with
  | ok goesOn =>
    cases goesOn with
    | true => exact hrest
    | false => rfl
  | error fault =>
    cases failFast with
    | true => rfl
    | false => exact hrest

/-- What every listener leaves as it was, the whole way of a message leaves as it was. -/
theorem dispatch_preserves {P : σ → Prop} (h : ∀ l s, P s → P (call l s).1) (ls : List ι) {s : σ}
    (hs : P s) : P (dispatch failFast call ls s).1 := by
  induction ls generalizing s with
  | nil => exact hs
  | cons l ls ih =>
    have hcall := h l s hs
    rw [dispatch]
    generalize call l s = x at hcall
    obtain ⟨s, answer⟩ := x
    cases answer with
    | ok goesOn =>
      cases goesOn with
      | true => exact ih hcall
      | false => exact hcall
    | error fault =>
      cases failFast with
      | true => exact hcall
      | false => exact ih hcall

end Dispatch

namespace Writer

/-- Whether a writer stands where it can come to without a fault. -/
def Phase.isFaultless : Phase → Bool
  | .ended (.error _) => false
  | .abandoned => false
  | _ => true

theorem isFaultless_release (w : Writer) (n : Nat) (last : Bool) :
    (w.release n last).phase.isFaultless = true := by
  cases last <;> rfl

theorem isFaultless_start (c : Codec) (w : Writer) (ms : List Queued) (last : Bool) :
    (start c w ms last).1.phase.isFaultless = true := by
  simp only [start]
  split
  · exact isFaultless_release w _ last
  · rfl

theorem isFaultless_gather (c : Codec) (w : Writer) (ms : List Queued) :
    (gather c w ms).1.phase.isFaultless = true := by
  unfold gather
  split
  · split
    · rfl
    · exact isFaultless_start c w ms false
  · exact isFaultless_start c w ms false

/-- Where an event makes a writer stand: where it stood, or where it comes to without a fault, or at
its end by a fault of the socket, or it is given up. -/
theorem phase_step (c : Codec) (w : Writer) (e : Event) :
    (w.step c e).1.phase = w.phase ∨ (w.step c e).1.phase.isFaultless = true ∨
      (∃ text, (w.step c e).1.phase = .ended (.error (.io text))) ∨
        e = .abandon ∧ (w.step c e).1.phase = .abandoned := by
  cases e with
  | wake =>
    simp only [step]
    split
    · split
      · split
        · exact .inl rfl
        · exact .inr (.inl rfl)
      · exact .inr (.inl (isFaultless_gather c w []))
    · exact .inr (.inl (isFaultless_gather c w _))
    · exact .inl rfl
  | closing =>
    simp only [step]
    split
    · exact .inr (.inl (isFaultless_start c _ _ true))
    · exact .inl rfl
  | wrote n =>
    simp only [step]
    split
    · split
      · exact .inr (.inr (.inl ⟨_, rfl⟩))
      · exact .inr (.inl rfl)
    · exact .inl rfl
  | failed text =>
    simp only [step]
    split
    · exact .inr (.inr (.inl ⟨text, rfl⟩))
    · exact .inl rfl
  | flushed =>
    simp only [step]
    split
    · split
      · exact .inr (.inl (isFaultless_release w _ _))
      · exact .inl rfl
    · exact .inl rfl
  | abandon =>
    simp only [step]
    split
    · exact .inr (.inr (.inr ⟨trivial, rfl⟩))
    · exact .inr (.inr (.inr ⟨trivial, rfl⟩))
    · exact .inr (.inr (.inr ⟨trivial, rfl⟩))
    · exact .inl rfl

/-- The only fault with which an event makes a writer end is one of the socket. -/
theorem io_of_step {c : Codec} {w : Writer} {e : Event} {f : Fault}
    (h : (w.step c e).1.phase = .ended (.error f)) :
    (∃ text, f = .io text) ∨ w.phase = .ended (.error f) := by
  rcases phase_step c w e with hp | hp | ⟨text, hp⟩ | ⟨-, hp⟩
  · exact .inr (hp.symm.trans h)
  · rw [h] at hp
    cases hp
  · rw [h] at hp
    cases hp
    exact .inl ⟨text, rfl⟩
  · rw [h] at hp
    cases hp

theorem endsConnection_of_step {c : Codec} {w : Writer} {e : Event} {f : Fault}
    (h : (w.step c e).1.phase = .ended (.error f)) :
    f.endsConnection = true ∨ w.phase = .ended (.error f) := by
  refine (io_of_step h).imp_left ?_
  rintro ⟨text, rfl⟩
  rfl

/-- A writer is given up by nothing else than being given up. -/
theorem abandoned_of_step {c : Codec} {w : Writer} {e : Event} (he : e ≠ .abandon)
    (h : (w.step c e).1.phase = .abandoned) : w.phase = .abandoned := by
  rcases phase_step c w e with hp | hp | ⟨text, hp⟩ | ⟨ha, -⟩
  · exact hp.symm.trans h
  · rw [h] at hp
    cases hp
  · rw [h] at hp
    cases hp
  · exact absurd ha he

end Writer

/-! ## Faces -/

namespace Connection

/-- What the life of a connection depends on. -/
structure Face where
  /-- What its reading side does. -/
  reader : Reader
  /-- Its state. -/
  state : State
  deriving DecidableEq, Repr

/-- The face of a connection. -/
def face (c : Connection) : Face := ⟨c.reader, c.state⟩

/-- The state of a connection once it was told to close. -/
def State.closed (s : State) : State := if s.isClosing then s else .closing

theorem face_close (c : Connection) : c.close.face = ⟨c.reader, c.state.closed⟩ := by
  unfold close State.closed face
  split <;> rfl

/-- Sending changes nothing but the queue, and is refused by a connection that is closing. -/
theorem send_cases (c : Connection) (m : Message) : ∃ queue,
    (c.send m).1 = { c with writer := { c.writer with queue } } ∧
      ∀ ticket, (c.send m).2 = .ok ticket → c.state.isClosing = false := by
  unfold send
  split
  · exact ⟨c.writer.queue, rfl, fun ticket h => by cases h⟩
  · next h => exact ⟨_, rfl, fun _ _ => Bool.eq_false_iff.2 h⟩

end Connection

namespace Connector

open Connection (Face)

/-- The face of the connection with a number. -/
def face? (k : Connector) (id : Nat) : Option Face := (k.connection? id).map Connection.face

/-- A connection reads. -/
def IsReading (k : Connector) (id : Nat) : Prop := ∃ s, k.face? id = some ⟨.reading, s⟩

/-- A connection waits for its writer. -/
def IsDraining (k : Connector) (id : Nat) : Prop :=
  ∃ since s, k.face? id = some ⟨.draining since, s⟩

section

variable {k : Connector} {id i : Nat} {c : Connection}

theorem id_of_connection? (h : k.connection? id = some c) : c.id = id :=
  Numbered.number_of_get? h

theorem connection?_update {f : Connection → Connection} (hf : ∀ c, c.id = id → (f c).id = id) :
    (k.update id f).connection? i =
      if i = id then (k.connection? id).map f else k.connection? i :=
  Numbered.get?_modify hf _

theorem face?_update {f : Connection → Connection} (hf : ∀ c, c.id = id → (f c).id = id) :
    (k.update id f).face? i =
      if i = id then (k.connection? id).map fun c => (f c).face else k.face? i := by
  unfold face?
  rw [connection?_update hf]
  split
  · rw [Option.map_map]
    rfl
  · rfl

/-- A change that keeps every face is not seen. -/
theorem face?_update_of_eq {f : Connection → Connection} (hi : ∀ c, c.id = id → (f c).id = id)
    (hf : ∀ c, k.connection? id = some c → (f c).face = c.face) :
    (k.update id f).face? i = k.face? i := by
  rw [face?_update hi]
  split
  · next h =>
    rw [h, face?]
    cases hc : k.connection? id with
    | none => rfl
    | some c => simp [hf c hc]
  · rfl

@[simp] theorem face?_note (ns : List Notice) : (k.note ns).face? i = k.face? i := rfl

@[simp] theorem face?_publish (e : Connection.Event) : (k.publish e).face? i = k.face? i := rfl

theorem face?_close : (k.close id).face? i =
    if i = id then (k.face? id).map fun f => ⟨f.reader, f.state.closed⟩ else k.face? i := by
  have hi : ∀ c : Connection, c.id = id → c.close.id = id := by
    intro c hc
    unfold Connection.close
    split <;> exact hc
  rw [close, face?_update hi]
  split
  · simp only [face?, Option.map_map, Function.comp_def, Connection.face_close]
    rfl
  · rfl

end

/-! ## Changes -/

/-- What ends the reading side of a connection with a fault: a fault that ends connections, or the
fault with which its writer ended. -/
def Raises (k : Connector) (id : Nat) (f : Fault) : Prop :=
  f.endsConnection = true ∨ ∃ c, k.connection? id = some c ∧ c.writer.phase = .ended (.error f)

/-- An indivisible change of the connections that are there. -/
inductive Change : Connector → Connector → Prop
  /-- Somebody sends a message. -/
  | send (k : Connector) (id : Nat) (m : Message) : Change k (k.send id m).1
  /-- Somebody closes a connection. -/
  | close (k : Connector) (id : Nat) : Change k (k.close id)
  /-- Somebody changes the chain of listeners, or the connector is initialized. -/
  | arrange (k : Connector) (chain : Chain) {initialized : Bool}
    (hi : k.initialized = true → initialized = true) :
    Change k { k with chain, initialized }
  /-- A message that arrived is logged. -/
  | log (k : Connector) (id : Nat) (m : Message) : Change k (k.note (k.logLine id .inbound m))
  /-- A listener is called. -/
  | call {k : Connector} {id : Nat} (h : k.IsReading id) (l : ListenerId) (mti : UInt16) :
    Change k (k.note [.called l id mti])
  /-- A body that arrived is no message. -/
  | reject {k : Connector} {id : Nat} (h : k.IsReading id) (f : Pack.Fault) :
    Change k (k.publish (.failed id (.parse f)))
  /-- A connection takes bytes, or notes that something passed over it. -/
  | refresh (k : Connector) (id : Nat) {f : Connection → Connection}
    (hf : ∀ c, ∃ decoder activity, f c = { c with decoder, activity }) : Change k (k.update id f)
  /-- Something happens to a writer. -/
  | write {k : Connector} {c : Connection} (hc : k.connection? c.id = some c) (now : Nat)
    (e : Writer.Event) : Change k (k.stepWriter c now e)
  /-- A connection stops reading. -/
  | windDown {k : Connector} {id : Nat} (h : k.IsReading id) (now : Nat) :
    Change k (k.windDown id now)
  /-- A fault makes a connection stop reading. -/
  | fail {k : Connector} {id : Nat} (h : k.IsReading id) (now : Nat) {f : Fault}
    (hf : k.Raises id f) : Change k (k.fail id now f)
  /-- A connection that waited for its writer is gone. -/
  | finish {k : Connector} {id : Nat} (h : k.IsDraining id) : Change k (k.finish id)

/-- Changes one after the other. -/
abbrev Changes : Connector → Connector → Prop := Relation.ReflTransGen Change

section

variable {k k' : Connector} {id i : Nat}

/-- What sending does: nothing where there is no connection, else something to its queue. Where the
message is accepted, the connection was not closing. -/
theorem send_cases (k : Connector) (id : Nat) (m : Message) :
    (k.send id m).1 = k ∨ ∃ c queue, k.connection? id = some c ∧
      ((k.send id m).1 = k.update id (fun _ => { c with writer := { c.writer with queue } }) ∨
        c.state.isClosing = false ∧ ∃ ticket, (k.send id m).1 =
          (k.update id fun _ => { c with writer := { c.writer with queue } }).note
            [.accepted id ticket m]) := by
  unfold send
  split
  · exact .inl rfl
  · next c hc =>
    obtain ⟨queue, hq, hok⟩ := c.send_cases m
    right
    refine ⟨c, queue, hc, ?_⟩
    split
    · next c' ticket hs =>
      rw [hs] at hq hok
      exact .inr ⟨hok ticket rfl, ticket, by rw [← hq]⟩
    · next c' f hs =>
      rw [hs] at hq
      exact .inl (by rw [← hq])

theorem face?_send (m : Message) : (k.send id m).1.face? i = k.face? i := by
  have hsame (c : Connection) (queue : Queue) (hc : k.connection? id = some c) :
      (k.update id fun _ => { c with writer := { c.writer with queue } }).face? i = k.face? i := by
    have hid := id_of_connection? hc
    refine face?_update_of_eq (fun _ _ => hid) fun d hd => ?_
    cases hc.symm.trans hd
    rfl
  rcases k.send_cases id m with h | ⟨c, queue, hc, h | ⟨-, ticket, h⟩⟩
  · rw [h]
  · rw [h]
    exact hsame c queue hc
  · rw [h, face?_note]
    exact hsame c queue hc

theorem face?_stepWriter {c : Connection} {now : Nat} {e : Writer.Event} :
    (k.stepWriter c now e).face? i = k.face? i := by
  rw [stepWriter, face?_note]
  exact face?_update_of_eq (fun _ h => h) fun _ _ => rfl

/-- A connection that stops reading keeps its number and its writer. -/
theorem connections_windDown_eq (k : Connector) (id now : Nat) : ∃ f : Connection → Connection,
    (k.windDown id now).connections = Numbered.modify id f k.connections ∧
      (∀ c, (f c).id = c.id) ∧ ∀ c, (f c).writer = c.writer := by
  unfold windDown
  split
  · exact ⟨_, (Numbered.modify_id id _).symm, fun _ => rfl, fun _ => rfl⟩
  · split
    · exact ⟨_, rfl, fun _ => rfl, fun _ => rfl⟩
    · refine ⟨_, rfl, fun c => ?_, fun c => ?_⟩ <;> simp only [Connection.close] <;> split <;> rfl

/-- A fault with which a writer has ended, or that ends connections. -/
def HasRaised (k : Connector) (f : Fault) : Prop :=
  f.endsConnection = true ∨ ∃ c ∈ k.connections, c.writer.phase = .ended (.error f)

/-- At most one connection is changed, and keeps its number. The fault with which its writer has
ended then is none but one that was raised before, or one that ends connections. -/
def Touches (k k' : Connector) : Prop :=
  ∃ id f, k'.connections = Numbered.modify id f k.connections ∧ (∀ c, c.id = id → (f c).id = id) ∧
    ∀ c ∈ k.connections, ∀ g, (f c).writer.phase = .ended (.error g) → k.HasRaised g

namespace Touches

theorem of_writer {f : Connection → Connection}
    (hk : k'.connections = Numbered.modify id f k.connections) (hi : ∀ c, (f c).id = c.id)
    (hw : ∀ c, (f c).writer = c.writer) : Touches k k' :=
  ⟨id, f, hk, fun c h => (hi c).trans h, fun c hc _ hg => .inr ⟨c, hc, hw c ▸ hg⟩⟩

theorem of_eq (hk : k'.connections = k.connections) : Touches k k' :=
  of_writer (hk.trans (Numbered.modify_id 0 _).symm) (fun _ => rfl) fun _ => rfl

end Touches

/-- **A change touches one connection** at most. -/
theorem Change.touches (h : Change k k') : Touches k k' := by
  cases h with
  | send id m =>
    rcases k.send_cases id m with h | ⟨c, queue, hc, h⟩
    · exact .of_eq (by rw [h])
    · have hid : c.id = id := id_of_connection? hc
      refine ⟨id, fun _ => { c with writer := { c.writer with queue } }, ?_, fun _ _ => hid,
        fun _ _ g hg => .inr ⟨c, Numbered.mem_of_get? hc, hg⟩⟩
      rcases h with h | ⟨-, ticket, h⟩ <;> rw [h] <;> rfl
  | close id =>
    refine .of_writer rfl (fun c => ?_) fun c => ?_ <;> simp only [Connection.close] <;>
      split <;> rfl
  | arrange chain hi => exact .of_eq rfl
  | log id m => exact .of_eq rfl
  | call h l mti => exact .of_eq rfl
  | reject h f => exact .of_eq rfl
  | refresh id hf =>
    refine .of_writer rfl (fun c => ?_) fun c => ?_ <;>
      obtain ⟨decoder, activity, hd⟩ := hf c <;> rw [hd]
  | @write c hc now e =>
    refine ⟨c.id, _, rfl, fun _ h => h, fun d hd g hg => ?_⟩
    rcases Writer.endsConnection_of_step hg with hg | hg
    · exact .inl hg
    · exact .inr ⟨c, Numbered.mem_of_get? hc, hg⟩
  | @windDown id h now =>
    obtain ⟨f, hk, hi, hw⟩ := k.connections_windDown_eq id now
    exact .of_writer hk hi hw
  | @fail id h now f hf =>
    obtain ⟨f, hk, hi, hw⟩ := (k.publish (.failed id f)).connections_windDown_eq id now
    exact .of_writer hk hi hw
  | finish h => exact .of_writer rfl (fun _ => rfl) fun _ => rfl

/-- A connection keeps its number. -/
theorem Changes.map_id (h : Changes k k') :
    k'.connections.map (·.id) = k.connections.map (·.id) := by
  induction h with
  | refl => rfl
  | tail _ hstep ih =>
    obtain ⟨id, f, hk, hid, -⟩ := hstep.touches
    rw [hk, Numbered.map_modify_of_eq (·.id) fun c hc => (hid c hc).trans hc.symm, ih]

/-- What is initialized stays so. -/
theorem Change.initialized (h : Change k k') (hk : k.initialized = true) :
    k'.initialized = true := by
  have hdown (k : Connector) (id now : Nat) : (k.windDown id now).initialized = k.initialized := by
    unfold Connector.windDown
    split
    · rfl
    · split <;> rfl
  cases h with
  | send id m => rcases k.send_cases id m with h | ⟨c, queue, -, h | ⟨-, ticket, h⟩⟩ <;> rwa [h]
  | arrange chain hi => exact hi hk
  | windDown h now => rwa [hdown]
  | fail h now hf => rwa [Connector.fail, hdown]
  | _ => exact hk

/-- What a connector was told, and the listeners that have names, stay as they are. -/
theorem Change.configured (h : Change k k') :
    k'.settings = k.settings ∧ k'.version = k.version ∧ k'.registry = k.registry := by
  have hdown (k : Connector) (id now : Nat) : (k.windDown id now).settings = k.settings ∧
      (k.windDown id now).version = k.version ∧ (k.windDown id now).registry = k.registry := by
    unfold Connector.windDown
    split
    · exact ⟨rfl, rfl, rfl⟩
    · split <;> exact ⟨rfl, rfl, rfl⟩
  cases h with
  | send id m =>
    rcases k.send_cases id m with h | ⟨c, queue, -, h | ⟨-, ticket, h⟩⟩ <;> rw [h] <;>
      exact ⟨rfl, rfl, rfl⟩
  | windDown h now => exact hdown ..
  | fail h now hf => exact hdown ..
  | _ => exact ⟨rfl, rfl, rfl⟩

/-! ## What listeners do -/

theorem perform_send (k : Connector) (id : Nat) (m : Message) :
    (perform (.send id m) k).1 = (k.send id m).1 := by
  simp only [perform]
  split <;> simp_all

/-- A relation that holds from before to after everything that is done while bodies are taken that
arrived on a connection: requests of listeners, and what is put down about the bodies. -/
structure Accompanies (id : Nat) (R : Connector → Connector → Prop) : Prop where
  refl : ∀ k, R k k
  trans : ∀ {k₁ k₂ k₃}, R k₁ k₂ → R k₂ k₃ → R k₁ k₃
  perform : ∀ r k, R k (perform r k).1
  log : ∀ m k, R k (k.note (k.logLine id .inbound m))
  call : ∀ l mti k, R k (k.note [.called l id mti])
  reject : ∀ f k, R k (k.publish (.failed id (.parse f)))

namespace Accompanies

variable {R : Connector → Connector → Prop}

/-- Whatever a handler asks for. -/
theorem run (h : Accompanies id R) (handler : Handler) (k : Connector) :
    R k (handler.run Connector.perform k).1 := by
  induction handler generalizing k with
  | done r => exact h.refl k
  | ask r next ih => exact h.trans (h.perform r k) (ih _ _)

theorem applied (h : Accompanies id R) (m : Message) (l : ListenerId) (k : Connector) :
    R k (k.call id m l).1 := by
  unfold Connector.call
  split
  · exact h.refl k
  · exact h.refl k
  · exact h.trans (h.call l m.mti k) (h.run _ _)

theorem dispatch (h : Accompanies id R) (m : Message) (failFast : Bool) (ls : List ListenerId)
    (k : Connector) : R k (Interchange.dispatch failFast (Connector.call id m) ls k).1 := by
  refine dispatch_preserves (fun l k' hk' => ?_) ls (h.refl k)
  exact h.trans hk' (h.applied m l k')

theorem handle (h : Accompanies id R) (body : List UInt8) (k : Connector) :
    R k (k.handle id body).1 := by
  unfold Connector.handle
  split
  · next m _ => exact h.trans (h.log m k) (h.dispatch m _ _ _)
  · next f _ =>
    refine h.trans ?_ (h.reject f _)
    unfold Connector.reject
    split
    · rw [← perform_send]
      exact h.perform _ k
    · exact h.refl k

/-- **Bodies are taken** one after the other. -/
theorem handleAll (h : Accompanies id R) (bodies : List (List UInt8)) (k : Connector) :
    R k (k.handleAll id bodies).1 := by
  induction bodies generalizing k with
  | nil => exact h.refl k
  | cons b bs ih =>
    have hb := h.handle b k
    rw [Connector.handleAll]
    split
    · next hl =>
      rw [hl] at hb
      exact h.trans hb (ih _)
    · next hl => rwa [hl] at hb

end Accompanies

/-- Changes that stop no reading side. -/
structure Meanwhile (k k' : Connector) : Prop where
  /-- They are changes. -/
  changes : Changes k k'
  /-- A connection that reads goes on reading. -/
  reading : ∀ id, k.IsReading id → k'.IsReading id

namespace Meanwhile

theorem refl (k : Connector) : Meanwhile k k := ⟨Relation.ReflTransGen.refl, fun _ h => h⟩

theorem trans {k₁ k₂ k₃ : Connector} (h₁ : Meanwhile k₁ k₂) (h₂ : Meanwhile k₂ k₃) :
    Meanwhile k₁ k₃ :=
  ⟨h₁.changes.trans h₂.changes, fun id h => h₂.reading id (h₁.reading id h)⟩

theorem of_face? (h : Change k k') (hf : ∀ i, k'.face? i = k.face? i) : Meanwhile k k' :=
  ⟨Relation.ReflTransGen.single h, fun i ⟨s, hs⟩ => ⟨s, (hf i).trans hs⟩⟩

theorem send (k : Connector) (id : Nat) (m : Message) : Meanwhile k (k.send id m).1 :=
  of_face? (.send k id m) fun _ => face?_send m

theorem close (k : Connector) (id : Nat) : Meanwhile k (k.close id) := by
  refine ⟨Relation.ReflTransGen.single (.close k id), fun i ⟨s, hs⟩ => ?_⟩
  unfold IsReading
  rw [face?_close]
  split
  · next h => exact ⟨s.closed, by rw [← h, hs]; rfl⟩
  · exact ⟨s, hs⟩

theorem arrange (k : Connector) (chain : Chain) : Meanwhile k { k with chain } :=
  of_face? (.arrange k chain fun h => h) fun _ => rfl

theorem perform (r : Request) (k : Connector) : Meanwhile k (perform r k).1 := by
  cases r with
  | send id m =>
    rw [perform_send]
    exact .send k id m
  | close id => exact .close k id
  | append l => exact .arrange k _
  | insertFirst l => exact .arrange k _
  | remove l => exact .arrange k _

/-- Where a connection reads, all that is done while its bodies are taken stops no reading side. -/
theorem accompanies (id : Nat) :
    Accompanies id fun k k' => k.IsReading id → Meanwhile k k' where
  refl k _ := refl k
  trans h₁ h₂ h := (h₁ h).trans (h₂ ((h₁ h).reading id h))
  perform r k _ := perform r k
  log m k _ := of_face? (.log k id m) fun _ => rfl
  call l mti _ h := of_face? (.call h l mti) fun _ => rfl
  reject f _ h := of_face? (.reject h f) fun _ => rfl

theorem handleAll (h : k.IsReading id) (bodies : List (List UInt8)) :
    Meanwhile k (k.handleAll id bodies).1 :=
  (accompanies id).handleAll bodies k h

end Meanwhile

theorem endsConnection_of_handle {body : List UInt8} {f : Fault}
    (h : (k.handle id body).2 = .error f) : f.endsConnection = true := by
  unfold handle at h
  split at h
  · exact endsConnection_of_dispatch h
  · cases h

theorem endsConnection_of_handleAll {bodies : List (List UInt8)} {f : Fault}
    (h : (k.handleAll id bodies).2 = .error f) : f.endsConnection = true := by
  induction bodies generalizing k with
  | nil => cases h
  | cons b bs ih =>
    rw [handleAll] at h
    split at h
    · exact ih h
    · next hb =>
      cases h
      exact endsConnection_of_handle (congrArg Prod.snd hb)

/-! ## Steps are changes -/

theorem isReading_update {f : Connection → Connection}
    (hf : ∀ c, ∃ decoder activity, f c = { c with decoder, activity }) (h : k.IsReading i) :
    (k.update id f).IsReading i := by
  obtain ⟨s, hs⟩ := h
  refine ⟨s, (face?_update_of_eq (fun c hc => ?_) fun c _ => ?_).trans hs⟩
  · obtain ⟨decoder, activity, hd⟩ := hf c
    rw [hd]
    exact hc
  · obtain ⟨decoder, activity, hd⟩ := hf c
    rw [hd]
    rfl

theorem changes_receive {c : Connection} (h : k.IsReading c.id) (now : Nat) (bytes : List UInt8) :
    Changes k (k.receive c now bytes) := by
  unfold receive
  cases hp : c.decoder.push k.settings.codec bytes with
  | mk bodies decoder =>
  have hf : ∀ d : Connection, ∃ decoder' activity,
      ({ d with decoder, activity := d.activity.record now } : Connection) =
        { d with decoder := decoder', activity } := fun d => ⟨_, _, rfl⟩
  have hfirst := Relation.ReflTransGen.single (Change.refresh k c.id hf)
  have hread : (k.update c.id _).IsReading c.id := isReading_update hf h
  cases bodies with
  | error f =>
    exact hfirst.tail (.fail hread now (.inl (Decoder.endsConnection_of_push (by rw [hp]))))
  | ok bodies =>
    simp only
    have hall := Meanwhile.handleAll hread bodies
    refine hfirst.trans ?_
    split
    · next ha =>
      rw [ha] at hall
      exact hall.changes
    · next ha =>
      have hfault := endsConnection_of_handleAll (congrArg Prod.snd ha)
      rw [ha] at hall
      exact hall.changes.tail (.fail (hall.reading _ hread) now (.inl hfault))

theorem changes_heartbeat (k : Connector) (c : Connection) (now : Nat) :
    Changes k (k.heartbeat c now) := by
  unfold heartbeat
  have hsend := Relation.ReflTransGen.single (Change.send k c.id (.echoRequest k.version))
  split
  · next hs =>
    rw [hs] at hsend
    exact hsend.tail (.refresh _ _ fun d => ⟨_, _, rfl⟩)
  · next hs =>
    rw [hs] at hsend
    exact hsend

theorem changes_stepReading {c : Connection} (hc : k.connection? c.id = some c)
    (h : c.reader = .reading) (now : Nat) (e : Happening) : Changes k (k.stepReading c now e) := by
  have hread : k.IsReading c.id := ⟨c.state, by simp [face?, hc, Connection.face, h]⟩
  have hdown : Changes k (k.windDown c.id now) := .single (.windDown hread now)
  cases e with
  | received bytes => exact changes_receive hread now bytes
  | inputEnded => exact hdown
  | inputFailed text => exact .single (.fail hread now (.inl rfl))
  | sawClosing =>
    simp only [stepReading]
    split
    · exact hdown
    · exact .refl
  | sawWriterEnd =>
    simp only [stepReading]
    split
    · next f hf => exact .single (.fail hread now (.inr ⟨c, hc, hf⟩))
    · split
      · exact hdown
      · exact .refl
  | alarm =>
    simp only [stepReading]
    split
    · split
      · exact changes_heartbeat k c now
      · exact .refl
    · exact .refl
  | drained => exact .refl
  | gaveUp => exact .refl
  | writer e => exact .refl

theorem changes_stepDraining {c : Connection} {since : Nat} (hc : k.connection? c.id = some c)
    (h : c.reader = .draining since) (now : Nat) (e : Happening) :
    Changes k (k.stepDraining c since now e) := by
  have hdrain : k.IsDraining c.id := ⟨since, c.state, by simp [face?, hc, Connection.face, h]⟩
  cases e with
  | drained =>
    simp only [stepDraining]
    split
    · exact .single (.finish hdrain)
    · exact .refl
  | gaveUp =>
    simp only [stepDraining]
    split
    · refine .tail (.single (.write hc now .abandon)) (.finish ?_)
      obtain ⟨since, s, hs⟩ := hdrain
      exact ⟨since, s, face?_stepWriter.trans hs⟩
    · exact .refl
  | received => exact .refl
  | inputEnded => exact .refl
  | inputFailed => exact .refl
  | sawClosing => exact .refl
  | sawWriterEnd => exact .refl
  | alarm => exact .refl
  | writer => exact .refl

/-- **Whatever happens to a connection** comes to changes, one after the other. -/
theorem changes_step (k : Connector) (id now : Nat) (h : Happening) :
    Changes k (k.step id now h) := by
  unfold step
  split
  · exact .refl
  · next c hc =>
    rw [← id_of_connection? hc] at hc
    split
    · split
      · exact .single (.write hc now .closing)
      · exact .refl
    · exact .refl
    · exact .single (.write hc now _)
    · split
      · next hr => exact changes_stepReading hc hr now _
      · next hr => exact changes_stepDraining hc hr now _
      · exact .refl

end

end Connector

/-! ## What a change is for one connection -/

/-- Whether a notice tells of the life of a connection: it is an event of the connection, or the
call of a listener for it, or a message that was accepted on it. -/
def Notice.tells (i : Nat) : Notice → Bool
  | .published e => e.id = i
  | .called _ id _ => id = i
  | .accepted id _ _ => id = i
  | _ => false

/-- What notices tell of the life of a connection. -/
def Notice.story (i : Nat) (ns : List Notice) : List Notice := ns.filter (Notice.tells i)

/-- The fault that made a connection stop reading, as it becomes known. -/
def Notice.downfall (i : Nat) (f? : Option Fault) : List Notice :=
  f?.toList.map fun f => .published (.failed i f)

open Notice Connection in
/-- What happens to the face of a connection in a change, and what the change tells of it. The
faults that can make it stop reading are given. -/
inductive Passage (raises : Fault → Prop) (i : Nat) :
    Option Face → List Notice → Option Face → Prop
  /-- Nothing happens to it. -/
  | stay (f? : Option Face) : Passage raises i f? [] f?
  /-- It accepts a message. -/
  | accept {r : Reader} {s : State} (hs : s.isClosing = false) (ticket : Nat) (m : Message) :
    Passage raises i (some ⟨r, s⟩) [.accepted i ticket m] (some ⟨r, s⟩)
  /-- It is told to close. -/
  | close (r : Reader) (s : State) : Passage raises i (some ⟨r, s⟩) [] (some ⟨r, s.closed⟩)
  /-- A listener is called for it. -/
  | call (s : State) (l : ListenerId) (mti : UInt16) :
    Passage raises i (some ⟨.reading, s⟩) [.called l i mti] (some ⟨.reading, s⟩)
  /-- A body that arrived on it is no message. -/
  | reject (s : State) (f : Pack.Fault) :
    Passage raises i (some ⟨.reading, s⟩) [.published (.failed i (.parse f))]
      (some ⟨.reading, s⟩)
  /-- It stops reading and waits for its writer. -/
  | windDown (s : State) {f? : Option Fault} (hf : ∀ f ∈ f?, raises f) (now : Nat) :
    Passage raises i (some ⟨.reading, s⟩) (downfall i f?) (some ⟨.draining now, s.closed⟩)
  /-- It stops reading and is gone, since its writer has ended before. -/
  | quit (s : State) {f? : Option Fault} (hf : ∀ f ∈ f?, raises f) :
    Passage raises i (some ⟨.reading, s⟩) (downfall i f? ++ [.published (.closed i)])
      (some ⟨.ended, .disconnected⟩)
  /-- It has waited for its writer, and is gone. -/
  | finish (since : Nat) (s : State) :
    Passage raises i (some ⟨.draining since, s⟩) [.published (.closed i)]
      (some ⟨.ended, .disconnected⟩)

namespace Connector

open Notice

variable {k k' : Connector} {id i : Nat}

@[simp] theorem story_append (ms ns : List Notice) :
    story i (ms ++ ns) = story i ms ++ story i ns :=
  List.filter_append ..

@[simp] theorem story_downfall (f? : Option Fault) : story i (downfall i f?) = downfall i f? := by
  cases f? <;> simp [downfall, story, tells, Connection.Event.id]

theorem story_downfall_of_ne (h : i ≠ id) (f? : Option Fault) : story i (downfall id f?) = [] := by
  cases f? with
  | none => rfl
  | some f => simp [downfall, story, tells, Connection.Event.id, Ne.symm h]

theorem story_logLine (d : Direction) (m : Message) : story i (k.logLine id d m) = [] := by
  unfold logLine
  split <;> rfl

/-- The writer of a connection tells nothing of its life. -/
theorem story_notices (ss : List Signal) : story i (ss.flatMap (k.notices id)) = [] := by
  induction ss with
  | nil => rfl
  | cons s ss ih =>
    rw [List.flatMap_cons, story_append, ih, List.append_nil]
    cases s with
    | logged m => exact story_logLine _ m
    | sent => rfl
    | active => rfl
    | resolved => rfl
    | shut => rfl

theorem face?_finish : (k.finish id).face? i =
    if i = id then (k.face? id).map fun _ => ⟨.ended, .disconnected⟩ else k.face? i := by
  rw [finish, face?_publish, face?_update]
  · split
    · simp only [face?, Option.map_map, Function.comp_def, Connection.face]
    · rfl
  · exact fun _ h => h

/-- A connection that stops reading waits for its writer or is gone. -/
theorem exists_passage_windDown (h : k.IsReading id) {raises : Fault → Prop} {f? : Option Fault}
    (hf : i = id → ∀ f ∈ f?, raises f) (now : Nat) :
    ∃ ns, (k.windDown id now).history = k.history ++ ns ∧
      Passage raises i (k.face? i) (story i (downfall id f? ++ ns))
        ((k.windDown id now).face? i) := by
  obtain ⟨s, hs⟩ := h
  obtain ⟨c, hc, hface⟩ := Option.map_eq_some_iff.1 hs
  have hr : c.reader = .reading := congrArg Connection.Face.reader hface
  unfold windDown
  simp only [hc]
  split
  · refine ⟨[.published (.closed id)], rfl, ?_⟩
    rw [face?_finish]
    split
    · next hi =>
      subst hi
      rw [story_append, story_downfall, hs]
      have hclosed : story i [.published (.closed i)] = [.published (.closed i)] := by
        simp [story, tells, Connection.Event.id]
      rw [hclosed]
      exact .quit s (hf rfl)
    · next hi =>
      have hclosed : story i [.published (.closed id)] = [] := by
        simp [story, tells, Connection.Event.id, Ne.symm hi]
      rw [story_append, story_downfall_of_ne hi, hclosed]
      exact .stay _
  · refine ⟨[], (List.append_nil _).symm, ?_⟩
    rw [List.append_nil, face?_update]
    · split
      · next hi =>
        subst hi
        rw [story_downfall, hs, hc]
        have hd : c.state = s := congrArg Connection.Face.state hface
        have hdown := Connection.face_close c
        simp only [Option.map_some, Connection.face, Connection.Face.mk.injEq] at hdown ⊢
        rw [hdown.2, hd]
        exact .windDown s (hf rfl) now
      · next hi =>
        rw [story_downfall_of_ne hi]
        exact .stay _
    · intro d hd
      simp only [Connection.close]
      split <;> exact hd

/-- **A change is a passage** of every connection, most of them to where they were. -/
theorem Change.exists_passage (h : Change k k') (i : Nat) :
    ∃ ns, k'.history = k.history ++ ns ∧
      Passage (k.Raises i) i (k.face? i) (story i ns) (k'.face? i) := by
  have quiet {ns : List Notice} (hh : k'.history = k.history ++ ns) (hs : story i ns = [])
      (hf : k'.face? i = k.face? i) : ∃ ns, k'.history = k.history ++ ns ∧
        Passage (k.Raises i) i (k.face? i) (story i ns) (k'.face? i) := by
    refine ⟨ns, hh, ?_⟩
    rw [hs, hf]
    exact .stay _
  cases h with
  | send id m =>
    rcases k.send_cases id m with h | ⟨c, queue, hc, h | ⟨hs, ticket, h⟩⟩
    · exact quiet (by rw [h, List.append_nil]) rfl (by rw [h])
    · exact quiet (by rw [h, List.append_nil]; rfl) rfl (face?_send m)
    · by_cases hi : i = id
      · subst hi
        refine ⟨[.accepted i ticket m], by rw [h]; rfl, ?_⟩
        rw [face?_send, face?, hc]
        simpa [story, tells, Connection.face] using Passage.accept hs ticket m
      · exact quiet (by rw [h]; rfl) (by simp [story, tells, Ne.symm hi]) (face?_send m)
  | close id =>
    by_cases hi : i = id
    · subst hi
      refine ⟨[], (List.append_nil _).symm, ?_⟩
      rw [face?_close, if_pos rfl]
      cases k.face? i with
      | none => exact .stay _
      | some f => exact .close f.reader f.state
    · exact quiet (List.append_nil _).symm rfl (by rw [face?_close, if_neg hi])
  | arrange chain hi => exact quiet (List.append_nil _).symm rfl rfl
  | log id m => exact quiet rfl (story_logLine _ m) rfl
  | @call id h l mti =>
    by_cases hi : i = id
    · subst hi
      obtain ⟨s, hs⟩ := h
      refine ⟨[.called l i mti], rfl, ?_⟩
      rw [face?_note, hs]
      simpa [story, tells] using Passage.call s l mti
    · exact quiet rfl (by simp [story, tells, Ne.symm hi]) rfl
  | @reject id h f =>
    by_cases hi : i = id
    · subst hi
      obtain ⟨s, hs⟩ := h
      refine ⟨[.published (.failed i (.parse f))], rfl, ?_⟩
      rw [face?_publish, hs]
      simpa [story, tells, Connection.Event.id] using Passage.reject s f
    · exact quiet rfl (by simp [story, tells, Connection.Event.id, Ne.symm hi]) rfl
  | refresh id hf =>
    refine quiet (List.append_nil _).symm rfl (face?_update_of_eq (fun c hc => ?_) fun c _ => ?_)
    · obtain ⟨decoder, activity, hd⟩ := hf c
      rw [hd]
      exact hc
    · obtain ⟨decoder, activity, hd⟩ := hf c
      rw [hd]
      rfl
  | write hc now e => exact quiet rfl (story_notices _) face?_stepWriter
  | @windDown id h now =>
    have hnone : i = id → ∀ g ∈ (none : Option Fault), k.Raises i g := by simp
    exact exists_passage_windDown h hnone now
  | @fail id h now f hf =>
    have hraises : i = id → ∀ g ∈ some f, k.Raises i g := by
      rintro rfl g hg
      cases hg
      exact hf
    obtain ⟨ns, hns, hp⟩ := exists_passage_windDown (k := k.publish (.failed id f)) h hraises now
    refine ⟨.published (.failed id f) :: ns, ?_, hp⟩
    rw [Connector.fail, hns]
    exact List.append_assoc ..
  | @finish id h =>
    by_cases hi : i = id
    · subst hi
      obtain ⟨since, s, hs⟩ := h
      refine ⟨[.published (.closed i)], rfl, ?_⟩
      rw [face?_finish, if_pos rfl, hs]
      simpa [story, tells, Connection.Event.id] using Passage.finish since s
    · refine quiet rfl ?_ (by rw [face?_finish, if_neg hi])
      simp [story, tells, Connection.Event.id, Ne.symm hi]

end Connector

end Interchange
