import Interchange.Proofs.Connector.Serving
import Interchange.Proofs.Frame.BeforeFault
import Mathlib.Data.List.Forall2

/-!
# What becomes of the bodies that arrive

The reading side of a connection takes the bodies that a read has completed one after the other. A
`Reception` is a connector with the bodies of one connection that are not taken yet; its acts are
the arrival of bytes, the taking of the next body, and anything that others do meanwhile, in any
order. `Reception.acts` turns a run of the connector into acts in which nobody comes between the
bodies of a read, and `Reception.run_acts` says that they come to the same.

`Processed` says what becomes of bodies: a message is logged and goes through the chain once, any
other body is answered if this is wanted and published as an error, and meanwhile nothing of the
input of the connection becomes known. `inbound_processed` says that the bodies of all frames are
processed, in their order and each of them once, however their bytes are cut, as long as nobody
closes the connection and its socket does not fail; `run_processed` says it of the runs of the
connector. A body that is no message makes no difference to the others.
-/

namespace Interchange

/-! ## Dispatches in which no listener fails -/

section

variable {ι σ : Type}

/-- Whether no listener fails of those that a message is shown to. -/
def untroubled (call : ι → σ → σ × Except Failure Bool) : List ι → σ → Bool
  | [], _ => true
  | l :: ls, s =>
    match call l s with
    | (s, .ok true) => untroubled call ls s
    | (_, .ok false) => true
    | (_, .error _) => false

/-- A dispatch succeeds where no listener fails. -/
theorem dispatch_of_untroubled {failFast : Bool} {call : ι → σ → σ × Except Failure Bool}
    {ls : List ι} {s : σ} (h : untroubled call ls s = true) :
    (dispatch failFast call ls s).2 = .ok () := by
  induction ls generalizing s with
  | nil => rfl
  | cons l ls ih =>
    rw [untroubled] at h
    rw [dispatch]
    generalize call l s = r at h ⊢
    obtain ⟨s', o⟩ := r
    cases o with
    | error f => cases h
    | ok goesOn =>
      cases goesOn with
      | true => exact ih h
      | false => rfl

/-- A dispatch succeeds where failures do not count. -/
theorem dispatch_of_not_failFast {call : ι → σ → σ × Except Failure Bool} (ls : List ι) (s : σ) :
    (dispatch false call ls s).2 = .ok () := by
  induction ls generalizing s with
  | nil => rfl
  | cons l ls ih =>
    rw [dispatch]
    split
    · exact ih _
    · rfl
    · exact ih _

end

namespace Connector

open Connection (InService)

variable {i : Nat} {k k' : Connector}

/-! ## The reading side and its surroundings -/

/-- A connector, and the bodies of a connection that have arrived and are not taken yet. -/
structure Reception where
  /-- The connector. -/
  connector : Connector
  /-- The bodies. -/
  bodies : List (List UInt8) := []

/-- What happens around the reading side of a connection. -/
inductive Act where
  /-- Others do something. -/
  | meanwhile (t : Turn)
  /-- A read gives bytes. -/
  | arrive (bytes : List UInt8)
  /-- The next body is taken. -/
  | take

/-- Whether an act leaves connection `i` in service, as far as others are concerned. -/
def Act.spares (i : Nat) : Act → Bool
  | .meanwhile t => t.spares i
  | _ => true

/-- Connection `i` took bytes, and now holds what a decoder holds. -/
def taking (k : Connector) (i : Nat) (decoder : Decoder) (now : Nat) : Connector :=
  k.update i fun c => { c with decoder, activity := c.activity.record now }

theorem connection?_taking {c : Connection} (hc : k.connection? i = some c) (d : Decoder)
    (now : Nat) : (k.taking i d now).connection? i =
      some { c with decoder := d, activity := c.activity.record now } := by
  rw [taking, connection?_update, if_pos rfl, hc]
  · rfl
  · exact fun _ h => h

namespace Reception

/-- Bytes arrive on connection `i`, if it reads. -/
def arrive (i now : Nat) (bytes : List UInt8) (s : Reception) : Reception :=
  match s.connector.connection? i with
  | none => s
  | some c =>
    if c.reader = .reading then
      let (bodies, decoder) := c.decoder.push s.connector.settings.codec bytes
      let k := s.connector.taking i decoder now
      match bodies with
      | .error f => { connector := k.fail i now f }
      | .ok bodies => { connector := k, bodies := s.bodies ++ bodies }
    else s

/-- The next body of connection `i` is taken. Behind a fault none is. -/
def take (i now : Nat) (s : Reception) : Reception :=
  match s.bodies with
  | [] => s
  | b :: bs =>
    match s.connector.handle i b with
    | (k, .ok ()) => { connector := k, bodies := bs }
    | (k, .error f) => { connector := k.fail i now f }

/-- Carry out an act. -/
def act (i now : Nat) (s : Reception) : Act → Reception
  | .meanwhile t => { s with connector := s.connector.turn now t }
  | .arrive bytes => s.arrive i now bytes
  | .take => s.take i now

/-- Carry out acts one after the other, each at its time. -/
def run (i : Nat) (s : Reception) (as : List (Nat × Act)) : Reception :=
  as.foldl (fun s a => s.act i a.1 a.2) s

/-- Whether no listener fails, where this counts, while the next body is taken. -/
def isCalm (i : Nat) (s : Reception) : Act → Bool
  | .take =>
    match s.bodies with
    | [] => true
    | b :: _ =>
      match Pack.parse b with
      | .ok m => !s.connector.settings.failOnListenerError ||
          untroubled (call i m) s.connector.chain
            (s.connector.note (s.connector.logLine i .inbound m))
      | .error _ => true
  | _ => true

/-- Whether all that happens leaves connection `i` in service: others spare it, and no listener
fails, where this counts, with a message of the connection. -/
def isUndisturbed (i : Nat) : Reception → List (Nat × Act) → Bool
  | _, [] => true
  | s, (now, a) :: as =>
    a.spares i && s.isCalm i a && isUndisturbed i (s.act i now a) as

end Reception

/-- The pieces in which bytes arrive. -/
def pieces (as : List (Nat × Act)) : List (List UInt8) :=
  as.filterMap fun a =>
    match a.2 with
    | .arrive bytes => some bytes
    | _ => none

/-- The bytes that arrive on connection `i` in a turn. -/
def Turn.piece? (i : Nat) : Turn → Option (List UInt8)
  | .happening id (.received bytes) => if id = i then some bytes else none
  | _ => none

theorem eq_received_of_piece? {t : Turn} {bytes : List UInt8} (h : t.piece? i = some bytes) :
    t = .happening i (.received bytes) := by
  unfold Turn.piece? at h
  split at h
  · split at h
    · next hi =>
      cases h
      rw [hi]
    · cases h
  · cases h

namespace Reception

/-! ### Reads that nobody comes between -/

/-- After a fault no body is taken. -/
theorem run_take_nil (i now n : Nat) (k : Connector) :
    run i ⟨k, []⟩ (List.replicate n (now, .take)) = ⟨k, []⟩ := by
  induction n with
  | zero => rfl
  | succ n ih => exact ih

/-- Bodies that nobody comes between are taken as one. -/
theorem run_take (i now : Nat) (k : Connector) (bodies : List (List UInt8)) :
    run i ⟨k, bodies⟩ (List.replicate bodies.length (now, .take)) =
      match k.handleAll i bodies with
      | (k, .ok ()) => ⟨k, []⟩
      | (k, .error f) => ⟨k.fail i now f, []⟩ := by
  induction bodies generalizing k with
  | nil => rfl
  | cons b bs ih =>
    have hfirst : run i ⟨k, b :: bs⟩ (List.replicate (b :: bs).length (now, .take)) =
        run i (take i now ⟨k, b :: bs⟩) (List.replicate bs.length (now, .take)) := rfl
    rw [hfirst, handleAll]
    cases hb : k.handle i b with
    | mk k' r =>
    cases r with
    | ok _ =>
      simp only [take, hb]
      exact ih k'
    | error f =>
      simp only [take, hb]
      exact run_take_nil ..

/-- The acts of a turn: a read is an arrival, and the taking of each body that it completes. -/
def actsOfTurn (i now : Nat) (k : Connector) (t : Turn) : List (Nat × Act) :=
  match t.piece? i with
  | some bytes => (now, .arrive bytes) ::
      List.replicate (arrive i now bytes ⟨k, []⟩).bodies.length (now, .take)
  | none => [(now, .meanwhile t)]

/-- The acts of turns one after the other, in which nobody comes between the bodies of a read. -/
def acts (i : Nat) : Connector → List (Nat × Turn) → List (Nat × Act)
  | _, [] => []
  | k, (now, t) :: ts => actsOfTurn i now k t ++ acts i (k.turn now t) ts

/-- A read is an arrival, and the taking of what it completes. -/
theorem run_received (i now : Nat) (k : Connector) (bytes : List UInt8) :
    run i ⟨k, []⟩ ((now, .arrive bytes) ::
        List.replicate (arrive i now bytes ⟨k, []⟩).bodies.length (now, .take)) =
      ⟨k.step i now (.received bytes), []⟩ := by
  refine (run_take i now (arrive i now bytes ⟨k, []⟩).connector _).trans ?_
  cases hc : k.connection? i with
  | none => simp only [arrive, hc, handleAll, Connector.step]
  | some c =>
    by_cases hr : c.reader = .reading
    · have hstep : k.step i now (.received bytes) = k.receive c now bytes := by
        simp only [Connector.step, hc, hr]
        rfl
      rw [hstep, receive, id_of_connection? hc]
      cases hp : c.decoder.push k.settings.codec bytes with
      | mk bodies decoder =>
      cases bodies with
      | error f =>
        simp only [arrive, hc, hr, ↓reduceIte, hp]
        rfl
      | ok bodies =>
        simp only [arrive, taking, hc, hr, ↓reduceIte, hp, List.nil_append]
        split <;> simp only [*]
    · simp only [arrive, hc, hr, ↓reduceIte, handleAll]
      cases hd : c.reader with
      | reading => exact absurd hd hr
      | draining since => simp [Connector.step, hc, hd, stepDraining]
      | ended => simp [Connector.step, hc, hd]

theorem run_actsOfTurn (i now : Nat) (k : Connector) (t : Turn) :
    run i ⟨k, []⟩ (actsOfTurn i now k t) = ⟨k.turn now t, []⟩ := by
  unfold actsOfTurn
  cases hp : t.piece? i with
  | none => rfl
  | some bytes =>
    cases eq_received_of_piece? hp
    exact run_received i now k bytes

theorem pieces_actsOfTurn (i now : Nat) (k : Connector) (t : Turn) :
    pieces (actsOfTurn i now k t) = (t.piece? i).toList := by
  unfold actsOfTurn
  cases t.piece? i with
  | none => rfl
  | some bytes => exact congrArg (bytes :: ·) (List.filterMap_replicate_of_none rfl)

theorem run_append (i : Nat) (s : Reception) (as bs : List (Nat × Act)) :
    run i s (as ++ bs) = run i (run i s as) bs :=
  List.foldl_append

/-- **A run of a connector** is a run of acts in which nobody comes between the bodies of a read. -/
theorem run_acts (i : Nat) (k : Connector) (ts : List (Nat × Turn)) :
    run i ⟨k, []⟩ (acts i k ts) = ⟨k.run ts, []⟩ := by
  induction ts generalizing k with
  | nil => rfl
  | cons t ts ih =>
    obtain ⟨now, t⟩ := t
    rw [acts, run_append, run_actsOfTurn]
    exact ih (k.turn now t)

/-- The bytes that arrive in a run of a connector are those of its acts. -/
theorem pieces_acts (i : Nat) (k : Connector) (ts : List (Nat × Turn)) :
    pieces (acts i k ts) = ts.filterMap fun t => t.2.piece? i := by
  induction ts generalizing k with
  | nil => rfl
  | cons t ts ih =>
    obtain ⟨now, t⟩ := t
    have hfirst := pieces_actsOfTurn i now k t
    have hrest := ih (k.turn now t)
    rw [pieces] at hfirst hrest
    rw [acts, pieces, List.filterMap_append, hfirst, hrest, List.filterMap_cons]
    cases t.piece? i <;> rfl

end Reception

/-! ## What becomes of a body -/

/-- What becomes known of the input of a connection when one of its bodies is taken. -/
inductive Word (k : Connector) (i : Nat) : List UInt8 → List Notice → Prop
  /-- A message is logged, and listeners are called with it. -/
  | message {b : List UInt8} {m : Message} (hb : Pack.parse b = .ok m) (ls : List ListenerId) :
    Word k i b (k.logLine i .inbound m ++ ls.map fun l => .called l i m.mti)
  /-- A body that is no message is published as an error. -/
  | fault {b : List UInt8} {f : Pack.Fault} (hb : Pack.parse b = .error f) :
    Word k i b [.published (.failed i (.parse f))]

/-- A connector answers a body that is no message, if this is wanted and the queue of the connection
has room, and publishes an error. -/
structure Rejects (i : Nat) (f : Pack.Fault) (k k' : Connector) : Prop where
  eq : k' = (k.reject i f).publish (.failed i (.parse f))
  history : ∃ c, k.connection? i = some c ∧ k'.history = k.history ++
    (if k.settings.replyOnError = true ∧ c.writer.queue.isFull = false then
      [.accepted i c.writer.queue.accepted (Reject.reply k.version f.message)] else []) ++
    [.published (.failed i (.parse f))]

/-- `Processed i k bs k'` says that bodies of connection `i` are processed one after the other, each
of them once, while `k` becomes `k'`, and that connection `i` stays in service. -/
inductive Processed (i : Nat) (k : Connector) : List (List UInt8) → Connector → Prop
  /-- No body was taken. -/
  | nothing : Processed i k [] k
  /-- Others do something, and nothing of the input of the connection becomes known. -/
  | meanwhile {bs : List (List UInt8)} {k₁ k₂ : Connector} (h : Processed i k bs k₁)
    (hs : Serves i k₁ [] k₂) : Processed i k bs k₂
  /-- Bytes arrive. -/
  | arrive {bs : List (List UInt8)} {k₁ : Connector} (h : Processed i k bs k₁) (d : Decoder)
    (now : Nat) : Processed i k bs (k₁.taking i d now)
  /-- A message is logged and goes through the chain: listeners are called in the order in which
  they stand there. -/
  | message {bs : List (List UInt8)} {k₁ k₂ : Connector} {b : List UInt8} {m : Message}
    {ls : List ListenerId} (h : Processed i k bs k₁) (hb : Pack.parse b = .ok m)
    (hd : (k₁.note (k₁.logLine i .inbound m)).dispatch i m = (k₂, .ok ()))
    (hl : ls.Sublist k₁.chain)
    (hs : Serves i k₁ (k₁.logLine i .inbound m ++ ls.map fun l => .called l i m.mti) k₂) :
    Processed i k (bs ++ [b]) k₂
  /-- Any other body is answered, if this is wanted, and published as an error. -/
  | fault {bs : List (List UInt8)} {k₁ k₂ : Connector} {b : List UInt8} {f : Pack.Fault}
    (h : Processed i k bs k₁) (hb : Pack.parse b = .error f) (hr : Rejects i f k₁ k₂)
    (hs : Serves i k₁ [.published (.failed i (.parse f))] k₂) : Processed i k (bs ++ [b]) k₂

namespace Processed

variable {bs : List (List UInt8)}

/-- **One word for each body** is what becomes known of the input of the connection, in the order of
the bodies. -/
theorem exists_words (h : Processed i k bs k') :
    ∃ ws, List.Forall₂ (Word k i) bs ws ∧ Tells i k ws.flatten k' := by
  have quiet {ws : List (List Notice)} {k₁ k₂ : Connector} (h : Tells i k ws.flatten k₁)
      (ht : Tells i k₁ [] k₂) : Tells i k ws.flatten k₂ := by
    simpa using h.trans ht
  induction h with
  | nothing => exact ⟨[], .nil, .of_history_eq rfl rfl rfl rfl⟩
  | meanwhile h hs ih =>
    obtain ⟨ws, hws, hk⟩ := ih
    exact ⟨ws, hws, quiet hk hs.toTells⟩
  | arrive h d now ih =>
    obtain ⟨ws, hws, hk⟩ := ih
    exact ⟨ws, hws, quiet hk (.of_history_eq rfl rfl rfl rfl)⟩
  | @message bs k₁ k₂ b m ls h hb hd hl hs ih =>
    obtain ⟨ws, hws, hk⟩ := ih
    have hlog : k₁.logLine i .inbound m = k.logLine i .inbound m := by
      unfold logLine
      rw [hk.settings]
    refine ⟨ws ++ [k.logLine i .inbound m ++ ls.map fun l => .called l i m.mti], ?_, ?_⟩
    · exact List.rel_append hws (.cons (.message hb ls) .nil)
    · rw [List.flatten_append, List.flatten_singleton, ← hlog]
      exact hk.trans hs.toTells
  | @fault bs k₁ k₂ b f h hb hr hs ih =>
    obtain ⟨ws, hws, hk⟩ := ih
    refine ⟨ws ++ [[.published (.failed i (.parse f))]], ?_, ?_⟩
    · exact List.rel_append hws (.cons (.fault hb) .nil)
    · rw [List.flatten_append, List.flatten_singleton]
      exact hk.trans hs.toTells

theorem tells (h : Processed i k bs k') : ∃ ns, Tells i k ns k' := by
  obtain ⟨ws, -, ht⟩ := h.exists_words
  exact ⟨_, ht⟩

end Processed

/-! ## The next body -/

theorem input_called_self (i : Nat) (ls : List ListenerId) (mti : UInt16) :
    Notice.input i (ls.map fun l => .called l i mti) = ls.map fun l => .called l i mti := by
  rw [Notice.input, List.filter_eq_self]
  simp [Notice.isInput]

theorem input_logLine_self (i : Nat) (k : Connector) (m : Message) :
    Notice.input i (k.logLine i .inbound m) = k.logLine i .inbound m := by
  unfold logLine
  split
  · simp [Notice.input, Notice.isInput]
  · rfl

/-- A connection in service answers a body that is no message, unless its queue is full. -/
theorem rejects {c : Connection} (hc : k.connection? i = some c) (hs : c.InService)
    (f : Pack.Fault) : Rejects i f k ((k.reject i f).publish (.failed i (.parse f))) where
  eq := rfl
  history := by
    refine ⟨c, hc, ?_⟩
    have hreject : (k.reject i f).history = k.history ++
        (if k.settings.replyOnError = true ∧ c.writer.queue.isFull = false then
          [.accepted i c.writer.queue.accepted (Reject.reply k.version f.message)] else []) := by
      unfold reject
      split
      · next hreply =>
        have hresult := hs.send_result (Reject.reply k.version f.message)
        simp only [Connector.send, hc]
        cases hsend : c.send (Reject.reply k.version f.message) with
        | mk c' r =>
        rw [hsend] at hresult
        cases hfull : c.writer.queue.isFull with
        | true =>
          rw [hfull] at hresult
          cases hresult
          simp [Connector.update]
        | false =>
          rw [hfull] at hresult
          cases hresult
          simp [Connector.update, Connector.note, hreply]
      · next hreply => simp [hreply]
    rw [← hreject]
    rfl

/-- **The next body is processed**, and no fault arises. -/
theorem Processed.handle {k₀ : Connector} {bs rest : List (List UInt8)} {b : List UInt8}
    (h : Processed i k₀ bs k) (hk : k.Tame i) {c : Connection} (hc : k.connection? i = some c)
    (hs : c.InService) (hcalm : Reception.isCalm i ⟨k, b :: rest⟩ .take = true) :
    (k.handle i b).2 = .ok () ∧ Processed i k₀ (bs ++ [b]) (k.handle i b).1 ∧
      ∃ ns, Serves i k ns (k.handle i b).1 := by
  unfold Connector.handle
  cases hb : Pack.parse b with
  | ok m =>
    dsimp only
    have hok : ((k.note (k.logLine i .inbound m)).dispatch i m).2 = .ok () := by
      simp only [Reception.isCalm, hb, Bool.or_eq_true, Bool.not_eq_true'] at hcalm
      rcases hcalm with hfast | hcalm
      · unfold Connector.dispatch
        rw [show (k.note _).settings.failOnListenerError = false from hfast]
        exact dispatch_of_not_failFast ..
      · exact dispatch_of_untroubled hcalm
    have hlog := Serves.note i k (k.logLine i .inbound m)
    rw [input_logLine_self] at hlog
    obtain ⟨ls, hls, hd⟩ := Serves.dispatch (hk.of_serves hlog) i m
      k.settings.failOnListenerError k.chain
    rw [input_called_self] at hd
    exact ⟨hok, .message h hb (Prod.ext rfl hok) hls (hlog.trans hd), _, hlog.trans hd⟩
  | error f =>
    dsimp only
    have hpublish := (Serves.reject i k i f).trans
      (Serves.note i (k.reject i f) [.published (.failed i (.parse f))])
    have hinput : Notice.input i [.published (.failed i (.parse f))] =
        [.published (.failed i (.parse f))] := by
      simp [Notice.input, Notice.isInput]
    rw [hinput, List.nil_append] at hpublish
    exact ⟨rfl, .fault h hb (rejects hc hs f) hpublish, _, hpublish⟩

/-! ## Runs -/

section

variable (hc : k.settings.codec.geometry.isFramed)

/-- How far the bodies of a stream are processed: `taken` are processed, and the others that the
stream completes wait. The decoder stands where the stream ends. -/
structure Progress (i : Nat) (stream : List UInt8) (taken : List (List UInt8)) (s : Reception) :
    Prop where
  processed : Processed i k taken s.connector
  connection : ∃ c, s.connector.connection? i = some c ∧ c.InService ∧
    c.decoder = (k.settings.codec.read hc stream).decoder
  bodies : taken ++ s.bodies = (k.settings.codec.read hc stream).bodies

namespace Progress

variable {stream : List UInt8} {taken : List (List UInt8)} {s : Reception}

theorem tame (h : Progress hc i stream taken s) (hk : k.Tame i) : s.connector.Tame i := by
  obtain ⟨ns, ht⟩ := h.processed.tells
  exact hk.of_tells ht

theorem settings (h : Progress hc i stream taken s) : s.connector.settings = k.settings := by
  obtain ⟨ns, ht⟩ := h.processed.tells
  exact ht.settings

theorem meanwhile (h : Progress hc i stream taken s) (hk : k.Tame i) (now : Nat) {t : Turn}
    (ht : t.spares i = true) :
    Progress hc i stream taken { s with connector := s.connector.turn now t } := by
  obtain ⟨c, hconn, hs, hd⟩ := h.connection
  have hturn := Serves.turn (h.tame hc hk) ⟨c, hconn, hs⟩ now ht
  obtain ⟨c', hconn', hs', hd'⟩ := hturn.service c hconn hs
  exact ⟨h.processed.meanwhile hturn, ⟨c', hconn', hs', hd'.trans hd⟩, h.bodies⟩

/-- Bytes that arrive complete the bodies that the longer stream has more. -/
theorem arrive (h : Progress hc i stream taken s) (now : Nat) {bytes : List UInt8}
    (hsound : (k.settings.codec.read hc (stream ++ bytes)).fault? = none) :
    Progress hc i (stream ++ bytes) taken (s.arrive i now bytes) := by
  obtain ⟨c, hconn, hs, hd⟩ := h.connection
  have hread : k.settings.codec.read hc (stream ++ bytes) =
      (Decoder.readFrom hc (c.decoder.feed bytes)).after
        (k.settings.codec.read hc stream).bodies := by
    rw [hd, ← Decoder.readFrom_feed_empty hc (stream ++ bytes), ← Decoder.feed_feed,
      Decoder.readFrom_feed, Decoder.readFrom_feed_empty]
  have hpush : c.decoder.push s.connector.settings.codec bytes =
      (.ok (Decoder.readFrom hc (c.decoder.feed bytes)).bodies,
        (k.settings.codec.read hc (stream ++ bytes)).decoder) := by
    rw [hread, Reading.fault?_after] at hsound
    rw [hread, Reading.decoder_after, h.settings hc, Decoder.push_eq hc]
    simp only [Reading.result, hsound]
  unfold Reception.arrive
  simp only [hconn, hs.reader, ↓reduceIte, hpush]
  refine ⟨h.processed.arrive _ now, ?_, ?_⟩
  · exact ⟨_, connection?_taking hconn _ now, ⟨hs.state, hs.reader, hs.writer⟩, rfl⟩
  · rw [hread, Reading.bodies_after, ← h.bodies, List.append_assoc]

/-- The next body is taken. -/
theorem take (h : Progress hc i stream taken s) (hk : k.Tame i) (now : Nat)
    (hcalm : s.isCalm i .take = true) :
    ∃ taken', Progress hc i stream taken' (s.take i now) := by
  obtain ⟨connector, bodies⟩ := s
  cases bodies with
  | nil => exact ⟨taken, h⟩
  | cons b bs =>
    obtain ⟨c, hconn, hs, hd⟩ := h.connection
    obtain ⟨hok, hprocessed, ns, hserves⟩ :=
      h.processed.handle (h.tame hc hk) hconn hs hcalm
    obtain ⟨c', hconn', hs', hd'⟩ := hserves.service c hconn hs
    refine ⟨taken ++ [b], ?_⟩
    unfold Reception.take
    dsimp only at hok hprocessed hconn' ⊢
    cases hb : connector.handle i b with
    | mk k' r =>
    rw [hb] at hok hprocessed hconn'
    cases hok
    refine ⟨hprocessed, ⟨c', hconn', hs', hd'.trans hd⟩, ?_⟩
    rw [← h.bodies, List.append_assoc]
    rfl

/-- Every act of an undisturbed run makes progress. -/
theorem run (h : Progress hc i stream taken s) (hk : k.Tame i) {as : List (Nat × Act)}
    (ha : s.isUndisturbed i as = true)
    (hsound : (k.settings.codec.read hc (stream ++ (pieces as).flatten)).fault? = none) :
    ∃ taken', Progress hc i (stream ++ (pieces as).flatten) taken' (s.run i as) := by
  induction as generalizing stream taken s with
  | nil => exact ⟨taken, by simpa [pieces, Reception.run] using h⟩
  | cons a as ih =>
    obtain ⟨now, a⟩ := a
    rw [Reception.isUndisturbed, Bool.and_eq_true, Bool.and_eq_true] at ha
    obtain ⟨⟨hspares, hcalm⟩, hrest⟩ := ha
    cases a with
    | meanwhile t => exact ih (h.meanwhile hc hk now hspares) hrest hsound
    | take =>
      obtain ⟨taken', htake⟩ := h.take hc hk now hcalm
      exact ih htake hrest hsound
    | arrive bytes =>
      have hsplit : stream ++ (pieces ((now, .arrive bytes) :: as)).flatten =
          stream ++ bytes ++ (pieces as).flatten := by
        rw [List.append_assoc]
        rfl
      rw [hsplit] at hsound ⊢
      refine ih (h.arrive hc now ?_) hrest hsound
      -- A fault would stay, whatever arrives behind it.
      cases hf : (k.settings.codec.read hc (stream ++ bytes)).fault? with
      | none => rfl
      | some f => exact (Decoder.fault?_read_append hc hf _).symm.trans hsound

/-- From a connection in service that has received nothing, the bodies of what arrives are
processed, as long as it begins the bytes of frames. -/
theorem of_run (hk : k.Tame i)
    (hopen : ∃ c, k.connection? i = some c ∧ c.InService ∧ c.decoder = .empty) {fs : List Frame}
    (hfs : ∀ f ∈ fs, k.settings.codec.Takes f) {as : List (Nat × Act)}
    (ha : Reception.isUndisturbed i ⟨k, []⟩ as = true)
    (hp : (pieces as).flatten <+: fs.flatMap Frame.bytes) :
    ∃ taken, Progress hc i (pieces as).flatten taken (Reception.run i ⟨k, []⟩ as) := by
  obtain ⟨c, hconn, hs, hd⟩ := hopen
  have hbegin : Progress hc i [] [] ⟨k, []⟩ := by
    refine ⟨.nothing, ⟨c, hconn, hs, ?_⟩, ?_⟩
    · rw [hd, Codec.read_nil hc]
      rfl
    · rw [Codec.read_nil hc]
      rfl
  -- The stream holds no bad length field, since its prefixes are those of frames.
  have hsound : (k.settings.codec.read hc (pieces as).flatten).fault? = none := by
    have hfirst : (pieces as).flatten <+: fs.flatMap Frame.bytes ++ [] := by simpa using hp
    apply Decoder.fault?_read_of_lt hc hfs hfirst
    have := hp.length_le
    have := Codec.prefixLength_pos hc
    omega
  exact hbegin.run hc hk ha hsound

theorem state? (h : Progress hc i stream taken s) :
    s.connector.state? i = some .connected := by
  obtain ⟨c, hconn, hs, -⟩ := h.connection
  rw [Connector.state?, hconn, Option.map_some, hs.state]

/-- The bodies that are processed or wait are those of the first frames of a stream, and of all of
them when the stream has arrived. -/
theorem bodies_frames {fs : List Frame} (h : Progress hc i stream taken s)
    (hfs : ∀ f ∈ fs, k.settings.codec.Takes f) (hp : stream <+: fs.flatMap Frame.bytes) :
    taken ++ s.bodies <+: fs.map (·.body) ∧
      (stream = fs.flatMap Frame.bytes → taken ++ s.bodies = fs.map (·.body)) := by
  rw [h.bodies, ← Codec.bodies_read_frames hc hfs]
  obtain ⟨rest, hrest⟩ := hp
  refine ⟨?_, fun hall => by rw [hall]⟩
  rw [← hrest]
  exact Decoder.bodies_read_append hc _ rest

end Progress

end

/-- A connection that was just opened is in service, and has received nothing. -/
theorem connection?_opened (hk : k.Sound) (now : Nat) :
    ∃ c, (k.openConnection now).connection? k.nextId = some c ∧ c.InService ∧
      c.decoder = .empty := by
  refine ⟨_, ?_, Connection.inService_start k.nextId k.settings.maxPendingWrites.toNat now, rfl⟩
  rw [connection?_openConnection, connection?_nextId hk.numbered, if_pos rfl]
  rfl

/-- A connection that a new connector opens in its run is in service and has received nothing, under
the settings and with the listeners of the beginning. -/
theorem IsNew.opened (hk : k.IsNew) (before : List (Nat × Turn)) (now : Nat) :
    ((k.run before).openConnection now).settings = k.settings ∧
      (k.Tame i → ((k.run before).openConnection now).Tame i) ∧
      ∃ c, ((k.run before).openConnection now).connection? (k.run before).nextId = some c ∧
        c.InService ∧ c.decoder = .empty := by
  have hadvances : Advances k (k.run before) := advances_run k before
  obtain ⟨hsettings, -, hregistry⟩ := hadvances.configured
  refine ⟨hsettings, fun h => ?_, connection?_opened (hk.sound.advances hadvances) now⟩
  unfold Tame
  rwa [show ((k.run before).openConnection now).registry = k.registry from hregistry]

/-- **What becomes of the bodies that arrive in a run** of a connector, where nobody comes between
the bodies of a read: when what has arrived begins the bytes of frames, the bodies of the frames
that are complete are processed, and none waits. -/
theorem run_processed {k : Connector} (hk : k.IsNew) (hc : k.settings.codec.geometry.isFramed)
    (before : List (Nat × Turn)) (opened : Nat) (htame : k.Tame (k.run before).nextId)
    {fs : List Frame} (hfs : ∀ f ∈ fs, k.settings.codec.Takes f) {ts : List (Nat × Turn)} :
    let i := (k.run before).nextId
    let start := (k.run before).openConnection opened
    let bytes := (ts.filterMap fun t => t.2.piece? i).flatten
    Reception.isUndisturbed i ⟨start, []⟩ (Reception.acts i start ts) = true →
      bytes <+: fs.flatMap Frame.bytes →
      (start.run ts).state? i = some .connected ∧ ∃ taken,
        Processed i start taken (start.run ts) ∧
        (∃ ws, List.Forall₂ (Word start i) taken ws ∧ Tells i start ws.flatten (start.run ts)) ∧
        taken <+: fs.map (·.body) ∧
        (bytes = fs.flatMap Frame.bytes → taken = fs.map (·.body)) := by
  intro i start bytes ha hp
  obtain ⟨hsettings, hkeeps, hopen⟩ := hk.opened before opened
  rw [← show start.settings = k.settings from hsettings] at hc hfs
  have hbytes : (pieces (Reception.acts i start ts)).flatten = bytes :=
    congrArg List.flatten (Reception.pieces_acts i start ts)
  rw [← hbytes] at hp ⊢
  obtain ⟨taken, hprogress⟩ := Progress.of_run hc (hkeeps htame) hopen hfs ha hp
  obtain ⟨hfirst, hall⟩ := hprogress.bodies_frames hc hfs hp
  have hstate := hprogress.state? hc
  have hprocessed := hprogress.processed
  rw [Reception.run_acts] at hstate hprocessed hfirst hall
  rw [List.append_nil] at hfirst hall
  exact ⟨hstate, taken, hprocessed, hprocessed.exists_words, hfirst, hall⟩

/-- Two frames in two reads, the second of which completes both, while somebody sends. -/
example :
    let answering : Listener :=
      ⟨fun _ => .ok true, fun id m => .ask (.send id m.response) fun _ => .done (.ok true)⟩
    let k : Connector :=
      { settings := { lengthWidth := 1, maxFrameLength := 64, replyOnError := true }
        registry := [("answering", answering)] }
    let before : List (Nat × Turn) := [(0, .init), (0, .ask (.append (.named "answering")))]
    let start := (k.run before).openConnection 0
    let ts : List (Nat × Turn) := [(1, .happening 1 (.received [1])),
      (1, .ask (.send 1 (.new 0x0800))),
      (2, .happening 1 (.received ([0xC1, 16] ++ Pack.serialize (.new 0x0200))))]
    Reception.isUndisturbed 1 ⟨start, []⟩ (Reception.acts 1 start ts) = true := by
  decide +kernel

end Connector

end Interchange
