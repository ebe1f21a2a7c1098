import Interchange.Proofs.Connector.Outflow

/-!
# Two connectors that exchange messages

An `Exchange` is two connectors, each with a connection to the other. What one of them accepts for
writing on that connection may arrive at the other, each message once, in any order, whenever the
other one reads and no message is on its way through the listeners there. A message that arrives
passes the listeners one by one, and anything else may happen in between: users send, other
connections live, heartbeats come due, the other party goes on.

A party keeps account of the messages that have arrived and of the echo requests that its listener
answered. Left alone, a message that arrives is handled as a connector handles it
(`Party.visits_eq`), so a read of its bytes is a run of moves (`exists_run_eq_receive`).
-/

namespace Interchange

namespace Connector

variable {k k' : Connector} {id i : Nat}

/-- The messages that a connection accepted, the oldest first. -/
def posts (k : Connector) (i : Nat) : List Message := (k.outbound i).accepted.map (·.message)

/-- A fault of the listeners ends the connection. -/
def conclude (id now : Nat) : Connector × Except Fault Unit → Connector
  | (k, .ok ()) => k
  | (k, .error f) => k.fail id now f

/-- A change of a connection that keeps its number, and then another. -/
theorem update_update {f g : Connection → Connection} (hf : ∀ c, c.id = id → (f c).id = id) :
    (k.update id f).update id g = k.update id fun c => g (f c) :=
  congrArg (fun connections => { k with connections }) (Numbered.modify_modify hf _)

/-! ## What stays -/

/-- What a connector was told stays as it is, and what became known stays known. -/
structure Continues (k k' : Connector) : Prop where
  settings : k'.settings = k.settings
  version : k'.version = k.version
  history : k.history <+: k'.history

namespace Continues

theorem refl (k : Connector) : Continues k k := ⟨rfl, rfl, List.prefix_refl _⟩

theorem trans {k₁ k₂ k₃ : Connector} (h₁ : Continues k₁ k₂) (h₂ : Continues k₂ k₃) :
    Continues k₁ k₃ :=
  ⟨h₂.settings.trans h₁.settings, h₂.version.trans h₁.version, h₁.history.trans h₂.history⟩

theorem of_advances (h : Advances k k') : Continues k k' :=
  ⟨h.configured.1, h.configured.2.1, h.history⟩

theorem note (k : Connector) (ns : List Notice) : Continues k (k.note ns) :=
  ⟨rfl, rfl, List.prefix_append _ _⟩

theorem update (k : Connector) (id : Nat) (f : Connection → Connection) :
    Continues k (k.update id f) :=
  ⟨rfl, rfl, List.prefix_refl _⟩

theorem windDown (k : Connector) (id now : Nat) : Continues k (k.windDown id now) := by
  unfold Connector.windDown
  split
  · exact .refl k
  · split
    · exact (update k id _).trans (note _ _)
    · exact update k id _

theorem fail (k : Connector) (id now : Nat) (f : Fault) : Continues k (k.fail id now f) :=
  (note k _).trans (windDown _ id now)

theorem accompanies (id : Nat) : Accompanies id Continues where
  refl := refl
  trans := trans
  perform r k := of_advances (Meanwhile.perform r k).changes.advances
  log _ k := note k _
  call _ _ k := note k _
  reject _ k := note k _

theorem posts (h : Continues k k') (i : Nat) : k.posts i <+: k'.posts i :=
  (h.history.filterMap _).map _

end Continues

end Connector

namespace Exchange

open Connector (Continues Turn)

/-! ## Parties -/

/-- An echo request that was answered. -/
structure Answer where
  /-- How many messages the party's connection had accepted before the answer. -/
  position : Nat
  /-- How many messages the other party's connection had accepted before the request. -/
  request : Nat
  /-- The request as it arrived. -/
  received : Message
  deriving DecidableEq

/-- A message on its way through the listeners. -/
structure Passing where
  /-- How many messages the other party's connection had accepted before it. -/
  index : Nat
  /-- The message as it arrived. -/
  message : Message
  /-- The listeners that it has not seen yet. -/
  listeners : Chain

/-- A connector with a connection to another one. -/
structure Party where
  /-- The connector. -/
  connector : Connector
  /-- The connection that leads to the other party. -/
  joined : Nat
  /-- Which messages of the other party have arrived. -/
  taken : List Nat := []
  /-- The message that is on its way through the listeners. -/
  passing? : Option Passing := none
  /-- The echo requests that were answered. -/
  answers : List Answer := []

/-- What a party does. -/
inductive Move where
  /-- Something happens to its connector, apart from messages of the other party. -/
  | turn (t : Turn)
  /-- A message of the other party arrives. -/
  | arrive (index : Nat)
  /-- The message on its way is shown to the next listener. -/
  | visit

namespace Party

/-- The messages that a party's connection accepted, the oldest first. -/
def posts (s : Party) : List Message := s.connector.posts s.joined

/-- Whether a turn can come. What the connection to the other party reads arrives as messages, and
while a message is on its way, the reading side of that connection has nothing else to do. -/
def allows (s : Party) : Turn → Bool
  | .happening _ (.writer _) => true
  | .happening id (.received _) => id ≠ s.joined
  | .happening id _ => id ≠ s.joined || s.passing?.isNone
  | _ => true

/-- Whether the connection to the other party reads and has no message on its way. -/
def isReady (s : Party) : Bool :=
  s.passing?.isNone && (s.connector.connection? s.joined).any (·.reader = .reading)

/-- Take a message of the other party. -/
def take (s : Party) (now index : Nat) (m : Message) : Party :=
  let k := s.connector.update s.joined fun c => { c with activity := c.activity.record now }
  match Pack.parse (Pack.serialize m) with
  | .ok m =>
    { s with
      connector := k.note (k.logLine s.joined .inbound m)
      taken := s.taken ++ [index]
      passing? := some ⟨index, m, k.chain⟩ }
  | .error f =>
    { s with
      connector := (k.reject s.joined f).publish (.failed s.joined (.parse f))
      taken := s.taken ++ [index] }

/-- A message of the other party arrives, if it is there, has not arrived before and can be taken.
-/
def arrive (s : Party) (now : Nat) (posts : List Message) (index : Nat) : Party :=
  match posts[index]? with
  | some m => if s.isReady && !s.taken.contains index then s.take now index m else s
  | none => s

/-- What it adds to the answered requests that a listener keeps a message. -/
def answersBy (s : Party) (p : Passing) : ListenerId → List Answer
  | .echo => [⟨s.posts.length, p.index, p.message⟩]
  | .named _ => []

/-- Show a message to the next listener. -/
def pass (s : Party) (now : Nat) (p : Passing) : Party :=
  match p.listeners with
  | [] => { s with passing? := none }
  | l :: ls =>
    match s.connector.call s.joined p.message l with
    | (k, .ok true) => { s with connector := k, passing? := some { p with listeners := ls } }
    | (k, .ok false) =>
      { s with connector := k, passing? := none, answers := s.answers ++ s.answersBy p l }
    | (k, .error f) =>
      if k.settings.failOnListenerError then
        { s with connector := k.fail s.joined now f.toFault.ofListener, passing? := none }
      else { s with connector := k, passing? := some { p with listeners := ls } }

/-- Show the message on its way to the next listener. -/
def visit (s : Party) (now : Nat) : Party :=
  match s.passing? with
  | some p => s.pass now p
  | none => s

/-- A party makes a move, the other party having accepted `posts`. A move that cannot come changes
nothing. -/
def step (s : Party) (now : Nat) (posts : List Message) : Move → Party
  | .turn t => if s.allows t then { s with connector := s.connector.turn now t } else s
  | .arrive index => s.arrive now posts index
  | .visit => s.visit now

end Party

end Exchange

/-- Two connectors that are connected to each other. -/
structure Exchange where
  /-- The one. -/
  left : Exchange.Party
  /-- The other. -/
  right : Exchange.Party

namespace Exchange

/-- Which party. -/
inductive Side where
  | left
  | right
  deriving DecidableEq

/-- Two connectors, joined by a connection of each, before any message has arrived. -/
def join (k l : Connector) (i j : Nat) : Exchange := ⟨⟨k, i, [], none, []⟩, ⟨l, j, [], none, []⟩⟩

/-- One party makes a move. -/
def step (e : Exchange) (now : Nat) (side : Side) (move : Move) : Exchange :=
  match side with
  | .left => { e with left := e.left.step now e.right.posts move }
  | .right => { e with right := e.right.step now e.left.posts move }

/-- The parties make moves in turn, each at its time. -/
def run (e : Exchange) (moves : List (Nat × Side × Move)) : Exchange :=
  moves.foldl (fun e m => e.step m.1 m.2.1 m.2.2) e

namespace Side

/-- The other party. -/
def other : Side → Side
  | .left => .right
  | .right => .left

theorem eq_other_of_ne {a b : Side} (h : a ≠ b) : b = a.other := by
  cases a <;> cases b <;> first | rfl | exact absurd rfl h

end Side

/-- One of the parties. -/
def party (e : Exchange) : Side → Party
  | .left => e.left
  | .right => e.right

/-- The same exchange with one party in another state. -/
def withParty (e : Exchange) (side : Side) (s : Party) : Exchange :=
  match side with
  | .left => { e with left := s }
  | .right => { e with right := s }

@[simp] theorem party_withParty (e : Exchange) (side : Side) (s : Party) :
    (e.withParty side s).party side = s := by
  cases side <;> rfl

@[simp] theorem party_other_withParty (e : Exchange) (side : Side) (s : Party) :
    (e.withParty side s).party side.other = e.party side.other := by
  cases side <;> rfl

@[simp] theorem withParty_party (e : Exchange) (side : Side) :
    e.withParty side (e.party side) = e := by
  cases side <;> rfl

@[simp] theorem withParty_withParty (e : Exchange) (side : Side) (s t : Party) :
    (e.withParty side s).withParty side t = e.withParty side t := by
  cases side <;> rfl

theorem step_eq (e : Exchange) (now : Nat) (side : Side) (move : Move) :
    e.step now side move =
      e.withParty side ((e.party side).step now (e.party side.other).posts move) := by
  cases side <;> rfl

/-! ## A message that is left alone -/

namespace Party

variable {s : Party} {now : Nat} {p : Passing}

theorem visit_of_passing (h : s.passing? = some p) : s.visit now = s.pass now p := by
  rw [visit, h]

/-- Visits one after the other. -/
def visits (s : Party) (now : Nat) : Nat → Party
  | 0 => s
  | n + 1 => (s.visit now).visits now n

theorem visits_of_none (h : s.passing? = none) (n : Nat) : s.visits now n = s := by
  induction n with
  | zero => rfl
  | succ n ih => rw [visits, visit, h, ih]

/-- **A message that is left alone is dispatched**: visits to all listeners do to the connector what
the dispatch to them does, and end with no message on its way. -/
theorem visits_eq {k : Connector} {m : Message} {index : Nat} (ls : Chain)
    (hk : s.connector = k) (hp : s.passing? = some ⟨index, m, ls⟩) :
    (s.visits now (ls.length + 1)).connector = Connector.conclude s.joined now
        (dispatch k.settings.failOnListenerError (Connector.call s.joined m) ls k) ∧
      (s.visits now (ls.length + 1)).passing? = none := by
  induction ls generalizing s k with
  | nil =>
    rw [List.length_nil, visits, visit_of_passing hp, visits]
    exact ⟨hk, rfl⟩
  | cons l ls ih =>
    have hsettings := ((Connector.Continues.accompanies s.joined).applied m l k).settings
    rw [List.length_cons, visits, visit_of_passing hp, pass]
    dsimp only
    rw [hk, dispatch]
    generalize hc : k.call s.joined m l = r at hsettings
    obtain ⟨k', o⟩ := r
    dsimp only at hsettings ⊢
    cases o with
    | ok goesOn =>
      cases goesOn with
      | true =>
        rw [← hsettings]
        exact ih rfl rfl
      | false =>
        dsimp only
        rw [visits_of_none rfl]
        exact ⟨rfl, rfl⟩
    | error f =>
      dsimp only
      rw [hsettings]
      split
      · rw [visits_of_none rfl]
        exact ⟨rfl, rfl⟩
      · rw [← hsettings]
        exact ih rfl rfl

/-- The connection to the other party holds what a decoder holds. -/
def decoding (s : Party) (decoder : Decoder) : Party :=
  { s with connector := s.connector.update s.joined fun c => { c with decoder } }

theorem isReady_decoding {c : Connection} (hc : s.connector.connection? s.joined = some c)
    (hr : c.reader = .reading) (hp : s.passing? = none) (decoder : Decoder) :
    (s.decoding decoder).isReady = true := by
  have hconn : (s.decoding decoder).connector.connection? s.joined = some { c with decoder } := by
    rw [decoding, Connector.connection?_update, if_pos rfl, hc]
    · rfl
    · exact fun _ h => h
  unfold isReady
  rw [show (s.decoding decoder).passing? = none from hp,
    show (s.decoding decoder).joined = s.joined from rfl, hconn]
  simpa using hr

/-- A read that completes the bytes of one message does to the connector what the arrival of that
message does, left alone. -/
theorem receive_eq {c : Connection} {m : Message} {bytes : List UInt8} {decoder : Decoder}
    (hc : s.connector.connection? s.joined = some c) (hp : s.passing? = none)
    (hd : c.decoder.push s.connector.settings.codec bytes = (.ok [Pack.serialize m], decoder))
    (now index : Nat) :
    ∃ n, (((s.decoding decoder).take now index m).visits now n).connector =
        s.connector.receive c now bytes ∧
      (((s.decoding decoder).take now index m).visits now n).passing? = none := by
  have hid := Connector.id_of_connection? hc
  have hreceive : s.connector.receive c now bytes = Connector.conclude s.joined now
      ((s.connector.update s.joined fun c =>
        { c with decoder, activity := c.activity.record now }).handle s.joined
          (Pack.serialize m)) := by
    simp only [Connector.receive, hd, hid, Connector.handleAll]
    generalize Connector.handle _ _ _ = r
    obtain ⟨k, r⟩ := r
    cases r <;> rfl
  rw [hreceive, take, decoding, Connector.handle]
  dsimp only
  rw [Connector.update_update (f := fun c => { c with decoder }) fun _ h => h]
  generalize s.connector.update s.joined _ = k
  cases Pack.parse (Pack.serialize m) with
  | ok m => exact ⟨_, visits_eq k.chain rfl rfl⟩
  | error f => exact ⟨0, rfl, hp⟩

end Party

theorem run_visits (e : Exchange) (now : Nat) (side : Side) (n : Nat) :
    e.run (List.replicate n (now, side, .visit)) =
      e.withParty side ((e.party side).visits now n) := by
  induction n generalizing e with
  | zero => exact (withParty_party e side).symm
  | succ n ih =>
    have hfirst : e.run (List.replicate (n + 1) (now, side, .visit)) =
        (e.step now side .visit).run (List.replicate n (now, side, .visit)) := rfl
    rw [hfirst, ih, step_eq, party_withParty, withParty_withParty]
    rfl

/-- The moves that a read of one message comes to: the message arrives, and is shown to
listeners. -/
def readMoves (now : Nat) (side : Side) (index n : Nat) : List (Nat × Side × Move) :=
  (now, side, .arrive index) :: List.replicate n (now, side, .visit)

/-- **A read that completes the bytes of a message** of the other party does to the connector what
moves do: the message arrives and goes through the listeners, and nobody comes between. -/
theorem exists_run_eq_receive {e : Exchange} {side : Side} {index : Nat} {c : Connection}
    {m : Message} {bytes : List UInt8} {decoder : Decoder}
    (hc : (e.party side).connector.connection? (e.party side).joined = some c)
    (hr : c.reader = .reading) (hp : (e.party side).passing? = none)
    (hm : (e.party side.other).posts[index]? = some m) (hi : index ∉ (e.party side).taken)
    (hd : c.decoder.push (e.party side).connector.settings.codec bytes =
      (.ok [Pack.serialize m], decoder)) (now : Nat) :
    ∃ n t, (e.withParty side ((e.party side).decoding decoder)).run (readMoves now side index n) =
        e.withParty side t ∧
      t.connector = (e.party side).connector.receive c now bytes ∧ t.passing? = none := by
  obtain ⟨n, hconnector, hpassing⟩ := Party.receive_eq hc hp hd now index
  have harrive : ((e.party side).decoding decoder).arrive now (e.party side.other).posts index =
      ((e.party side).decoding decoder).take now index m := by
    have htaken : ((e.party side).decoding decoder).taken.contains index = false := by
      simpa [Party.decoding] using hi
    rw [Party.arrive, hm]
    dsimp only
    rw [Party.isReady_decoding hc hr hp, htaken]
    rfl
  refine ⟨n, _, ?_, hconnector, hpassing⟩
  show ((e.withParty side ((e.party side).decoding decoder)).step now side (.arrive index)).run
    (List.replicate n (now, side, .visit)) = _
  rw [run_visits, step_eq, party_withParty, party_other_withParty, withParty_withParty,
    party_withParty, withParty_withParty, Party.step, harrive]

end Exchange

end Interchange
