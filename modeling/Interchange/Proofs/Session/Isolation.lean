import Interchange.Proofs.Session.Alone
import Interchange.Proofs.Session.Acts

/-!
# Connections are isolated

A run of a session is a list of acts: something comes to it from outside, or one waits. The
`timeline` of a connection is what of this concerns the connection, and when. Whatever is done with
the other connections, and whatever they do, in a run a connection is as if its timeline alone were
replayed (`alone_run`). So what can be observed of it, its `View`, depends on nothing else
(`isolated`).
-/

namespace Interchange

theorem Link.renumber_move (n : Nat) (l : Link) (m : Move) :
    (l.renumber n).move m = (l.move m).renumber n := by
  cases m <;> rfl

namespace Session

open Connector (KeepsApart Turn)

variable {s t : Session} {i j : Nat}

/-! ## The timeline of a connection -/

/-- What an input comes to where connection `i` is alone, as number 1, if the next connection has
number `n`. -/
def Input.alone? (i n : Nat) : Input → Option Input
  | .turn t => (t.alone? i n).map .turn
  | .peer id m => if id = i then some (.peer 1 m) else none

/-- What several inputs come to where connection `i` is alone. -/
def share (i : Nat) : Session → List Input → List Input
  | _, [] => []
  | s, x :: xs => (x.alone? i s.connector.nextId).toList ++ share i (s.take x) xs

/-- What an act comes to for connection `i`, with the time, unless it is nothing. -/
def entry (i : Nat) (s : Session) : Act → List (Nat × List Input)
  | .inputs xs => if (share i s xs).isEmpty then [] else [(s.now, share i s xs)]
  | .wait .. => []

/-- What a run comes to for connection `i`, with the times. -/
def timeline (i : Nat) : Session → List Act → List (Nat × List Input)
  | _, [] => []
  | s, a :: as => entry i s a ++ timeline i (s.act a) as

theorem timeline_append (i : Nat) (s : Session) (as bs : List Act) :
    timeline i s (as ++ bs) = timeline i s as ++ timeline i (s.run as) bs := by
  induction as generalizing s with
  | nil => rfl
  | cons a as ih =>
    rw [List.cons_append, timeline, timeline, ih, List.append_assoc]
    rfl

/-- Let each entry of a timeline come at its time. -/
def replay (s : Session) (es : List (Nat × List Input)) : Session :=
  es.foldl (fun s e => (s.pass e.1).act (.inputs e.2)) s

/-! ## Sessions stay orderly -/

theorem IsOrderly.openConnection (h : s.IsOrderly) : s.openConnection.IsOrderly where
  sound := h.sound.openConnection s.now
  apart := h.apart
  linked := by
    simp only [Session.openConnection, Connector.openConnection, List.map_append, h.linked]
    rfl

theorem IsOrderly.take (h : s.IsOrderly) (x : Input) : (s.take x).IsOrderly := by
  cases x with
  | peer id m =>
    refine h.changes .refl ?_
    exact Numbered.map_modify_of_eq (·.id) (fun l _ => l.id_move m) s.links
  | turn t =>
    cases t with
    | openConnection => exact h.openConnection
    | init => exact h.changes s.connector.changes_init rfl
    | ask r => exact h.changes (Connector.Meanwhile.perform r s.connector).changes rfl
    | happening id e => exact h.changes (Connector.changes_step s.connector id s.now e) rfl

theorem IsOrderly.foldl_take (h : s.IsOrderly) (xs : List Input) :
    (xs.foldl Session.take s).IsOrderly := by
  induction xs generalizing s with
  | nil => exact h
  | cons x xs ih => exact ih (h.take x)

/-- What holds of a session between two acts. -/
structure IsAtRest (s : Session) : Prop extends s.IsOrderly where
  settled : s.IsSettled

theorem IsAtRest.act (h : s.IsAtRest) (a : Act) : (s.act a).IsAtRest := by
  refine ⟨?_, h.settled.act a⟩
  cases a with
  | inputs xs => exact (h.toIsOrderly.foldl_take xs).settle
  | wait holds ms =>
    rw [Session.act, await]
    split
    · exact h.toIsOrderly
    · split
      · exact h.toIsOrderly
      · exact h.toIsOrderly.settle.runUntil holds _

theorem IsAtRest.run (h : s.IsAtRest) (as : List Act) : (s.run as).IsAtRest := by
  induction as generalizing s with
  | nil => exact h
  | cons a as ih => exact ih (h.act a)

/-! ## A run of a connection alone -/

theorem link?_openConnection (s : Session) (i : Nat) : s.openConnection.link? i =
    (s.link? i).or (if s.connector.nextId = i then
      some { id := s.connector.nextId, capacity := s.capacity } else none) := by
  rw [link?, openConnection, Numbered.get?_append, Numbered.get?_cons]
  rfl

/-- A connection that is opened is the first one of the session in which it is alone. -/
theorem alone_openConnection (h : s.IsOrderly) :
    s.openConnection.alone s.connector.nextId = (s.alone s.connector.nextId).openConnection := by
  have hnone := Connector.connection?_nextId h.sound.numbered
  have hlink : s.link? s.connector.nextId = none := by
    refine Numbered.get?_eq_none.2 fun l hl hid => ?_
    have hmem : l.id ∈ s.connector.connections.map (·.id) := h.linked ▸ List.mem_map_of_mem hl
    obtain ⟨c, hc, hcl⟩ := List.mem_map.1 hmem
    exact Numbered.get?_eq_none.1 hnone c hc (hcl.trans hid)
  have hopened : s.openConnection.link? s.connector.nextId =
      some { id := s.connector.nextId, capacity := s.capacity } := by
    rw [link?_openConnection, hlink, Option.none_or, if_pos rfl]
  have hconnections : (s.alone s.connector.nextId).connector.connections = [] := by
    rw [alone, Connector.alone, hnone]
    rfl
  have hlinks : (s.alone s.connector.nextId).links = [] := by
    rw [alone, hlink]
    rfl
  have hright : (s.alone s.connector.nextId).openConnection = { s.alone s.connector.nextId with
      connector := (s.connector.alone s.connector.nextId).openConnection s.now
      links := [{ id := 1, capacity := s.capacity }] } := by
    have hfirst : (s.alone s.connector.nextId).connector.nextId = 1 := by
      rw [Connector.nextId, hconnections]
      rfl
    rw [openConnection, hlinks, hfirst]
    rfl
  have hconnector : s.openConnection.connector.alone s.connector.nextId =
      (s.connector.alone s.connector.nextId).openConnection s.now :=
    Connector.alone_openConnection hnone s.now
  rw [hright, alone, hopened, hconnector]
  rfl

theorem alone_openConnection_of_ne (h : s.connector.nextId ≠ i) :
    s.openConnection.alone i = s.alone i := by
  have hlink : s.openConnection.link? i = s.link? i := by
    rw [link?_openConnection, if_neg h, Option.or_none]
  have hconnector : s.openConnection.connector.alone i = s.connector.alone i :=
    Connector.alone_openConnection_of_ne h s.now
  rw [alone, hlink, hconnector]
  rfl

/-- **What comes from outside comes to a connection** as its share comes to it alone. -/
theorem alone_take (h : s.IsOrderly) (i : Nat) (x : Input) : (s.take x).alone i =
    (x.alone? i s.connector.nextId).elim (s.alone i) (s.alone i).take := by
  cases x with
  | peer id m =>
    rw [Input.alone?]
    split
    · next hid =>
      subst hid
      refine alone_updateLink (fun l hl => (l.id_move m).trans hl) fun l _ => ?_
      exact (l.renumber_move 1 m).symm
    · next hid =>
      have hmoves : MovesAt id s (s.updateLink id (·.move m)) :=
        moves_updateLink id fun l hl => (l.id_move m).trans hl
      exact hmoves.alone h.apart hid
  | turn t =>
    have hturn := Connector.alone_turn h.apart (Connector.connection?_nextId h.sound.numbered) i
      s.now t
    -- Only opening a connection concerns the links.
    have hstay (k : Connector) : ({ s with connector := k } : Session).alone i =
      { s.alone i with connector := k.alone i } := rfl
    cases t with
    | openConnection =>
      simp only [Input.alone?, Turn.alone?, take]
      split
      · next hi =>
        subst hi
        exact alone_openConnection h
      · next hi => exact alone_openConnection_of_ne hi
    | init =>
      rw [take, hstay, hturn]
      · rfl
      · intro h
        cases h
    | ask r =>
      rw [take, hstay, hturn, Input.alone?, Turn.alone?]
      · cases r.alone? i <;> rfl
      · intro h
        cases h
    | happening id e =>
      rw [take, hstay, hturn, Input.alone?, Turn.alone?]
      · split <;> rfl
      · intro h
        cases h

theorem alone_foldl_take (h : s.IsOrderly) (i : Nat) (xs : List Input) :
    (xs.foldl take s).alone i = (share i s xs).foldl take (s.alone i) := by
  induction xs generalizing s with
  | nil => rfl
  | cons x xs ih =>
    rw [List.foldl_cons, ih (h.take x), share, List.foldl_append, alone_take h]
    cases x.alone? i s.connector.nextId <;> rfl

theorem replay_append (s : Session) (es fs : List (Nat × List Input)) :
    s.replay (es ++ fs) = (s.replay es).replay fs := List.foldl_append

/-- **What an act does to a connection**: it replays its entry, and lets time pass. -/
theorem alone_act (h : s.IsAtRest) (i : Nat) (a : Act) :
    (s.act a).alone i = ((s.alone i).replay (entry i s a)).pass (s.act a).now := by
  cases a with
  | inputs xs =>
    have hsettled := h.settled.alone h.apart i
    have hact : (s.act (.inputs xs)).alone i = ((share i s xs).foldl take (s.alone i)).settle := by
      rw [act, alone_settle (h.toIsOrderly.foldl_take xs).apart, alone_foldl_take h.toIsOrderly]
    rw [now_act_inputs, hact, entry]
    cases hshare : share i s xs with
    | nil => exact (settle_of_isSettled hsettled).trans (pass_of_le (Nat.le_refl _)).symm
    | cons y ys =>
      have hnow : (s.alone i).pass s.now = s.alone i := pass_of_le (Nat.le_refl _)
      simp only [List.isEmpty_cons, Bool.false_eq_true, ↓reduceIte, replay, List.foldl_cons,
        List.foldl_nil, hnow]
      refine (pass_of_le ?_).symm
      exact Nat.le_of_eq ((s.alone i).now_act_inputs (y :: ys)).symm
  | wait holds ms =>
    rw [entry, act, await]
    split
    · exact (pass_of_le (Nat.le_refl _)).symm
    · split
      · exact (pass_of_le (Nat.le_refl _)).symm
      · next hms =>
        rw [settle_of_isSettled h.settled]
        exact alone_runUntil h.settled h.toIsOrderly i holds (by omega)

theorem entry_cases (i : Nat) (s : Session) (a : Act) :
    entry i s a = [] ∨ ∃ ys, entry i s a = [(s.now, ys)] := by
  cases a with
  | inputs xs =>
    rw [entry]
    split
    · exact .inl rfl
    · exact .inr ⟨_, rfl⟩
  | wait holds ms => exact .inl rfl

theorem IsSettled.replay (h : s.IsSettled) (es : List (Nat × List Input)) :
    (s.replay es).IsSettled := by
  induction es generalizing s with
  | nil => exact h
  | cons e es ih => exact ih (isSettled_settle _)

/-- **In a run, a connection is as if its timeline alone were replayed.** -/
theorem alone_run (h : s.IsAtRest) (i : Nat) (as : List Act) :
    (s.run as).alone i = ((s.alone i).replay (timeline i s as)).pass (s.run as).now := by
  induction as using List.reverseRecOn with
  | nil => exact (pass_of_le (Nat.le_refl _)).symm
  | append_singleton as a ih =>
    have hrun : s.run (as ++ [a]) = (s.run as).act a := List.foldl_concat ..
    have hentry : timeline i (s.run as) [a] = entry i (s.run as) a := List.append_nil _
    have hsettled := (h.settled.alone h.apart i).replay (timeline i s as)
    have hnow := now_le_act (s.run as) a
    rw [hrun, alone_act (h.run as), ih, timeline_append, hentry, replay_append]
    generalize (s.alone i).replay (timeline i s as) = u at hsettled
    rcases entry_cases i (s.run as) a with he | ⟨ys, he⟩
    · rw [he]
      exact pass_pass hsettled hnow
    · rw [he]
      simp only [replay, List.foldl_cons, List.foldl_nil, pass_pass hsettled (Nat.le_refl _)]

/-! ## What can be observed of a connection -/

/-- What can be observed of a connection, whatever its number. -/
structure View where
  /-- The bytes that its peer received. -/
  received : Option (List UInt8)
  /-- Its state. -/
  state : Option Connection.State
  /-- How many messages are accepted and not yet released. -/
  pending : Option Nat
  /-- The calls of listeners: the name and the type of the message. -/
  calls : List (String × UInt16)
  /-- The lines of the message log: the way of the message and the text. -/
  logLines : List (Direction × String)
  /-- What became of accepted messages: the ticket and the outcome. -/
  outcomes : List (Nat × Except Fault Unit)
  /-- The events, as those of a connection with number 1. -/
  events : List Connection.Event

/-- The calls of listeners for connection `i`: the name and the type of the message. -/
def callsOf (i : Nat) (ns : List Notice) : List (String × UInt16) :=
  ((Connector.calls ns).filter (·.2.1 = i)).map fun c => (c.1, c.2.2)

/-- The lines of the message log for connection `i`: the way of the message and the text. -/
def logLinesOf (i : Nat) (ns : List Notice) : List (Direction × String) :=
  ((Connector.logLines ns).filter (·.1 = i)).map (·.2)

/-- What became of the messages accepted on connection `i`: the ticket and the outcome. -/
def outcomesOf (i : Nat) (ns : List Notice) : List (Nat × Except Fault Unit) :=
  ((Connector.outcomes ns).filter (·.1 = i)).map (·.2)

/-- What can be observed of connection `i`. -/
def view (i : Nat) (s : Session) : View where
  received := (s.link? i).map (·.inbox)
  state := s.connector.state? i
  pending := (s.connector.connection? i).map (·.pending)
  calls := callsOf i s.connector.history
  logLines := logLinesOf i s.connector.history
  outcomes := outcomesOf i s.connector.history
  events := (Connector.eventsOf i s.connector.history).map (·.renumber 1)

/-- What is read off notices one after the other, and depends on those about a connection only, can
be read off them where the connection is alone. -/
theorem read_alone {β : Type} {f : Nat → List Notice → List β}
    (happend : ∀ i ms ns, f i (ms ++ ns) = f i ms ++ f i ns) (hnil : ∀ i, f i [] = [])
    (hsame : ∀ n : Notice, f 1 [n.renumber 1] = f n.connection [n])
    (hother : ∀ (n : Notice) (i : Nat), n.connection ≠ i → f i [n] = []) (i : Nat)
    (ns : List Notice) : f 1 (Notice.alone i ns) = f i ns := by
  induction ns with
  | nil => exact (hnil 1).trans (hnil i).symm
  | cons n ns ih =>
    have hone : f 1 (Notice.alone i [n]) = f i [n] := by
      by_cases hn : n.connection = i
      · subst hn
        rw [Notice.alone_of_eq fun _ hm => by cases List.mem_singleton.1 hm; rfl]
        exact hsame n
      · rw [Notice.alone_of_ne (fun _ hm => by cases List.mem_singleton.1 hm; rfl) hn, hnil,
          hother n i hn]
    rw [← List.singleton_append, Notice.alone_append, happend, happend, hone, ih]

theorem callsOf_alone (i : Nat) (ns : List Notice) :
    callsOf 1 (Notice.alone i ns) = callsOf i ns := by
  refine read_alone (fun i ms ns => ?_) (fun _ => rfl) (fun n => ?_) (fun n i hn => ?_) i ns
  · simp only [callsOf, Connector.calls, List.filterMap_append, List.filter_append, List.map_append]
  · cases n with
    | called l id mti =>
      cases l with
      | echo => rfl
      | named name => simp [callsOf, Connector.calls, Notice.renumber, Notice.connection]
    | _ => rfl
  · cases n with
    | called l id mti =>
      cases l with
      | echo => rfl
      | named name => simpa [callsOf, Connector.calls, Notice.connection] using hn
    | _ => rfl

theorem logLinesOf_alone (i : Nat) (ns : List Notice) :
    logLinesOf 1 (Notice.alone i ns) = logLinesOf i ns := by
  refine read_alone (fun i ms ns => ?_) (fun _ => rfl) (fun n => ?_) (fun n i hn => ?_) i ns
  · simp only [logLinesOf, Connector.logLines, List.filterMap_append, List.filter_append,
      List.map_append]
  · cases n with
    | logged id d text => simp [logLinesOf, Connector.logLines, Notice.renumber, Notice.connection]
    | _ => rfl
  · cases n with
    | logged id d text => simpa [logLinesOf, Connector.logLines, Notice.connection] using hn
    | _ => rfl

theorem outcomesOf_alone (i : Nat) (ns : List Notice) :
    outcomesOf 1 (Notice.alone i ns) = outcomesOf i ns := by
  refine read_alone (fun i ms ns => ?_) (fun _ => rfl) (fun n => ?_) (fun n i hn => ?_) i ns
  · simp only [outcomesOf, Connector.outcomes, List.filterMap_append, List.filter_append,
      List.map_append]
  · cases n with
    | resolved id ticket r =>
      simp [outcomesOf, Connector.outcomes, Notice.renumber, Notice.connection]
    | _ => rfl
  · cases n with
    | resolved id ticket r => simpa [outcomesOf, Connector.outcomes, Notice.connection] using hn
    | _ => rfl

theorem eventsOf_alone (i : Nat) (ns : List Notice) :
    (Connector.eventsOf 1 (Notice.alone i ns)).map (·.renumber 1) =
      (Connector.eventsOf i ns).map (·.renumber 1) := by
  refine read_alone (f := fun i ns => (Connector.eventsOf i ns).map (·.renumber 1))
    (fun i ms ns => ?_) (fun _ => rfl) (fun n => ?_) (fun n i hn => ?_) i ns
  · simp only [Connector.eventsOf, Connector.events, List.filterMap_append, List.filter_append,
      List.map_append]
  · cases n with
    | published e =>
      cases e <;> simp [Connector.eventsOf, Connector.events, Notice.renumber, Notice.connection,
        Connection.Event.renumber, Connection.Event.id]
    | _ => rfl
  · cases n with
    | published e => simpa [Connector.eventsOf, Connector.events, Notice.connection] using hn
    | _ => rfl

/-- What can be observed of a connection can be observed of it alone. -/
theorem view_alone (i : Nat) (s : Session) : (s.alone i).view 1 = s.view i := by
  have hconnection : (s.alone i).connector.connection? 1 = _ :=
    Connector.connection?_alone i s.connector
  have hhistory : (s.alone i).connector.history = Notice.alone i s.connector.history := rfl
  unfold view Connector.state?
  rw [link?_alone, hconnection, hhistory, callsOf_alone, logLinesOf_alone, outcomesOf_alone,
    eventsOf_alone, Option.map_map, Option.map_map, Option.map_map]
  rfl

/-! ## Isolation -/

/-- A session in which nothing has happened. -/
structure IsNew (s : Session) : Prop where
  connector : s.connector.IsNew
  links : s.links = []

theorem IsNew.isAtRest (h : s.IsNew) (hk : s.connector.KeepsApart) : s.IsAtRest where
  sound := h.connector.sound
  apart := hk
  linked := by rw [h.links, h.connector.1]; rfl
  settled := by
    unfold IsSettled advance?
    rw [h.links]
    rfl

/-- In a new session, listeners that treat two connections alike leave no difference between
them. -/
theorem IsNew.alone_eq (h : s.IsNew)
    (hsame : ∀ e ∈ s.connector.registry, ∀ m, e.2.handle j m = (e.2.handle i m).renumber j) :
    s.alone i = s.alone j := by
  have hfacing : s.connector.registry.map (fun e => (e.1, e.2.facing i)) =
      s.connector.registry.map (fun e => (e.1, e.2.facing j)) := by
    refine List.map_congr_left fun e he => ?_
    have hhandle : (fun n m => (e.2.handle i m).renumber n) =
        fun n m => (e.2.handle j m).renumber n := by
      funext n m
      rw [hsame e he m, Handler.renumber_renumber]
    rw [Listener.facing, Listener.facing, hhandle]
  have hnone (i : Nat) : s.connector.connection? i = none := by
    rw [Connector.connection?, h.connector.1]
    rfl
  have hlink (i : Nat) : s.link? i = none := by
    rw [link?, h.links]
    rfl
  have hhistory (i : Nat) : Notice.alone i s.connector.history = [] := by
    rw [h.connector.2]
    rfl
  unfold alone Connector.alone
  rw [hfacing, hnone i, hnone j, hlink i, hlink j, hhistory i, hhistory j]

/-- **Connections are isolated.** Where every listener keeps to the connection that it is called
with, two runs of a session that take the same time and in which the same comes to a connection at
the same times, whatever else comes to the session in either, cannot be told apart by the
connection. If it has another number in the second run, the listeners have to treat both numbers
alike. -/
theorem isolated (hs : s.IsNew) (hk : s.connector.KeepsApart)
    (hsame : i ≠ j → ∀ e ∈ s.connector.registry, ∀ m, e.2.handle j m = (e.2.handle i m).renumber j)
    {as bs : List Act} (htimeline : timeline i s as = timeline j s bs)
    (hnow : (s.run as).now = (s.run bs).now) : (s.run as).view i = (s.run bs).view j := by
  have hrest := hs.isAtRest hk
  have halone : s.alone i = s.alone j := by
    by_cases hij : i = j
    · rw [hij]
    · exact hs.alone_eq (hsame hij)
  rw [← view_alone i, ← view_alone j, alone_run hrest i, alone_run hrest j, halone, htimeline, hnow]

/-- A connection whose peer sends a message and waits for the answer, by itself and behind another
one whose peer sends nonsense and goes away. The listener that answers panics each time. -/
theorem isolated_from_nonsense :
    let answering : Listener :=
      ⟨fun _ => .ok true,
        fun id m => .ask (.send id m.response) fun _ => .done (.error (.panic none))⟩
    let s : Session :=
      { connector := { settings := { lengthWidth := 1, maxFrameLength := 64 }
                       registry := [("answering", answering)], chain := [.named "answering"] }
        capacity := 8, drain := true }
    let frame : List UInt8 := [16] ++ Pack.serialize (.new 0x0200)
    let as : List Act := [.inputs [.turn .openConnection], .inputs [.peer 1 (.post frame)],
      .wait (fun _ => false) 10]
    let bs : List Act := [.inputs [.turn .openConnection, .turn .openConnection],
      .inputs [.peer 1 (.post [1, 0xC1, 65])], .inputs [.peer 1 .leave, .peer 2 (.post frame)],
      .inputs [.turn (.ask (.close 1))], .wait (fun _ => false) 10]
    timeline 1 s as = [(0, [.turn .openConnection]), (0, [.peer 1 (.post frame)])] ∧
      (s.run as).view 1 = (s.run bs).view 2 := by
  intro answering s frame as bs
  have hnew : s.IsNew := ⟨⟨rfl, rfl⟩, rfl⟩
  have hapart : s.connector.KeepsApart := by
    intro e he
    cases List.mem_singleton.1 he
    exact fun id m => ⟨rfl, fun _ => trivial⟩
  have htimeline :
      timeline 1 s as = [(0, [.turn .openConnection]), (0, [.peer 1 (.post frame)])] := by
    simp only [as, timeline, entry, share, now_act_inputs]
    rfl
  have htimeline' :
      timeline 2 s bs = [(0, [.turn .openConnection]), (0, [.peer 1 (.post frame)])] := by
    simp only [bs, timeline, entry, share, now_act_inputs]
    rfl
  have hwait (t : Session) (xs : List Input) :
      ((t.act (.inputs xs)).act (.wait (fun _ => false) 10)).now = t.now + 10 := by
    have hsettled : (t.act (.inputs xs)).IsSettled := isSettled_settle _
    rw [now_act_wait hsettled fun _ => rfl, now_act_inputs]
  have hnow : (s.run as).now = 10 := by
    simp only [as, run, List.foldl_cons, List.foldl_nil, hwait, now_act_inputs]
    rfl
  have hnow' : (s.run bs).now = 10 := by
    simp only [bs, run, List.foldl_cons, List.foldl_nil, hwait, now_act_inputs]
    rfl
  refine ⟨htimeline, isolated hnew hapart (fun _ e he m => ?_) ?_ ?_⟩
  · cases List.mem_singleton.1 he
    rfl
  · exact htimeline.trans htimeline'.symm
  · exact hnow.trans hnow'.symm

end Session

end Interchange
