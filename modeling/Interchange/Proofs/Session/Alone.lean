import Interchange.Proofs.Connector.Alone
import Interchange.Proofs.Connector.Heartbeats
import Interchange.Proofs.Session.InTime

/-!
# A connection alone in a session

`Session.alone i` leaves nothing of a session but connection `i` and its link, as number 1. Settling
a session settles its connection alone (`alone_settle`), and letting time pass lets the same time
pass for the connection alone (`alone_runUntil`): there the clock stops only at the timers of this
connection, and stops at those of others bring about nothing (`tick_eq`).
-/

namespace Interchange

/-! ## Links -/

/-- The link of the connection with another number. -/
def Link.renumber (n : Nat) (l : Link) : Link := { l with id := n }

/-- A socket does with a link what it does with it under another number. -/
theorem Writer.next?_renumber (closing : Bool) (w : Writer) (l : Link) (n : Nat) :
    next? Link.socket closing w (l.renumber n) =
      (next? Link.socket closing w l).map id (Link.renumber n) := by
  have hwrite (slices : List (List UInt8)) :
      (l.renumber n).write slices = (l.write slices).map id (Link.renumber n) := by
    unfold Link.write
    rw [show (l.renumber n).peer = l.peer from rfl,
      show (l.renumber n).outputEnded = l.outputEnded from rfl,
      show (l.renumber n).capacity = l.capacity from rfl,
      show (l.renumber n).outgoing = l.outgoing from rfl]
    split
    · rfl
    · split <;> rfl
  unfold next?
  cases w.phase with
  | waiting =>
    dsimp only
    split
    · rfl
    · split <;> rfl
  | gathering ms => rfl
  | writing b =>
    dsimp only
    split
    · rfl
    · simp only [Link.socket, hwrite]
      rfl
  | ended r => rfl
  | abandoned => rfl

namespace Session

open Connector (Happens KeepsApart)

variable {s t : Session} {i j : Nat} {c : Connection} {l : Link}

/-- A session with no connection but number `i`, which is its number 1. -/
def alone (i : Nat) (s : Session) : Session :=
  { s with
    connector := s.connector.alone i
    links := ((s.link? i).map (·.renumber 1)).toList }

theorem link?_alone (i : Nat) (s : Session) :
    (s.alone i).link? 1 = (s.link? i).map (·.renumber 1) := by
  cases h : s.link? i with
  | none => rw [link?, alone, h]; rfl
  | some l => rw [link?, alone, h]; rfl

/-- A session whose connector and whose link of connection `i` are changed, alone. -/
theorem alone_modify (k : Connector) {f g : Link → Link} (hf : ∀ l : Link, l.id = i → (f l).id = i)
    (hfg : ∀ l, s.link? i = some l → (f l).renumber 1 = g (l.renumber 1)) :
    ({ s with connector := k, links := Numbered.modify i f s.links } : Session).alone i =
      { s.alone i with
        connector := k.alone i
        links := Numbered.modify 1 g (s.alone i).links } := by
  have hlink : Numbered.get? i (Numbered.modify i f s.links) = (s.link? i).map f := by
    rw [Numbered.get?_modify hf, if_pos rfl]
    rfl
  unfold alone
  rw [link?, hlink]
  cases hl : s.link? i with
  | none => rfl
  | some l =>
    simp only [Option.map_some, hfg l hl]
    rfl

/-- What is up with another connection is not seen. -/
theorem MovesAt.alone (h : MovesAt j s t) (hk : s.connector.KeepsApart) (hij : j ≠ i) :
    t.alone i = s.alone i := by
  obtain ⟨k, f, rfl, hstep, hf⟩ := h
  have hconfined : Connector.Confined j s.connector k := by
    rcases hstep with rfl | ⟨e, rfl⟩
    · exact .refl j _
    · exact Connector.confined_step hk j s.now e
  have hlink : Numbered.get? i (Numbered.modify j f s.links) = s.link? i := by
    rw [Numbered.get?_modify hf, if_neg hij.symm]
    rfl
  unfold Session.alone
  rw [hconfined.alone hij, link?, hlink]

/-! ## Settling -/

theorem alone_writes? (hk : s.connector.KeepsApart) (hl : s.link? c.id = some l) :
    (s.alone c.id).writes? (c.renumber 1) (l.renumber 1) = (s.writes? c l).map (alone c.id) := by
  unfold writes?
  rw [show (c.renumber 1).state = c.state from rfl, show (c.renumber 1).writer = c.writer from rfl,
    Writer.next?_renumber]
  have hid := id_next? c.state.isClosing c.writer l
  rw [show l.id = c.id from Numbered.number_of_get? hl] at hid
  generalize Writer.next? Link.socket c.state.isClosing c.writer l = p at hid
  obtain ⟨e?, l'⟩ := p
  cases e? with
  | none => rfl
  | some e =>
    have hafter := alone_modify (s := s) (i := c.id) (s.connector.step c.id s.now (.writer e))
      (f := fun _ => if (c.writer.step s.connector.settings.codec e).1.endedWell then l'.shutdown
        else l')
      (g := fun _ => if (c.writer.step s.connector.settings.codec e).1.endedWell then
        (l'.renumber 1).shutdown else l'.renumber 1)
      (fun _ _ => by split <;> exact hid) (fun _ _ => by split <;> rfl)
    rw [Connector.alone_step hk] at hafter
    exact congrArg some hafter.symm

theorem alone_reads? (hk : s.connector.KeepsApart) (hl : s.link? c.id = some l) :
    (s.alone c.id).reads? (c.renumber 1) (l.renumber 1) = (s.reads? c l).map (alone c.id) := by
  have hid : l.id = c.id := Numbered.number_of_get? hl
  have hfinding : finding? (c.renumber 1) (l.renumber 1) = finding? c l := rfl
  unfold reads?
  rw [show (c.renumber 1).reader = c.reader from rfl, show (c.renumber 1).state = c.state from rfl,
    show (l.renumber 1).incoming = l.incoming from rfl, hfinding]
  split
  · have hafter := alone_modify (s := s) (i := c.id)
      (s.connector.step c.id s.now (.received l.chunk)) (f := fun _ => l.dropChunk)
      (g := fun _ => (l.renumber 1).dropChunk) (fun _ _ => hid) fun _ _ => rfl
    rw [Connector.alone_step hk] at hafter
    exact congrArg some hafter.symm
  · cases finding? c l with
    | none => rfl
    | some h =>
      have hstep := Connector.alone_step hk c.id s.now h
      refine congrArg some ?_
      unfold alone
      rw [hstep]
      rfl

theorem alone_updateLink {f : Link → Link} (hf : ∀ l : Link, l.id = i → (f l).id = i)
    {g : Link → Link} (hfg : ∀ l, s.link? i = some l → (f l).renumber 1 = g (l.renumber 1)) :
    (s.updateLink i f).alone i = (s.alone i).updateLink 1 g :=
  alone_modify s.connector hf hfg

theorem alone_setLink {d : Link} (hd : d.id = i) (s : Session) :
    (s.updateLink i fun _ => d).alone i = (s.alone i).updateLink 1 fun _ => d.renumber 1 :=
  alone_updateLink (fun _ _ => hd) fun _ _ => rfl

theorem alone_peerReads? (hl : s.link? c.id = some l) :
    (s.alone c.id).peerReads? (c.renumber 1) (l.renumber 1) =
      (s.peerReads? c l).map (alone c.id) := by
  have hid : l.id = c.id := Numbered.number_of_get? hl
  unfold peerReads?
  rw [show (s.alone c.id).drain = s.drain from rfl, show (l.renumber 1).peer = l.peer from rfl,
    show (l.renumber 1).outgoing = l.outgoing from rfl,
    show (l.renumber 1).outputEnded = l.outputEnded from rfl,
    show (l.renumber 1).endSeen = l.endSeen from rfl,
    show (c.renumber 1).reader = c.reader from rfl]
  split
  · rfl
  · split
    · exact congrArg some (alone_setLink (d := l.peerRead l.outgoing.length) hid s).symm
    · split
      · exact congrArg some (alone_setLink (d := { l with endSeen := true }) hid s).symm
      · rfl

theorem alone_peerWrites? (hl : s.link? c.id = some l) :
    (s.alone c.id).peerWrites? (c.renumber 1) (l.renumber 1) =
      (s.peerWrites? c l).map (alone c.id) := by
  have hid : l.id = c.id := Numbered.number_of_get? hl
  unfold peerWrites?
  rw [show (l.renumber 1).outbox = l.outbox from rfl, show (l.renumber 1).room = l.room from rfl,
    show (c.renumber 1).reader = c.reader from rfl]
  split
  · rfl
  · exact congrArg some (alone_setLink (d := l.deliver) hid s).symm

theorem alone_advanceAt? (hk : s.connector.KeepsApart) (i : Nat) :
    (s.alone i).advanceAt? 1 = (s.advanceAt? i).map (alone i) := by
  have hconnection : (s.alone i).connector.connection? 1 = _ :=
    Connector.connection?_alone i s.connector
  unfold advanceAt?
  rw [hconnection, link?_alone]
  cases hc : s.connector.connection? i with
  | none => rfl
  | some c =>
    obtain rfl := Connector.id_of_connection? hc
    cases hl : s.link? c.id with
    | none => rfl
    | some l =>
      simp only [Option.map_some, Option.orElse_eq_or, alone_writes? hk hl, alone_reads? hk hl,
        alone_peerReads? hl, alone_peerWrites? hl, Option.map_or]

theorem Moves.keepsApart (h : s.Moves t) (hk : s.connector.KeepsApart) :
    t.connector.KeepsApart := by
  unfold KeepsApart
  rwa [h.happens.changes.advances.configured.2.2]

/-- **What a session does without time passing**, its connection alone does or does not notice. -/
theorem alone_advance? (hk : s.connector.KeepsApart) (h : s.advance? = some t) (i : Nat) :
    (s.alone i).advance? = some (t.alone i) ∨ t.alone i = s.alone i := by
  obtain ⟨l, hl, hat⟩ := List.exists_of_findSome?_eq_some h
  by_cases hi : l.id = i
  · obtain rfl := hi
    obtain ⟨d, hd⟩ : ∃ d, s.link? l.id = some d := Numbered.exists_get?_of_mem hl
    have hone : (s.alone l.id).advanceAt? (d.renumber 1).id = some (t.alone l.id) := by
      rw [show (d.renumber 1).id = 1 from rfl, alone_advanceAt? hk, hat]
      rfl
    have hlinks : (s.alone l.id).links = [d.renumber 1] := by
      rw [alone, hd]
      rfl
    left
    rw [advance?, hlinks, List.findSome?_cons, hone]
  · exact .inr ((moves_advanceAt? hat).alone hk hi)

theorem IsSettled.alone (h : s.IsSettled) (hk : s.connector.KeepsApart) (i : Nat) :
    (s.alone i).IsSettled := by
  unfold IsSettled advance?
  refine List.findSome?_eq_none_iff.2 fun d hd => ?_
  obtain ⟨l, hl, rfl⟩ := Option.map_eq_some_iff.1 (Option.mem_toList.1 hd)
  have hat := List.findSome?_eq_none_iff.1 h l (Numbered.mem_of_get? hl)
  rw [show l.id = i from Numbered.number_of_get? hl] at hat
  rw [show (l.renumber 1).id = 1 from rfl, alone_advanceAt? hk, hat]
  rfl

/-- **Settling a session settles its connection alone.** -/
theorem alone_settle (hk : s.connector.KeepsApart) (i : Nat) :
    s.settle.alone i = (s.alone i).settle := by
  fun_induction settle s with
  | case1 s h => exact (settle_of_isSettled (IsSettled.alone h hk i)).symm
  | case2 s t h ih =>
    rw [ih ((moves_advance? h).keepsApart hk)]
    rcases alone_advance? hk h i with hone | hone
    · rw [settle_of_advance? hone]
    · rw [hone]

/-! ## Timers -/

/-- The timers of the connection alone are timers of the session. -/
theorem exists_nextTimer?_of_alone {u : Nat} (h : (s.alone i).nextTimer? = some u) :
    ∃ v, s.nextTimer? = some v ∧ v ≤ u := by
  obtain ⟨d, hd, ht⟩ := List.mem_filterMap.1 (List.min?_mem h)
  obtain ⟨c, hc, rfl⟩ := Option.map_eq_some_iff.1 (Option.mem_toList.1 hd)
  exact exists_nextTimer?_of_mem (Numbered.mem_of_get? hc) ht

/-- What the time brings about for connections one after the other. -/
theorem alone_foldl {cs : List Connection} (hcs : (cs.map (·.id)).Nodup) {k : Connector}
    (hk : k.KeepsApart) (i now : Nat) :
    (cs.foldl (fun k c => (k.step c.id now .alarm).step c.id now .gaveUp) k).alone i =
      if i ∈ cs.map (·.id) then ((k.alone i).step 1 now .alarm).step 1 now .gaveUp
      else k.alone i := by
  induction cs generalizing k with
  | nil => rfl
  | cons c cs ih =>
    obtain ⟨hc, hcs⟩ := List.nodup_cons.1 hcs
    have hboth : Connector.Confined c.id k ((k.step c.id now .alarm).step c.id now .gaveUp) := by
      have halarm := Connector.confined_step hk c.id now .alarm
      exact halarm.trans (Connector.confined_step (halarm.keepsApart hk) c.id now .gaveUp)
    rw [List.foldl_cons, ih hcs (hboth.keepsApart hk)]
    by_cases hi : i = c.id
    · subst hi
      have halarm := Connector.confined_step hk c.id now .alarm
      rw [if_neg hc, List.map_cons, if_pos List.mem_cons_self,
        Connector.alone_step (halarm.keepsApart hk),
        Connector.alone_step hk]
    · rw [hboth.alone (Ne.symm hi), List.map_cons]
      simp only [List.mem_cons, hi, false_or]

theorem alone_fire (hs : s.connector.Sound) (hk : s.connector.KeepsApart) (i : Nat) :
    s.fire.alone i = (s.alone i).fire := by
  have hnodup : (s.connector.connections.map (·.id)).Nodup := hs.numbered ▸ List.nodup_range'
  have hfold := alone_foldl hnodup hk i s.now
  unfold fire
  rw [alone, hfold]
  cases hc : s.connector.connection? i with
  | none =>
    have hnone : (s.alone i).connector.connections = [] := by
      rw [alone, Connector.alone, hc]
      rfl
    rw [if_neg, hnone]
    · rfl
    · intro hmem
      obtain ⟨c, hc', hid⟩ := List.mem_map.1 hmem
      exact Numbered.get?_eq_none.1 hc c hc' hid
  | some c =>
    have hone : (s.alone i).connector.connections = [c.renumber 1] := by
      rw [alone, Connector.alone, hc]
      rfl
    rw [if_pos, hone]
    · rfl
    · exact List.mem_map.2 ⟨c, Numbered.mem_of_get? hc, Connector.id_of_connection? hc⟩

theorem alone_tick (hs : s.connector.Sound) (hk : s.connector.KeepsApart) (i u : Nat) :
    (s.tick u).alone i = (s.alone i).tick u := by
  have hfire : ({ s with now := u } : Session).fire.alone i =
      ({ s.alone i with now := u } : Session).fire :=
    alone_fire (s := { s with now := u }) hs hk i
  have hkeeps : ({ s with now := u } : Session).fire.connector.KeepsApart := by
    unfold KeepsApart
    rwa [(happens_fire { s with now := u }).changes.advances.configured.2.2]
  rw [tick, alone_settle hkeeps, hfire]
  rfl

/-! ## Ticks at which no timer is due -/

/-- A session with its clock set. -/
def atTime (u : Nat) (s : Session) : Session := { s with now := u }

/-- Whether something can happen to a connection does not depend on the time. -/
theorem isSome_advanceAt?_atTime (s : Session) (u id : Nat) :
    ((s.atTime u).advanceAt? id).isSome = (s.advanceAt? id).isSome := by
  have hwrites (c : Connection) (l : Link) :
      ((s.atTime u).writes? c l).isSome = (s.writes? c l).isSome := by
    unfold writes?
    generalize Writer.next? Link.socket c.state.isClosing c.writer l = p
    obtain ⟨e?, l'⟩ := p
    cases e? <;> rfl
  have hreads (c : Connection) (l : Link) :
      ((s.atTime u).reads? c l).isSome = (s.reads? c l).isSome := by
    unfold reads?
    split
    · rfl
    · cases finding? c l <;> rfl
  have hpeerReads (c : Connection) (l : Link) :
      ((s.atTime u).peerReads? c l).isSome = (s.peerReads? c l).isSome := by
    unfold peerReads?
    rw [show (s.atTime u).drain = s.drain from rfl]
    split
    · rfl
    · split
      · rfl
      · split <;> rfl
  have hpeerWrites (c : Connection) (l : Link) :
      ((s.atTime u).peerWrites? c l).isSome = (s.peerWrites? c l).isSome := by
    unfold peerWrites?
    split <;> rfl
  unfold advanceAt?
  rw [show (s.atTime u).connector = s.connector from rfl,
    show (s.atTime u).link? id = s.link? id from rfl]
  cases s.connector.connection? id with
  | none => rfl
  | some c =>
    cases s.link? id with
    | none => rfl
    | some l =>
      simp only [Option.orElse_eq_or, Option.isSome_or, hwrites, hreads, hpeerReads, hpeerWrites]

theorem IsSettled.atTime (h : s.IsSettled) (u : Nat) : (s.atTime u).IsSettled := by
  refine List.findSome?_eq_none_iff.2 fun l hl => ?_
  have hat := List.findSome?_eq_none_iff.1 h l hl
  have hsome := s.isSome_advanceAt?_atTime u l.id
  rw [hat] at hsome
  exact Option.not_isSome_iff_eq_none.1 (Bool.eq_false_iff.1 hsome)

/-- A connection whose timer is later than a time does nothing at that time. -/
theorem step_of_lt_timer? {u : Nat} (hc : s.connector.connection? i = some c) (hnow : s.now < u)
    (h : ∀ v, s.timer? c = some v → u < v) :
    s.connector.step i u .alarm = s.connector ∧ s.connector.step i u .gaveUp = s.connector := by
  simp only [Connector.step, hc]
  unfold timer? at h
  cases hr : c.reader with
  | reading =>
    refine ⟨?_, rfl⟩
    simp only [Connector.stepReading]
    cases hw : s.connector.window? with
    | none => rfl
    | some w =>
      have hlater := h (max (c.activity.deadline w) (s.now + 1)) (by rw [hr, hw]; rfl)
      have hpos := Connector.window_pos hw
      have hbusy : ¬ c.activity.isIdle w u = true := by
        intro hidle
        have hle : w ≤ u - c.activity.last := of_decide_eq_true hidle
        rw [Activity.deadline] at hlater
        omega
      dsimp only
      rw [if_neg hbusy]
  | draining since =>
    refine ⟨rfl, ?_⟩
    have hlater := h (max (since + Connection.drainLimit) (s.now + 1)) (by rw [hr])
    have hwaits : ¬ since + Connection.drainLimit ≤ u := by omega
    simp [Connector.stepDraining, hwaits]
  | ended => exact ⟨rfl, rfl⟩

/-- **A tick before the next timer** only sets the clock. -/
theorem tick_eq (hs : s.IsSettled) {u : Nat} (hnow : s.now < u)
    (h : ∀ v, s.nextTimer? = some v → u < v) : s.tick u = s.atTime u := by
  have hwaits (c : Connection) (hc : c ∈ s.connector.connections) :
      (s.connector.step c.id u .alarm).step c.id u .gaveUp = s.connector := by
    obtain ⟨d, hd⟩ : ∃ d, s.connector.connection? c.id = some d := Numbered.exists_get?_of_mem hc
    have hlater (v : Nat) (hv : s.timer? d = some v) : u < v := by
      obtain ⟨t, ht, hle⟩ := exists_nextTimer?_of_mem (Numbered.mem_of_get? hd) hv
      exact Nat.lt_of_lt_of_le (h t ht) hle
    obtain ⟨halarm, hgaveUp⟩ := step_of_lt_timer? hd hnow hlater
    rw [halarm, hgaveUp]
  have hfire : (s.atTime u).fire = s.atTime u := by
    have hfold (cs : List Connection) (hcs : ∀ c ∈ cs, c ∈ s.connector.connections) :
        cs.foldl (fun k c => (k.step c.id u .alarm).step c.id u .gaveUp) s.connector =
          s.connector := by
      induction cs with
      | nil => rfl
      | cons c cs ih =>
        rw [List.foldl_cons, hwaits c (hcs c List.mem_cons_self)]
        exact ih fun d hd => hcs d (List.mem_cons_of_mem c hd)
    have hall := hfold s.connector.connections fun _ hc => hc
    unfold fire
    rw [atTime]
    dsimp only
    rw [hall]
  rw [tick]
  change (s.atTime u).fire.settle = s.atTime u
  rw [hfire, settle_of_isSettled (hs.atTime u)]

/-! ## Letting time pass -/

/-- Let time pass up to a given time, if it has not come. -/
def pass (s : Session) (u : Nat) : Session :=
  if s.now < u then (s.runUntil (fun _ => false) u).2 else s

theorem pass_of_le {u : Nat} (h : u ≤ s.now) : s.pass u = s := if_neg (Nat.not_lt.2 h)

theorem pass_eq_tick {u : Nat} (hnow : s.now < u) (h : ∀ v, s.nextTimer? = some v → u ≤ v) :
    s.pass u = s.tick u := by
  have hmax : max u s.now = u := by omega
  rw [pass, if_pos hnow, runUntil, if_neg Bool.false_ne_true]
  split
  · rw [hmax]
  · next v hv => rw [if_neg (Nat.not_lt.2 (h v hv)), hmax]

theorem pass_of_nextTimer? {u v : Nat} (h : s.nextTimer? = some v) (hv : v < u) :
    s.pass u = (s.tick v).pass u := by
  have hnow := now_lt_nextTimer? h
  have hlt : s.now < u := by omega
  have htick : (s.tick v).now < u := by rwa [now_tick]
  rw [pass, if_pos hlt, pass, if_pos htick, runUntil, if_neg Bool.false_ne_true]
  split
  · next hn => cases h.symm.trans hn
  · next v' hv' =>
    cases h.symm.trans hv'
    rw [if_pos hv]

theorem now_pass {u : Nat} (h : s.now ≤ u) : (s.pass u).now = u := by
  unfold pass
  split
  · exact now_runUntil (fun _ => rfl) h
  · omega

/-- Timers do not depend on the time, as long as it is earlier. -/
theorem nextTimer?_atTime {u : Nat} (hnow : s.now < u) (h : ∀ v, s.nextTimer? = some v → u < v) :
    (s.atTime u).nextTimer? = s.nextTimer? := by
  unfold nextTimer?
  refine congrArg List.min? (List.filterMap_congr fun c hc => ?_)
  have hlater (v : Nat) (hv : s.timer? c = some v) : u < v := by
    obtain ⟨t, ht, hle⟩ := exists_nextTimer?_of_mem (s := s) hc hv
    exact Nat.lt_of_lt_of_le (h t ht) hle
  unfold timer? at hlater ⊢
  rw [show (s.atTime u).connector = s.connector from rfl, show (s.atTime u).now = u from rfl]
  cases hr : c.reader with
  | reading =>
    cases hw : s.connector.window? with
    | none => rfl
    | some w =>
      have := hlater (max (c.activity.deadline w) (s.now + 1)) (by rw [hr, hw]; rfl)
      refine congrArg some ?_
      dsimp only
      omega
  | draining since =>
    have := hlater (max (since + Connection.drainLimit) (s.now + 1)) (by rw [hr])
    refine congrArg some ?_
    omega
  | ended => rfl

/-- A stop at which no timer is due does not matter. -/
theorem pass_atTime {a b : Nat} (hnow : s.now < a) (hab : a < b)
    (h : ∀ v, s.nextTimer? = some v → a < v) : (s.atTime a).pass b = s.pass b := by
  have htimer := nextTimer?_atTime hnow h
  have hlt : s.now < b := by omega
  by_cases hfirst : ∃ v, s.nextTimer? = some v ∧ v < b
  · obtain ⟨v, hv, hvb⟩ := hfirst
    rw [pass_of_nextTimer? hv hvb, pass_of_nextTimer? (htimer.trans hv) hvb]
    rfl
  · have hlater (v : Nat) (hv : s.nextTimer? = some v) : b ≤ v :=
      Nat.not_lt.1 fun hvb => hfirst ⟨v, hv, hvb⟩
    rw [pass_eq_tick hlt hlater, pass_eq_tick hab fun v hv => hlater v (htimer.symm.trans hv)]
    rfl

/-- Waiting in vain, and then for a later time, is waiting for the later time. -/
theorem pass_runUntil {holds : Session → Bool} (hnever : ∀ t, holds t = false) (hs : s.IsSettled)
    {a b : Nat} (hnow : s.now < a) (hab : a < b) : (s.runUntil holds a).2.pass b = s.pass b := by
  fun_induction runUntil holds a s with
  | case1 s h => cases (hnever s).symm.trans h
  | case2 s _ hn =>
    have hmax : max a s.now = a := by omega
    have hnone (v : Nat) (hv : s.nextTimer? = some v) : a < v := by cases hn.symm.trans hv
    rw [hmax, tick_eq hs hnow hnone, pass_atTime hnow hab hnone]
  | case3 s _ t hn hlt ih =>
    rw [ih (s.isSettled_tick t) (by rwa [now_tick])]
    exact (pass_of_nextTimer? hn (Nat.lt_trans hlt hab)).symm
  | case4 s _ t hn hge =>
    have hmax : max a s.now = a := by omega
    rw [hmax]
    -- The clock stops at the next timer or before it.
    rcases Nat.lt_or_eq_of_le (Nat.not_lt.1 hge) with hlt | rfl
    · have hlater (v : Nat) (hv : s.nextTimer? = some v) : a < v := by
        cases hn.symm.trans hv
        exact hlt
      rw [tick_eq hs hnow hlater, pass_atTime hnow hab hlater]
    · exact (pass_of_nextTimer? hn hab).symm

/-- **Time passes in stages** as it passes at once. -/
theorem pass_pass (hs : s.IsSettled) {a b : Nat} (hab : a ≤ b) : (s.pass a).pass b = s.pass b := by
  rcases Nat.lt_or_ge s.now a with hnow | hnow
  · rcases Nat.lt_or_eq_of_le hab with hab | rfl
    · have hpass : s.pass a = (s.runUntil (fun _ => false) a).2 := if_pos hnow
      rw [hpass, pass_runUntil (fun _ => rfl) hs hnow hab]
    · exact pass_of_le (Nat.le_of_eq (now_pass (Nat.le_of_lt hnow)).symm)
  · rw [pass_of_le hnow]

/-! ## A connection alone in time -/

/-- A session with listeners that keep to their connections, and with a link for each connection. -/
structure IsOrderly (s : Session) : Prop where
  sound : s.connector.Sound
  apart : s.connector.KeepsApart
  linked : s.links.map (·.id) = s.connector.connections.map (·.id)

theorem map_id_settle (s : Session) : s.settle.links.map (·.id) = s.links.map (·.id) := by
  fun_induction settle s with
  | case1 => rfl
  | case2 s t h ih =>
    obtain ⟨id, k, f, rfl, -, hf⟩ := moves_advance? h
    rw [ih]
    exact Numbered.map_modify_of_eq (·.id) (fun l hl => (hf l hl).trans hl.symm) s.links

namespace IsOrderly

theorem changes (h : s.IsOrderly) (hk : Connector.Changes s.connector t.connector)
    (hl : t.links.map (·.id) = s.links.map (·.id)) : t.IsOrderly where
  sound := h.sound.advances hk.advances
  apart := by
    unfold KeepsApart
    rw [hk.advances.configured.2.2]
    exact h.apart
  linked := by rw [hl, h.linked, hk.map_id]

theorem settle (h : s.IsOrderly) : s.settle.IsOrderly :=
  h.changes s.happens_settle.changes s.map_id_settle

theorem tick (h : s.IsOrderly) (u : Nat) : (s.tick u).IsOrderly := by
  have hfire : ({ s with now := u } : Session).fire.IsOrderly :=
    h.changes (happens_fire { s with now := u }).changes rfl
  exact hfire.settle

end IsOrderly

/-- **Waiting for something lets time pass for each connection alone**, up to the time at which the
waiting ends. -/
theorem alone_runUntil (hs : s.IsSettled) (h : s.IsOrderly) (i : Nat) (holds : Session → Bool)
    {target : Nat} (hlt : s.now < target) : (s.runUntil holds target).2.alone i =
      (s.alone i).pass (s.runUntil holds target).2.now := by
  fun_induction runUntil holds target s with
  | case1 s => exact (pass_of_le (Nat.le_refl _)).symm
  | case2 s _ hn =>
    have hmax : max target s.now = target := by omega
    have hnone (v : Nat) (hv : (s.alone i).nextTimer? = some v) : target ≤ v := by
      obtain ⟨t, ht, -⟩ := exists_nextTimer?_of_alone hv
      cases hn.symm.trans ht
    rw [hmax, alone_tick h.sound h.apart, now_tick]
    exact (pass_eq_tick (s := s.alone i) hlt hnone).symm
  | case3 s _ t hn ht ih =>
    have hnow := now_lt_nextTimer? hn
    have hlater (v : Nat) (hv : (s.alone i).nextTimer? = some v) : t ≤ v := by
      obtain ⟨u, hu, hle⟩ := exists_nextTimer?_of_alone hv
      cases hn.symm.trans hu
      exact hle
    have hle : t ≤ ((s.tick t).runUntil holds target).2.now := by
      have := now_runUntil_le (s.tick t) holds target
      rwa [now_tick] at this
    have hfirst : (s.tick t).alone i = (s.alone i).pass t := by
      rw [alone_tick h.sound h.apart]
      exact (pass_eq_tick (s := s.alone i) hnow hlater).symm
    rw [ih (s.isSettled_tick t) (h.tick t) (by rwa [now_tick]), hfirst,
      pass_pass (hs.alone h.apart i) hle]
  | case4 s _ t hn hge =>
    have hmax : max target s.now = target := by omega
    have hlater (v : Nat) (hv : (s.alone i).nextTimer? = some v) : target ≤ v := by
      obtain ⟨u, hu, hle⟩ := exists_nextTimer?_of_alone hv
      cases hn.symm.trans hu
      omega
    rw [hmax, alone_tick h.sound h.apart, now_tick]
    exact (pass_eq_tick (s := s.alone i) hlt hlater).symm

theorem IsOrderly.runUntil (h : s.IsOrderly) (holds : Session → Bool) (target : Nat) :
    (s.runUntil holds target).2.IsOrderly := by
  fun_induction Session.runUntil holds target s with
  | case1 => exact h
  | case2 => exact h.tick _
  | case3 s _ t _ _ ih => exact ih (h.tick t)
  | case4 => exact h.tick _

end Session

end Interchange
