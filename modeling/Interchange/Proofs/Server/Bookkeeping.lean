import Interchange.Proofs.Connector.Lifecycle
import Interchange.Server.Basic
import Mathlib.Data.List.Induction

/-!
# The books of a server

What a server keeps account of agrees with what there is, in whatever order it is started and
stopped, sockets are accepted and connections go down.

* `Move` says what an event does to a server, and `move_step` that every step is such a move.
* `Listening`: the server has an address exactly while an accept loop runs, and that one alone.
* `Tracked`: a connection that is not gone is in the table, or a stop has taken it out and closed
  it.
* `Since`: from the beginning of a stop on, the table is empty once the accept loop has ended, as
  long as no new accept loop begins.

`bookkeeping` puts them together for every run.
-/

namespace Interchange

namespace Server

open Connection (State)
open Connector (Changes Sound)

variable {s t : Server} {now : Nat} {e : Event} {i : Nat}

/-- Carry out events one after the other, each at its time. -/
def run (s : Server) (es : List (Nat × Event)) : Server := es.foldl (fun s e => s.step e.1 e.2) s

theorem run_append (s : Server) (es us : List (Nat × Event)) :
    s.run (es ++ us) = (s.run es).run us :=
  List.foldl_append

theorem run_concat (s : Server) (es : List (Nat × Event)) (e : Nat × Event) :
    s.run (es ++ [e]) = (s.run es).step e.1 e.2 :=
  run_append s es [e]

theorem isGone_iff : s.isGone i = true ↔ s.connector.state? i = some .disconnected := by
  unfold isGone Connector.state?
  cases s.connector.connection? i <;> simp

/-! ## What an event does -/

theorem changes_closeAll (k : Connector) (ids : List Nat) : Changes k (closeAll k ids) := by
  induction ids generalizing k with
  | nil => exact .refl
  | cons id ids ih => exact .head (.close k id) (ih _)

/-- Connections that are closed are closing, and no other is. -/
theorem state?_closeAll (k : Connector) (ids : List Nat) (i : Nat) :
    (closeAll k ids).state? i = if i ∈ ids then (k.state? i).map State.closed else k.state? i := by
  induction ids generalizing k with
  | nil => rfl
  | cons id ids ih =>
    have hcons : closeAll k (id :: ids) = closeAll (k.close id) ids := rfl
    rw [hcons, ih, Connector.state?_close]
    by_cases hid : i = id
    · subst hid
      rw [if_pos rfl, if_pos List.mem_cons_self]
      split
      · rw [Option.map_map]
        congr 1
        funext st
        cases st <;> rfl
      · rfl
    · rw [if_neg hid]
      simp [hid]

/-- Whether a call that stops the server still waits for an accept loop. -/
def Stop.isHalting : Stop → Bool
  | .halting _ => true
  | _ => false

/-- What an event does to a server. -/
inductive Move (s : Server) (now : Nat) : Event → Server → Prop
  /-- Something happens to connections, or nothing at all. -/
  | connections (e : Event) {k : Connector} (h : Changes s.connector k) :
    Move s now e { s with connector := k }
  /-- A call that starts the server begins, or is over without an accept loop. -/
  | binding (e : Event) (n : Nat) : Move s now e { s with binding := n }
  /-- A call that starts the server begins an accept loop. -/
  | bind (address : Nat) (h : s.address = none) :
    Move s now (.bound address)
      { s with
        binding := s.binding - 1
        address := some address
        acceptor := some s.loops.length
        loops := s.loops ++ [.accepting] }
  /-- The accept loop accepts a socket. -/
  | accept (n : Nat) (h : s.loops[n]? = some .accepting) : Move s now (.accepted n) (s.accept now)
  /-- An accept loop ends that was aborted. -/
  | loopEnd (n : Nat) (h : s.loops[n]? = some .aborted) :
    Move s now (.loopEnded n) { s with loops := s.loops.set n .ended }
  /-- A watcher takes its connection out, which is gone. -/
  | forget (id : Nat) (h : s.isGone id = true) :
    Move s now (.watcher id)
      { s with watched := s.watched.erase id, table := s.table.erase id }
  /-- The table comes into another order. -/
  | reorder (table : List Nat) (h : table.Perm s.table) :
    Move s now (.reordered table) { s with table }
  /-- A stop aborts the accept loop. -/
  | halt (n : Nat) (h : s.acceptor = some n) :
    Move s now .stop
      { s with
        address := none
        acceptor := none
        loops := s.loops.modify n Loop.abort
        stops := s.stops ++ [.halting n] }
  /-- A stop finds no accept loop and empties the table. -/
  | empty (h : s.acceptor = none) (r : Stop) (hr : r.isHalting = false) :
    Move s now .stop
      { s with
        address := none
        acceptor := none
        table := []
        connector := closeAll s.connector s.table
        stops := s.stops ++ [r] }
  /-- A stop finds the accept loop ended and empties the table. -/
  | drain (n : Nat) (r : Stop) (hr : r.isHalting = false) :
    Move s now (.halted n)
      { s with
        table := []
        connector := closeAll s.connector s.table
        stops := s.stops.set n r }
  /-- A stop goes on to the next connection, or returns. -/
  | wait (n : Nat) {r₀ r : Stop} (h : s.stops[n]? = some r₀) (hr₀ : r₀.isHalting = false) :
    Move s now (.waited n) { s with stops := s.stops.set n r }

theorem Move.stay (s : Server) (now : Nat) (e : Event) : Move s now e s := .connections e .refl

theorem proceed_eq (s : Server) (stop now : Nat) (rest : List Nat) (late : Bool) :
    ∃ r, r.isHalting = false ∧
      s.proceed stop now rest late = { s with stops := s.stops.set stop r } := by
  unfold proceed
  split
  · exact ⟨.returned late, rfl, rfl⟩
  · exact ⟨.closing _ now late, rfl, rfl⟩

theorem drain_eq (s : Server) (stop now : Nat) : ∃ r, r.isHalting = false ∧
    s.drain stop now =
      { s with
        table := []
        connector := closeAll s.connector s.table
        stops := s.stops.set stop r } := by
  unfold drain
  exact proceed_eq _ stop now s.table false

/-- A stop aborts the accept loop that there is and waits for it. -/
theorem stop_of_some {n : Nat} (h : s.acceptor = some n) (now : Nat) :
    s.stop now =
      { s with
        address := none
        acceptor := none
        loops := s.loops.modify n Loop.abort
        stops := s.stops ++ [.halting n] } := by
  rw [stop, h]

/-- A stop empties the table at once where there is no accept loop. -/
theorem stop_of_none (h : s.acceptor = none) (now : Nat) : ∃ r, r.isHalting = false ∧
    s.stop now =
      { s with
        address := none
        acceptor := none
        table := []
        connector := closeAll s.connector s.table
        stops := s.stops ++ [r] } := by
  obtain ⟨r, hr, heq⟩ := drain_eq
    { s with
      address := none
      acceptor := none
      stops := s.stops ++ [Stop.closing [] now false] } s.stops.length now
  refine ⟨r, hr, ?_⟩
  rw [stop, h]
  refine heq.trans ?_
  rw [List.set_append_right _ _ (Nat.le_refl _), Nat.sub_self]
  rfl

/-- **Every step is a move.** -/
theorem move_step (s : Server) (now : Nat) (e : Event) : Move s now e (s.step now e) := by
  cases e with
  | init => exact .connections _ (Connector.changes_init _)
  | start =>
    simp only [step, start]
    split
    · exact .stay ..
    · exact .binding ..
  | bound address =>
    simp only [step, bind]
    split
    · split
      · exact .binding ..
      · next h => exact .bind address h
    · exact .stay ..
  | bindFailed => exact .binding ..
  | accepted n =>
    simp only [step]
    split
    · next h => exact .accept n h
    · exact .stay ..
  | loopEnded n =>
    simp only [step]
    split
    · next h => exact .loopEnd n h
    · exact .stay ..
  | watcher id =>
    simp only [step]
    split
    · next h => exact .forget id (Bool.and_eq_true _ _ ▸ h).2
    · exact .stay ..
  | reordered table =>
    simp only [step]
    split
    · next h => exact .reorder table (List.isPerm_iff.1 h)
    · exact .stay ..
  | stop =>
    simp only [step]
    cases hacc : s.acceptor with
    | some n =>
      rw [stop_of_some hacc]
      exact .halt n hacc
    | none =>
      obtain ⟨r, hr, heq⟩ := stop_of_none hacc now
      rw [heq]
      exact .empty hacc r hr
  | halted n =>
    simp only [step]
    split
    · split
      · obtain ⟨r, hr, heq⟩ := drain_eq s n now
        rw [heq]
        exact .drain n r hr
      · exact .stay ..
    · exact .stay ..
  | waited n =>
    simp only [step]
    split
    · next id rest since late h =>
      have hmove (late : Bool) : Move s now (.waited n) (s.proceed n now rest late) := by
        obtain ⟨r, -, heq⟩ := proceed_eq s n now rest late
        rw [heq]
        exact .wait n h rfl
      split
      · exact hmove late
      · split
        · exact hmove true
        · exact .stay ..
    · exact .stay ..
  | ask r => exact .connections _ (Connector.Meanwhile.perform r s.connector).changes
  | connection id h => exact .connections _ (Connector.changes_step s.connector id now h)

/-! ## Accept loops -/

/-- Which accept loop runs, and whether the server has an address. -/
structure Listening (s : Server) : Prop where
  /-- The accept loop that the server can abort runs, and no other. -/
  accepting : ∀ n, s.loops[n]? = some .accepting ↔ s.acceptor = some n
  /-- There is an address exactly where there is an accept loop to abort. -/
  address : s.address.isSome = s.acceptor.isSome

namespace Listening

theorem new (k : Connector) : Listening (.new k) where
  accepting n := by simp [Server.new]
  address := rfl

theorem abort_ne_accepting (l : Loop) : l.abort ≠ .accepting := by cases l <;> nofun

/-- **Every move keeps one accept loop at most.** -/
theorem move (h : Listening s) (hm : Move s now e t) : Listening t := by
  cases hm with
  | connections | binding | forget | reorder | drain | wait => exact ⟨h.accepting, h.address⟩
  | accept => exact ⟨h.accepting, h.address⟩
  | bind address hnone =>
    have hacc : s.acceptor = none := by
      have haddress := h.address
      rw [hnone] at haddress
      exact Option.isSome_eq_false_iff.1 haddress.symm |> Option.isNone_iff_eq_none.1
    refine ⟨fun n => ?_, rfl⟩
    have hold := h.accepting n
    rw [hacc] at hold
    rw [List.getElem?_append]
    split
    · next hlt =>
      rw [hold]
      simp only [reduceCtorEq, Option.some.injEq, false_iff]
      omega
    · next hle =>
      simp only [List.getElem?_singleton, Option.some.injEq]
      split
      · simp only [true_iff]
        omega
      · simp only [reduceCtorEq, false_iff]
        omega
  | loopEnd n hn =>
    refine ⟨fun m => ?_, h.address⟩
    rw [List.getElem?_set]
    split
    · next hnm =>
      subst hnm
      rw [← h.accepting, hn]
      split <;> simp
    · exact h.accepting m
  | halt n hn =>
    refine ⟨fun m => ?_, rfl⟩
    have hm := h.accepting m
    rw [hn, Option.some.injEq] at hm
    rw [List.getElem?_modify]
    simp only [reduceCtorEq, iff_false]
    split
    · cases s.loops[m]? with
      | none => nofun
      | some l => exact fun hl => abort_ne_accepting l (Option.some.inj hl)
    · next hnm =>
      rw [Option.map_eq_map, Option.map_id', hm]
      exact hnm
  | empty hnone =>
    refine ⟨fun m => ?_, rfl⟩
    rw [h.accepting m, hnone]

theorem run (h : Listening s) (es : List (Nat × Event)) : Listening (s.run es) := by
  induction es generalizing s with
  | nil => exact h
  | cons e es ih => exact ih (h.move (move_step s e.1 e.2))

/-- A server is started exactly when it has an address. -/
theorem isStarted_eq (h : Listening s) : s.isStarted = s.address.isSome := by
  rw [h.address]
  unfold isStarted
  cases hacc : s.acceptor with
  | none => rfl
  | some n =>
    simp only [(h.accepting n).2 hacc]
    rfl

/-- Without an accept loop to abort nothing is accepted. -/
theorem not_accepting (h : Listening s) (hacc : s.acceptor = none) (n : Nat) :
    s.loops[n]? ≠ some .accepting := by
  rw [ne_eq, h.accepting, hacc]
  nofun

end Listening

/-! ## The table -/

theorem State.eq_disconnected_of_rank_le {st : State} (h : State.disconnected.rank ≤ st.rank) :
    st = .disconnected := by
  cases st <;> simp_all [State.rank]

/-- Whether an event belongs to a call that stops the server and may empty the table. -/
def Event.isStop : Event → Bool
  | .stop => true
  | .halted _ => true
  | _ => false

/-- A stop takes a connection out of the table. -/
def TakenOut (e : Event) (s t : Server) (i : Nat) : Prop :=
  e.isStop = true ∧ i ∈ s.table ∧ i ∉ t.table

/-- Every connection is in the table, or a stop has taken it out and closed it, or it is gone. -/
structure Tracked (drained : Nat → Prop) (s : Server) : Prop where
  /-- The connector is sound. -/
  sound : s.connector.Sound
  /-- There is a connection where one is in the table. -/
  present : ∀ i ∈ s.table, s.connector.state? i ≠ none
  /-- All others were taken out by a stop and are closing, or are gone. -/
  others : ∀ i st, s.connector.state? i = some st → st ≠ .disconnected →
    i ∈ s.table ∨ drained i ∧ st.isClosing = true

namespace Tracked

variable {drained : Nat → Prop}

theorem new {k : Connector} (hk : k.IsNew) : Tracked drained (.new k) where
  sound := hk.sound
  present _ := nofun
  others i st hst := by
    rw [Connector.state?, Connector.connection?] at hst
    simp [Server.new, hk.1, Numbered.get?] at hst

theorem mono {drained' : Nat → Prop} (h : Tracked drained s) (hm : ∀ i, drained i → drained' i) :
    Tracked drained' s :=
  ⟨h.sound, h.present, fun i st hst hne => (h.others i st hst hne).imp_right (.imp_left (hm i))⟩

/-- What happens to connections leaves the table right. -/
theorem changes (h : Tracked drained s) {k : Connector} (hk : Changes s.connector k) :
    Tracked drained { s with connector := k } where
  sound := h.sound.advances hk.advances
  present i hi := hk.advances.state?_ne_none (h.present i hi)
  others i st hst hne := by
    rcases hk.state? i with ⟨-, hn⟩ | ⟨st₀, st', hst₀, hst', hrank⟩
    · cases hst.symm.trans hn
    · cases hst.symm.trans hst'
      have hne₀ : st₀ ≠ .disconnected := by
        rintro rfl
        exact hne (State.eq_disconnected_of_rank_le hrank)
      exact (h.others i st₀ hst₀ hne₀).imp_right
        (.imp_right fun hcl => State.isClosing_of_rank_le hcl hrank)

/-- Connections that a stop takes out are closing. -/
theorem drain (h : Tracked drained s) :
    Tracked (fun i => drained i ∨ i ∈ s.table)
      { s with table := [], connector := closeAll s.connector s.table } where
  sound := (h.changes (changes_closeAll ..)).sound
  present _ := nofun
  others i st hst hne := by
    refine .inr ?_
    rcases (h.changes (changes_closeAll s.connector s.table)).others i st hst hne with
      hi | ⟨hd, hcl⟩
    · have hclosed : (closeAll s.connector s.table).state? i = some st := hst
      rw [state?_closeAll, if_pos hi] at hclosed
      obtain ⟨st₀, -, rfl⟩ := Option.map_eq_some_iff.1 hclosed
      exact ⟨.inr hi, st₀.isClosing_closed⟩
    · exact ⟨.inl hd, hcl⟩

/-- **Every move leaves the table right.** -/
theorem move (h : Tracked drained s) (hm : Move s now e t) :
    Tracked (fun i => drained i ∨ TakenOut e s t i) t := by
  cases hm with
  | connections e hk => exact (h.changes hk).mono fun _ => .inl
  | binding | bind | loopEnd | halt | wait =>
    exact ⟨h.sound, h.present, (h.mono fun _ => .inl).others⟩
  | accept n hn =>
    refine ⟨h.sound.openConnection now, fun i hi => ?_, fun i st hst hne => ?_⟩
    · simp only [Server.accept] at hi ⊢
      rw [Connector.state?_openConnection h.sound.numbered]
      split
      · exact Option.some_ne_none _
      · next hne => exact h.present i ((List.mem_cons.1 hi).resolve_left hne)
    · simp only [Server.accept] at hst ⊢
      rw [Connector.state?_openConnection h.sound.numbered] at hst
      split at hst
      · next hi => exact .inl (hi ▸ List.mem_cons_self)
      · exact (h.others i st hst hne).imp (List.mem_cons_of_mem _) (.imp_left .inl)
  | forget id hgone =>
    refine ⟨h.sound, fun i hi => h.present i (List.mem_of_mem_erase hi), fun i st hst hne => ?_⟩
    rcases h.others i st hst hne with hi | hd
    · have hid : i ≠ id := by
        rintro rfl
        cases hst.symm.trans (isGone_iff.1 hgone)
        exact hne rfl
      exact .inl ((List.mem_erase_of_ne hid).2 hi)
    · exact .inr (hd.imp_left .inl)
  | reorder table hp =>
    refine ⟨h.sound, fun i hi => h.present i (hp.mem_iff.1 hi), fun i st hst hne => ?_⟩
    exact (h.others i st hst hne).imp hp.mem_iff.2 (.imp_left .inl)
  | empty | drain =>
    have hd := h.drain
    refine ⟨hd.sound, nofun, fun i st hst hne => ?_⟩
    refine (hd.others i st hst hne).imp_right (.imp_left (Or.imp_right fun hi => ?_))
    exact ⟨rfl, hi, List.not_mem_nil⟩

end Tracked

/-- Only the watcher of a connection that is gone takes it out of the table, and a stop that closes
it. -/
theorem Move.leaves {drained : Nat → Prop} (h : Tracked drained s) (hm : Move s now e t)
    (hi : i ∈ s.table) (hn : i ∉ t.table) :
    e = .watcher i ∧ s.isGone i = true ∨
      e.isStop = true ∧ ∃ st, t.connector.state? i = some st ∧ st.isClosing = true := by
  have hclosed : ∃ st, (closeAll s.connector s.table).state? i = some st ∧ st.isClosing = true := by
    obtain ⟨st, hst⟩ := Option.ne_none_iff_exists'.1 (h.present i hi)
    rw [state?_closeAll, if_pos hi, hst]
    exact ⟨st.closed, rfl, st.isClosing_closed⟩
  cases hm with
  | connections | binding | bind | loopEnd | halt | wait => exact absurd hi hn
  | accept => exact absurd (List.mem_cons_of_mem _ hi) hn
  | forget id hgone =>
    have hid : i = id := by
      by_contra hne
      exact hn ((List.mem_erase_of_ne hne).2 hi)
    subst hid
    exact .inl ⟨rfl, hgone⟩
  | reorder table hp => exact absurd (hp.mem_iff.2 hi) hn
  | empty | drain => exact .inr ⟨rfl, hclosed⟩

/-! ## Stops -/

/-- What holds from the beginning of the stop with a number on, when there were so many accept
loops. -/
structure Since (n count : Nat) (s : Server) : Prop where
  /-- The stop has begun. -/
  begun : n < s.stops.length
  /-- Accept loops are only added. -/
  grown : count ≤ s.loops.length
  /-- No accept loop runs unless a new one began. -/
  quiet : s.loops.length = count → s.acceptor = none
  /-- The stop waits for an accept loop, or the table is empty, unless a new one began. -/
  emptied : s.loops.length = count → (∃ r ∈ s.stops[n]?, r.isHalting = true) ∨ s.table = []

namespace Since

variable {n count : Nat}

/-- What holds once a stop has begun. -/
theorem stop (s : Server) (now : Nat) :
    Since s.stops.length s.loops.length (s.step now .stop) := by
  simp only [Server.step]
  cases hacc : s.acceptor with
  | some m =>
    rw [stop_of_some hacc]
    refine ⟨?_, ?_, fun _ => rfl, fun _ => .inl ⟨.halting m, ?_, rfl⟩⟩
    · rw [List.length_append]
      exact Nat.lt_succ_self _
    · exact Nat.le_of_eq (List.length_modify ..).symm
    · exact List.getElem?_concat_length
  | none =>
    obtain ⟨r, -, heq⟩ := stop_of_none hacc now
    rw [heq]
    refine ⟨?_, Nat.le_refl _, fun _ => rfl, fun _ => .inr rfl⟩
    rw [List.length_append]
    exact Nat.lt_succ_self _

/-- **Every move keeps what holds since a stop began.** -/
theorem move (h : Since n count s) (hl : Listening s) (hm : Move s now e t) : Since n count t := by
  cases hm with
  | connections | binding => exact ⟨h.begun, h.grown, h.quiet, h.emptied⟩
  | bind =>
    have hlen : count < (s.loops ++ [Loop.accepting]).length := by
      rw [List.length_append]
      exact Nat.lt_succ_of_le h.grown
    exact ⟨h.begun, Nat.le_of_lt hlen, fun heq => absurd heq (Nat.ne_of_gt hlen),
      fun heq => absurd heq (Nat.ne_of_gt hlen)⟩
  | accept m hm =>
    refine ⟨h.begun, h.grown, h.quiet, fun heq => ?_⟩
    exact absurd hm (hl.not_accepting (h.quiet heq) m)
  | loopEnd m =>
    have hlen : (s.loops.set m Loop.ended).length = s.loops.length := List.length_set ..
    exact ⟨h.begun, hlen ▸ h.grown, fun heq => h.quiet (hlen ▸ heq),
      fun heq => h.emptied (hlen ▸ heq)⟩
  | forget =>
    refine ⟨h.begun, h.grown, h.quiet, fun heq => (h.emptied heq).imp_right fun hnil => ?_⟩
    rw [hnil]
    rfl
  | reorder table hp =>
    refine ⟨h.begun, h.grown, h.quiet, fun heq => (h.emptied heq).imp_right fun hnil => ?_⟩
    exact List.Perm.eq_nil (hnil ▸ hp)
  | halt m hacc =>
    -- There is an accept loop to abort, so a new one began.
    have hlen : (s.loops.modify m Loop.abort).length = s.loops.length := List.length_modify ..
    have hnew (heq : (s.loops.modify m Loop.abort).length = count) : False := by
      cases hacc.symm.trans (h.quiet (hlen ▸ heq))
    refine ⟨?_, hlen ▸ h.grown, fun _ => rfl, fun heq => (hnew heq).elim⟩
    rw [List.length_append]
    exact Nat.lt_succ_of_lt h.begun
  | empty hnone r hr =>
    refine ⟨?_, h.grown, fun _ => rfl, fun _ => .inr rfl⟩
    rw [List.length_append]
    exact Nat.lt_succ_of_lt h.begun
  | drain m r =>
    refine ⟨?_, h.grown, h.quiet, fun _ => .inr rfl⟩
    rw [List.length_set]
    exact h.begun
  | wait m hm hr₀ =>
    refine ⟨?_, h.grown, h.quiet, fun heq => (h.emptied heq).imp_left ?_⟩
    · rw [List.length_set]
      exact h.begun
    · rintro ⟨r, hr, hhalt⟩
      have hne : m ≠ n := by
        rintro rfl
        cases hm.symm.trans hr
        exact Bool.false_ne_true (hr₀.symm.trans hhalt)
      exact ⟨r, (List.getElem?_set_ne hne).trans hr, hhalt⟩

theorem run (h : Since n count s) (hl : Listening s) (es : List (Nat × Event)) :
    Since n count (s.run es) := by
  induction es generalizing s with
  | nil => exact h
  | cons e es ih =>
    have hm := move_step s e.1 e.2
    exact ih (h.move hl hm) (hl.move hm)

end Since

/-! ## Every run -/

/-- A stop took a connection out of the table in the course of a run. -/
def Drained (s : Server) (es : List (Nat × Event)) (i : Nat) : Prop :=
  ∃ us e vs, es = us ++ e :: vs ∧ TakenOut e.2 (s.run us) (s.run (us ++ [e])) i

/-- In every run the table is right. -/
theorem tracked_run {k : Connector} (hk : k.IsNew) (es : List (Nat × Event)) :
    Tracked (Drained (.new k) es) ((Server.new k).run es) := by
  induction es using List.reverseRecOn with
  | nil => exact .new hk
  | append_singleton es e ih =>
    rw [run_concat]
    refine (ih.move (move_step _ e.1 e.2)).mono fun i hi => ?_
    rcases hi with ⟨us, u, vs, rfl, htaken⟩ | htaken
    · exact ⟨us, u, vs ++ [e], by rw [List.append_assoc, List.cons_append], htaken⟩
    · exact ⟨es, e, [], rfl, by rwa [run_concat]⟩

/-- What a server keeps account of where a run has taken it. -/
structure Bookkept (new : Server) (es : List (Nat × Event)) (s : Server) : Prop where
  /-- At most one accept loop was not aborted. -/
  single : ∀ m n : Nat, s.loops[m]? = some Loop.accepting → s.loops[n]? = some Loop.accepting →
    m = n
  /-- It is started exactly when it has an address. -/
  started : s.isStarted = s.address.isSome
  /-- A connection that is not gone is in the table, or a stop took it out and it is closing. -/
  kept : ∀ (i : Nat) st, s.connector.state? i = some st → st ≠ .disconnected →
    i ∈ s.table ∨ Drained new es i ∧ st = .closing
  /-- A connection leaves the table by its own watcher when it is gone, or by a stop that closes it.
  -/
  leaves : ∀ now e i, i ∈ s.table → i ∉ (s.step now e).table →
    e = .watcher i ∧ s.connector.state? i = some .disconnected ∨
      e.isStop = true ∧
        ∃ st, (s.step now e).connector.state? i = some st ∧ st.isClosing = true
  /-- When a stop has returned and no new accept loop began since it began, the table is empty and
  no connection can be sent to. -/
  stopped : ∀ us now vs late, es = us ++ (now, .stop) :: vs →
    s.stops[(new.run us).stops.length]? = some (Stop.returned late) →
    s.loops.length = (new.run us).loops.length →
      s.table = [] ∧ ∀ i, s.connector.state? i ≠ some .connected

theorem isClosing_eq {st : State} (h : st.isClosing = true) (hne : st ≠ .disconnected) :
    st = .closing := by
  cases st <;> simp_all [State.isClosing]

/-- **The books of a server are right**, in whatever order it is started and stopped, sockets are
accepted and connections go down. -/
theorem bookkeeping {k : Connector} (hk : k.IsNew) (es : List (Nat × Event)) :
    Bookkept (.new k) es ((Server.new k).run es) := by
  have hl := (Listening.new k).run es
  have ht := tracked_run hk es
  constructor
  case single =>
    intro m n hm hn
    exact Option.some.inj (((hl.accepting m).1 hm).symm.trans ((hl.accepting n).1 hn))
  case started => exact hl.isStarted_eq
  case kept =>
    intro i st hst hne
    exact (ht.others i st hst hne).imp_right (.imp_right fun hcl => isClosing_eq hcl hne)
  case leaves =>
    intro now e i hi hn
    exact ((move_step _ now e).leaves ht hi hn).imp_left (.imp_right isGone_iff.1)
  case stopped =>
    intro us now vs late hes hreturned hcount
    have hsince : Since ((Server.new k).run us).stops.length ((Server.new k).run us).loops.length
        ((Server.new k).run es) := by
      rw [hes, run_append]
      exact (Since.stop _ now).run (((Listening.new k).run us).move (move_step _ now .stop)) vs
    have hempty : ((Server.new k).run es).table = [] := by
      rcases hsince.emptied hcount with ⟨r, hr, hhalt⟩ | hempty
      · cases hreturned.symm.trans hr
        cases hhalt
      · exact hempty
    refine ⟨hempty, fun i hi => ?_⟩
    rcases ht.others i .connected hi (by decide) with htable | ⟨-, hcl⟩
    · rw [hempty] at htable
      cases htable
    · cases hcl

/-- The books of a server that is stopped while a connection is open. -/
theorem bookkeeping_of_stop :
    let new : Server := .new { settings := .default }
    let us : List (Nat × Event) := [(0, .init), (0, .start), (1, .bound 7), (2, .accepted 0)]
    let vs : List (Nat × Event) :=
      [(3, .loopEnded 0), (3, .halted 0), (3, .connection 1 .sawClosing),
        (3, .connection 1 (.writer .closing)), (4, .connection 1 .drained), (4, .waited 0)]
    (new.run us).table = [1] ∧ (new.run us).isStarted = true ∧
      (new.run (us ++ (3, .stop) :: vs)).stops = [Stop.returned false] ∧
      (new.run (us ++ (3, .stop) :: vs)).table = [] ∧
      ∀ i, (new.run (us ++ (3, .stop) :: vs)).connector.state? i ≠ some .connected := by
  intro new us vs
  have hbooks := bookkeeping (k := { settings := .default }) ⟨rfl, rfl⟩ (us ++ (3, .stop) :: vs)
  have hreturned : (new.run (us ++ (3, .stop) :: vs)).stops = [Stop.returned false] := by decide
  have hfirst : (new.run us).stops.length = 0 := by decide
  have hstopped := hbooks.stopped us 3 vs false rfl (by rw [hfirst, hreturned]; rfl) (by decide)
  exact ⟨by decide, by decide, hreturned, hstopped⟩

end Server

end Interchange
