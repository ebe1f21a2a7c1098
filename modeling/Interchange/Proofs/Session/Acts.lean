import Interchange.Proofs.Session.InTime
import Interchange.Session.Peer

/-!
# Runs of a session

A run of a session is a list of acts: several things come to it from outside at once, after which
everything happens that can happen without time passing, or one waits. Whatever is asked of a
session is such a run (`exists_run_of_operation`).
-/

namespace Interchange

/-- What the peer of a connection does. -/
inductive Link.Move where
  /-- It wants to send bytes. -/
  | post (bytes : List UInt8)
  /-- It gives up what it could not send yet. -/
  | retract
  /-- It reads at most `n` bytes. -/
  | read (n : Nat)
  /-- It sends no more. -/
  | endInput
  /-- It goes away. -/
  | leave
  deriving DecidableEq, Repr

/-- A link after the peer did something. -/
def Link.move (l : Link) : Move → Link
  | .post bytes => l.post bytes
  | .retract => { l with outbox := [] }
  | .read n => l.peerRead n
  | .endInput => l.endInput
  | .leave => l.dropPeer

theorem Link.id_move (l : Link) (m : Move) : (l.move m).id = l.id := by
  cases m <;> rfl

namespace Session

open Connector (Turn)

variable {s t : Session}

/-! ## Acts -/

/-- What comes to a session from outside. -/
inductive Input where
  /-- A turn of its connector: a connection is opened, somebody sends or closes, or something
  happens to a connection that its link does not show. -/
  | turn (t : Turn)
  /-- The peer of a connection does something. -/
  | peer (id : Nat) (m : Link.Move)

/-- Take what comes from outside. A connection is opened with its link. -/
def take (s : Session) : Input → Session
  | .turn .openConnection => s.openConnection
  | .turn t => { s with connector := s.connector.turn s.now t }
  | .peer id m => s.updateLink id (·.move m)

/-- What is done with a session. -/
inductive Act where
  /-- Several things come from outside at once, and then everything happens that can happen without
  time passing. -/
  | inputs (xs : List Input)
  /-- One waits for a condition, at most `ms` milliseconds. -/
  | wait (holds : Session → Bool) (ms : Nat)

/-- Carry out an act. -/
def act (s : Session) : Act → Session
  | .inputs xs => (xs.foldl take s).settle
  | .wait holds ms => (s.await holds ms).2

/-- Carry out acts one after the other. -/
def run (s : Session) (as : List Act) : Session := as.foldl act s

theorem IsSettled.act (h : s.IsSettled) (a : Act) : (s.act a).IsSettled := by
  cases a with
  | inputs xs => exact isSettled_settle _
  | wait holds ms =>
    rw [Session.act, await]
    split
    · exact h
    · split
      · exact h
      · exact s.isSettled_settle.runUntil holds _

theorem run_append (s : Session) (as bs : List Act) : s.run (as ++ bs) = (s.run as).run bs :=
  List.foldl_append

/-! ## The time of acts -/

theorem now_take (s : Session) (x : Input) : (s.take x).now = s.now := by
  cases x with
  | peer id m => rfl
  | turn t => cases t <;> rfl

theorem now_act_inputs (s : Session) (xs : List Input) : (s.act (.inputs xs)).now = s.now := by
  rw [act, now_settle]
  induction xs generalizing s with
  | nil => rfl
  | cons x xs ih => exact (ih (s.take x)).trans (s.now_take x)

theorem now_le_act (s : Session) (a : Act) : s.now ≤ (s.act a).now := by
  cases a with
  | inputs xs => exact Nat.le_of_eq (s.now_act_inputs xs).symm
  | wait holds ms =>
    rw [act, await]
    split
    · exact Nat.le_refl _
    · split
      · exact Nat.le_refl _
      · have := now_runUntil_le s.settle holds (s.now + ms)
        rwa [now_settle] at this

theorem now_act_wait (h : s.IsSettled) {holds : Session → Bool} (hnever : ∀ t, holds t = false)
    {ms : Nat} : (s.act (.wait holds ms)).now = s.now + ms := by
  rw [act, await, hnever]
  by_cases hms : ms = 0
  · rw [if_pos hms, hms]
    rfl
  · rw [if_neg hms, settle_of_isSettled h]
    exact now_runUntil hnever (by omega)

/-! ## What is asked of a session -/

/-- What is asked of a session. -/
inductive Operation where
  /-- The connector is initialized. -/
  | init
  /-- A connection is opened. -/
  | openConnection
  /-- The chain of listeners is changed, a message is queued or a connection is told to close. -/
  | ask (r : Request)
  /-- A message is queued, and one waits until it was written. -/
  | sendAndWait (id : Nat) (m : Message) (ms : Nat)
  /-- A connection is told to close, and one waits until it is gone. -/
  | closeAndWait (id ms : Nat)
  /-- The peer of a connection sends bytes. -/
  | peerSend (id : Nat) (bytes : List UInt8)
  /-- The peer of a connection sends no more. -/
  | peerShutdown (id : Nat)
  /-- The peer of a connection goes away. -/
  | peerClose (id : Nat)
  /-- The peer of a connection reads at most `n` bytes. -/
  | peerReceive (id n : Nat)
  /-- Time passes. -/
  | sleep (ms : Nat)

/-- Do what is asked of a session. -/
def operate (s : Session) : Operation → Session
  | .init => { s with connector := s.connector.init.1 }
  | .openConnection => s.openConnection
  | .ask r => { s with connector := (Connector.perform r s.connector).1 }
  | .sendAndWait id m ms => (s.sendAndWait id m ms).1
  | .closeAndWait id ms => (s.closeAndWait id ms).1
  | .peerSend id bytes => (s.peerSend id bytes).1
  | .peerShutdown id => s.peerShutdown id
  | .peerClose id => s.peerClose id
  | .peerReceive id n => (s.peerReceive id n).1
  | .sleep ms => s.sleep ms

/-- In a settled session one waits without further ado. -/
theorem await_eq_runUntil (hs : s.IsSettled) (holds : Session → Bool) {ms : Nat} (hms : ms ≠ 0) :
    (s.await holds ms).2 = (s.runUntil holds (s.now + ms)).2 := by
  rw [await, if_neg hms, settle_of_isSettled hs]
  split
  · next hholds => rw [runUntil, if_pos hholds]
  · rfl

/-- Waiting once something came from outside. -/
theorem exists_run_await (s : Session) (x : Input) (holds : Session → Bool) (ms : Nat) :
    ∃ as, ((s.take x).await holds ms).2.settle = s.run as := by
  have hnow : (s.take x).settle.now = (s.take x).now := now_settle _
  have hsettled := (s.take x).isSettled_settle
  unfold await
  split
  · exact ⟨[.inputs [x]], rfl⟩
  · split
    · exact ⟨[.inputs [x]], rfl⟩
    · next hms =>
      refine ⟨[.inputs [x], .wait holds ms], ?_⟩
      have hrun : s.run [.inputs [x], .wait holds ms] = ((s.take x).settle.await holds ms).2 := rfl
      rw [hrun, await_eq_runUntil hsettled holds hms, hnow,
        settle_of_isSettled (hsettled.runUntil holds _)]

/-- The alarms of all connections, and the ends of their patience. -/
def alarms (cs : List Connection) : List Input :=
  cs.flatMap fun c => [.turn (.happening c.id .alarm), .turn (.happening c.id .gaveUp)]

theorem foldl_alarms (s : Session) (cs : List Connection) :
    (alarms cs).foldl take s = { s with
      connector := (cs.foldl (fun k c => (k.step c.id s.now .alarm).step c.id s.now .gaveUp)
        s.connector) } := by
  induction cs generalizing s with
  | nil => rfl
  | cons c cs ih =>
    rw [alarms, List.flatMap_cons, List.foldl_append]
    exact ih _

theorem exists_run_sleep (hs : s.IsSettled) (ms : Nat) : ∃ as, (s.sleep ms).settle = s.run as := by
  have hsettled := hs.runUntil (fun _ => false) (s.now + ms)
  by_cases hms : ms = 0
  · -- No time passes, but the alarms go off.
    subst hms
    refine ⟨[.inputs (alarms s.connector.connections)], ?_⟩
    have htick : s.sleep 0 = s.tick s.now := by
      rw [sleep, Nat.add_zero, runUntil, if_neg Bool.false_ne_true]
      split
      · rw [Nat.max_self]
      · next t ht =>
        have := now_lt_nextTimer? ht
        rw [if_neg (by omega), Nat.max_self]
    have hrun : s.run [.inputs (alarms s.connector.connections)] =
        ((alarms s.connector.connections).foldl take s).settle := rfl
    rw [hrun, foldl_alarms, htick, settle_of_isSettled (s.isSettled_tick s.now)]
    rfl
  · refine ⟨[.wait (fun _ => false) ms], (settle_of_isSettled hsettled).trans ?_⟩
    exact (await_eq_runUntil hs (fun _ => false) hms).symm

theorem exists_run_peerReceive (hs : s.IsSettled) (id n : Nat) :
    ∃ as, (s.peerReceive id n).1.settle = s.run as := by
  fun_induction peerReceive s id n with
  | case1 s => exact ⟨[], settle_of_isSettled hs⟩
  | case2 s => exact ⟨[], settle_of_isSettled hs⟩
  | case3 s n l hl hn bytes t more hrest ih =>
    obtain ⟨as, has⟩ := ih (isSettled_settle _)
    rw [hrest] at has
    exact ⟨.inputs [.peer id (.read n)] :: as, has⟩

theorem exists_run_peerSend (hs : s.IsSettled) (id : Nat) (bytes : List UInt8) :
    ∃ as, (s.peerSend id bytes).1.settle = s.run as := by
  unfold peerSend
  split
  · exact ⟨[], settle_of_isSettled hs⟩
  · split
    · exact ⟨[], settle_of_isSettled hs⟩
    · split
      · exact ⟨[], settle_of_isSettled hs⟩
      · split
        · exact ⟨[], settle_of_isSettled hs⟩
        · have hposted := (s.updateLink id (·.post bytes)).isSettled_settle
          have hnow : (s.updateLink id (·.post bytes)).settle.now = s.now := now_settle _
          let acts : List Act :=
            [.inputs [.peer id (.post bytes)], .wait (postEnds id) (Connection.drainLimit + 1)]
          have hrun : s.run acts = ((s.updateLink id (·.post bytes)).settle.runUntil (postEnds id)
              (s.now + Connection.drainLimit + 1)).2 := by
            have hawait := await_eq_runUntil hposted (postEnds id)
              (Nat.succ_ne_zero Connection.drainLimit)
            rw [hnow] at hawait
            exact hawait
          have hlast := hposted.runUntil (postEnds id) (s.now + Connection.drainLimit + 1)
          generalize ((s.updateLink id (·.post bytes)).settle.runUntil (postEnds id)
            (s.now + Connection.drainLimit + 1)) = p at hrun hlast ⊢
          dsimp only
          split
          · exact ⟨acts, (settle_of_isSettled hlast).trans hrun.symm⟩
          · refine ⟨acts ++ [.inputs [.peer id .retract]], ?_⟩
            rw [run_append, hrun]
            rfl

/-- **Whatever is asked of a session is a run of it**, once everything has happened that can then
happen without time passing. -/
theorem exists_run_of_operation (hs : s.IsSettled) (o : Operation) :
    ∃ as, (s.operate o).settle = s.run as := by
  cases o with
  | init => exact ⟨[.inputs [.turn .init]], rfl⟩
  | openConnection => exact ⟨[.inputs [.turn .openConnection]], rfl⟩
  | ask r => exact ⟨[.inputs [.turn (.ask r)]], rfl⟩
  | sendAndWait id m ms =>
    have hask : (s.send id m).1 = s.take (.turn (.ask (.send id m))) :=
      congrArg (fun k => { s with connector := k }) (Connector.perform_send s.connector id m).symm
    simp only [operate, sendAndWait]
    generalize hsend : s.send id m = p at hask
    obtain ⟨t, r⟩ := p
    cases r with
    | error f => exact ⟨[.inputs [.turn (.ask (.send id m))]], congrArg settle hask⟩
    | ok ticket =>
      obtain ⟨as, has⟩ := s.exists_run_await (.turn (.ask (.send id m)))
        (fun s => (s.outcome? id ticket).isSome) ms
      rw [← hask] at has
      refine ⟨as, Eq.trans ?_ has⟩
      dsimp only
      split
      · next h => rw [h]
      · next h => rw [h]
  | closeAndWait id ms =>
    obtain ⟨as, has⟩ := s.exists_run_await (.turn (.ask (.close id))) (isGone id) ms
    refine ⟨as, Eq.trans ?_ has⟩
    simp only [operate, closeAndWait]
    split
    · next h => exact congrArg (fun p => p.2.settle) h.symm
    · next h => exact congrArg (fun p => p.2.settle) h.symm
  | peerSend id bytes => exact exists_run_peerSend hs id bytes
  | peerShutdown id => exact ⟨[.inputs [.peer id .endInput]], rfl⟩
  | peerClose id => exact ⟨[.inputs [.peer id .leave]], rfl⟩
  | peerReceive id n => exact exists_run_peerReceive hs id n
  | sleep ms => exact exists_run_sleep hs ms

end Session

end Interchange
