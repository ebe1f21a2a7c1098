import Interchange.Dispatch.Chain
import Interchange.Settings.Basic

/-!
# The list of listeners as it is kept

Many hold on to the listeners of a connector at a time, and a message may be on its way through them
when a listener is added or taken out. They are therefore kept in lists that never change once they
are written: a change writes a new list, which becomes the current one. A message keeps to the list
that was current when it arrived, and reads it place by place as it comes to the next listener.

What listeners do beside this is left open: `Roster.Listeners` are any that change the list by calls
only.
-/

namespace Interchange

/-- A call that concerns the list of listeners. -/
inductive Roster.Call where
  /-- Put a listener behind all others. -/
  | push (l : ListenerId)
  /-- Put listeners behind all others, in their order. -/
  | pushAll (ls : List ListenerId)
  /-- Put a listener in front of all others. -/
  | insertFirst (l : ListenerId)
  /-- Take a listener out where it stands first. -/
  | remove (l : ListenerId)
  /-- Initialize the connector. -/
  | init

/-- What a call returns. -/
inductive Roster.Answer where
  /-- Nothing. -/
  | done
  /-- Whether the listener was there. -/
  | removed (present : Bool)
  /-- Whether the connector can run with its settings. -/
  | initialized (r : Except Fault Unit)

/-- The listeners of a connector as they are kept. -/
structure Roster where
  /-- What the connector was told. -/
  settings : Settings
  /-- The lists that were current before, from the oldest on. -/
  retired : List Chain := []
  /-- The current list. -/
  current : Chain := []
  /-- Whether the connector was initialized. -/
  initialized : Bool := false
  /-- The calls so far and what they returned. -/
  calls : List (Roster.Call × Roster.Answer) := []

namespace Roster

/-! ## Calls -/

/-- Write a new list and make it the current one. -/
def replace (r : Roster) (c : Chain) : Roster :=
  { r with retired := r.retired ++ [r.current], current := c }

/-- What a call does and returns. -/
def act (r : Roster) : Call → Roster × Answer
  | .push l => (r.replace (r.current.push l), .done)
  | .pushAll ls => (r.replace (r.current.pushAll ls), .done)
  | .insertFirst l => (r.replace (r.current.insertFirst l), .done)
  | .remove l =>
    match r.current.findIdx? (· = l) with
    | some i => (r.replace (r.current.eraseIdx i), .removed true)
    | none => (r.replace r.current, .removed false)
  | .init =>
    match r.settings.validate with
    | .error f => (r, .initialized (.error f))
    | .ok () =>
      if r.initialized then (r, .initialized (.ok ()))
      else if r.settings.answerEchoes then
        ({ r with initialized := true }.replace (r.current.insertFirst .echo),
          .initialized (.ok ()))
      else ({ r with initialized := true }, .initialized (.ok ()))

/-- Carry out a call. -/
def perform (r : Roster) (c : Call) : Roster × Answer :=
  ({ (r.act c).1 with calls := r.calls ++ [(c, (r.act c).2)] }, (r.act c).2)

/-- Carry out calls one after the other. -/
def performAll (r : Roster) (cs : List Call) : Roster := cs.foldl (fun r c => (r.perform c).1) r

/-! ## Messages -/

/-- The lists that were written, the current one last. -/
def lists (r : Roster) : List Chain := r.retired ++ [r.current]

/-- The listener that stands at an index of the list at a place. -/
def read? (r : Roster) (place i : Nat) : Option ListenerId := r.lists[place]?.bind (·[i]?)

/-- Listeners that see messages of connections, and what they do to the list and to anything
else. -/
structure Listeners (τ : Type) where
  /-- Let a listener see a message. -/
  call : (connection : Nat) → Message → ListenerId → Roster × τ →
    (Roster × τ) × Except Failure Bool
  /-- The list changes by calls only. -/
  byCalls : ∀ id m l s, ∃ cs, (call id m l s).1.1 = s.1.performAll cs

variable {τ : Type} (ls : Listeners τ)

/-- Let the listener at an index of the list at a place see a message. -/
def turn (id : Nat) (m : Message) (place i : Nat) (s : Roster × τ) :
    (Roster × τ) × Except Failure Bool :=
  match s.1.read? place i with
  | some l => ls.call id m l s
  | none => (s, .ok true)

/-- Send a message through the list that is current, index by index. -/
def dispatch (id : Nat) (m : Message) (s : Roster × τ) : (Roster × τ) × Except Fault Unit :=
  Interchange.dispatch s.1.settings.failOnListenerError (turn ls id m s.1.retired.length)
    (List.range s.1.current.length) s

/-- A call from outside, or a message that is sent through the listeners. -/
inductive Access where
  | call (c : Call)
  | message (connection : Nat) (m : Message)

/-- Carry out an access. -/
def access (s : Roster × τ) : Access → Roster × τ
  | .call c => ((s.1.perform c).1, s.2)
  | .message id m => (dispatch ls id m s).1

/-- Carry out accesses one after the other. -/
def run (s : Roster × τ) (as : List Access) : Roster × τ := as.foldl (access ls) s

end Roster

end Interchange
