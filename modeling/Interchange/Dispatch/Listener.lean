import Interchange.Echo
import Interchange.Fault

/-!
# Listeners

A listener says which messages concern it and handles them. While it handles a message it may ask
for something to be done: a message to be sent, a connection to be closed, the chain of listeners to
be changed. A handler is therefore a tree: it either ends, or makes a request and goes on with the
answer. `Handler.run` carries it out where the requests have a meaning.
-/

namespace Interchange

/-- Which listener is meant: the one that answers echo requests, or one with a name. -/
inductive ListenerId where
  | echo
  | named (name : String)
  deriving DecidableEq, Repr

/-- Why a listener failed. -/
inductive Failure where
  /-- It said so. -/
  | fault (f : Fault)
  /-- It panicked, with or without a text. -/
  | panic (text? : Option String)
  deriving DecidableEq, Repr

namespace Failure

/-- What a panic is called. -/
def panicked : String := "listener panicked"

/-- A failure as a fault. -/
def toFault : Failure → Fault
  | fault f => f
  | panic none => .listener panicked
  | panic (some text) => .listener (panicked ++ ": " ++ text)

end Failure

/-- What a handler may ask for. -/
inductive Request where
  /-- Queue a message on a connection. -/
  | send (connection : Nat) (m : Message)
  /-- Close a connection. -/
  | close (connection : Nat)
  /-- Put a listener behind all others. -/
  | append (l : ListenerId)
  /-- Put a listener in front of all others. -/
  | insertFirst (l : ListenerId)
  /-- Take a listener out of the chain. -/
  | remove (l : ListenerId)
  deriving DecidableEq, Repr

/-- What a listener does with a message. -/
inductive Handler where
  /-- It ends: whether the next listener is called, or why it failed. -/
  | done (r : Except Failure Bool)
  /-- It makes a request, which is carried out or refused, and goes on. -/
  | ask (r : Request) (next : Except Fault Unit → Handler)

namespace Handler

/-- Carry out a handler where requests have a meaning. -/
def run {σ : Type} (perform : Request → σ → σ × Except Fault Unit) :
    Handler → σ → σ × Except Failure Bool
  | done r, s => (s, r)
  | ask r next, s => run perform (next (perform r s).2) (perform r s).1

/-- Make requests one after the other and go on, unless one is refused. -/
def askAll : List Request → Handler → Handler
  | [], next => next
  | r :: rs, next =>
    .ask r fun
      | .ok () => askAll rs next
      | .error f => .done (.error (.fault f))

end Handler

/-- A listener. -/
structure Listener where
  /-- Whether a message concerns it. -/
  applies : Message → Except Failure Bool
  /-- What it does with a message from a connection. -/
  handle : (connection : Nat) → Message → Handler

namespace Listener

/-- The listener that no message concerns. -/
def silent : Listener := ⟨fun _ => .ok false, fun _ _ => .done (.ok true)⟩

/-- The listener that answers echo requests, and passes none of them on. -/
def echo (rule : EchoRule) (version : Mti.Version) : Listener where
  applies m := .ok (rule.holds (Mti.echoRequest version) m.mti)
  handle id m := Handler.askAll [.send id m.response] (.done (.ok false))

end Listener

end Interchange
