import Interchange.Dispatch.Listener

/-!
# The chain of listeners

The listeners of a connector stand in a list, in which one listener may stand more than once. A
message goes through the list as it stood when the message arrived, whatever the listeners change
meanwhile. It goes on until a listener keeps it. A failure of a listener ends the way of the message
where failures count, and is passed over elsewhere.
-/

namespace Interchange

/-- The listeners of a connector in order. -/
abbrev Chain := List ListenerId

namespace Chain

/-- Put a listener behind all others. -/
def push (c : Chain) (l : ListenerId) : Chain := c ++ [l]

/-- Put listeners behind all others, in their order. -/
def pushAll (c : Chain) (ls : List ListenerId) : Chain := c ++ ls

/-- Put a listener in front of all others. -/
def insertFirst (c : Chain) (l : ListenerId) : Chain := l :: c

/-- Take a listener out where it stands first, and say whether it was there. -/
def remove (c : Chain) (l : ListenerId) : Chain × Bool := (c.erase l, c.contains l)

/-- A chain in words. -/
def description (c : Chain) (failFast : Bool) : String :=
  "DispatchChain \x7b listeners: " ++ Digits.text c.length ++ ", fail_fast: "
    ++ (if failFast then "true" else "false") ++ " \x7d"

end Chain

/-- The failure of a listener as the fault of the whole dispatch. -/
def Fault.ofListener : Fault → Fault
  | .listener text => .listener text
  | f => .listener f.message

/-- Call listeners one after the other until one keeps the message or, where failures count, fails.
-/
def dispatch {ι σ : Type} (failFast : Bool) (call : ι → σ → σ × Except Failure Bool) :
    List ι → σ → σ × Except Fault Unit
  | [], s => (s, .ok ())
  | l :: ls, s =>
    match call l s with
    | (s, .ok true) => dispatch failFast call ls s
    | (s, .ok false) => (s, .ok ())
    | (s, .error f) =>
      if failFast then (s, .error f.toFault.ofListener) else dispatch failFast call ls s

end Interchange
