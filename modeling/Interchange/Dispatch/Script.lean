import Interchange.Dispatch.Listener

/-!
# Scripted listeners

A listener written down as data: a condition on the message, the requests that it makes in order,
and what it ends with.
-/

namespace Interchange

/-- Which messages concern a scripted listener. -/
inductive Script.Condition where
  | always
  /-- Those of one type. -/
  | mti (n : UInt16)
  /-- Those whose type has certain bits under a mask. -/
  | masked (mask bits : UInt16)
  /-- Those with a certain field. -/
  | has (field : UInt8)
  /-- Asking is a failure. -/
  | failing (f : Failure)

/-- What a scripted listener does. -/
inductive Script.Action where
  /-- Send a message a number of times. -/
  | send (times : Nat) (m : Message)
  /-- Send the response to the message, with some fields set. -/
  | respond (fields : List (UInt8 × FieldValue))
  /-- Send the message itself. -/
  | same
  /-- Close the connection. -/
  | close
  | append (name : String)
  | insertFirst (name : String)
  | remove (name : String)

/-- A listener as data. -/
structure Script where
  /-- Which messages concern it. -/
  condition : Script.Condition := .always
  /-- What it does, in order. -/
  actions : List Script.Action := []
  /-- What it ends with. -/
  ending : Except Failure Bool := .ok true

namespace Script

/-- Whether a condition holds of a message. -/
def Condition.holds (m : Message) : Condition → Except Failure Bool
  | always => .ok true
  | mti n => .ok (m.mti = n)
  | masked mask bits => .ok (m.mti &&& mask = bits)
  | has i => .ok (m.has i)
  | failing f => .error f

/-- The requests of an action. -/
def Action.requests (connection : Nat) (m : Message) : Action → List Request
  | send n reply => List.replicate n (.send connection reply)
  | respond fields => [.send connection (m.response.setAll fields)]
  | same => [.send connection m]
  | close => [.close connection]
  | append name => [.append (.named name)]
  | insertFirst name => [.insertFirst (.named name)]
  | remove name => [.remove (.named name)]

/-- The listener that a script describes. -/
def listener (s : Script) : Listener where
  applies m := s.condition.holds m
  handle id m := Handler.askAll (s.actions.flatMap (·.requests id m)) (.done s.ending)

end Script

end Interchange
