/-!
# Activity of a connection

A connection remembers when something last passed over it in either direction. After a window of
time without activity it counts as idle. Times are in milliseconds on one clock.
-/

namespace Interchange

/-- When something last passed over a connection. -/
structure Activity where
  /-- The time of the last activity. -/
  last : Nat
  deriving DecidableEq, Repr

namespace Activity

/-- A connection that is opened counts as active. -/
def start (now : Nat) : Activity := ⟨now⟩

/-- Something passes over the connection. An earlier time never takes the place of a later one. -/
def record (a : Activity) (now : Nat) : Activity := ⟨max a.last now⟩

/-- The time since the last activity. -/
def idleFor (a : Activity) (now : Nat) : Nat := now - a.last

/-- When the connection will have been without activity for a window of time. -/
def deadline (a : Activity) (window : Nat) : Nat := a.last + window

/-- Whether a window of time passed without activity. -/
def isIdle (a : Activity) (window now : Nat) : Bool := window ≤ a.idleFor now

end Activity

end Interchange
