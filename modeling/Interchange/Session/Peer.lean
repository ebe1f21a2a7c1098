import Interchange.Session.Time

/-!
# Peers

What the peer of a connection can be told to do: send bytes or a message, send no more, go away, and
read.
-/

namespace Interchange.Session

/-- What comes of sending as a peer. -/
inductive Posted where
  /-- So many bytes are on their way. -/
  | sent (bytes : Nat)
  /-- The connection takes no more bytes. -/
  | broken
  /-- There is no peer. -/
  | gone
  deriving DecidableEq, Repr

/-- Whether the connection of a link takes no more bytes. -/
def refuses (s : Session) (l : Link) : Bool :=
  l.inputEnded ||
    match s.connector.connection? l.id with
    | some c => c.reader = .ended
    | none => true

/-- Whether the peer of a connection has sent everything. -/
def isPosted (s : Session) (id : Nat) : Bool :=
  match s.link? id with
  | some l => l.outbox.isEmpty
  | none => true

/-- Whether the peer of a connection has sent everything, or never will. -/
def postEnds (id : Nat) (s : Session) : Bool :=
  s.isPosted id || (s.link? id).any s.refuses

/-- Let the peer of a connection send bytes. It waits for room while there may be some: a connection
that goes down reads no more and is gone when its patience is at an end. -/
def peerSend (s : Session) (id : Nat) (bytes : List UInt8) : Session × Posted :=
  match s.link? id with
  | none => (s, .gone)
  | some l =>
    if !l.peer then (s, .gone)
    else if bytes.isEmpty then (s, .sent 0)
    else if s.refuses l then (s, .broken)
    else
      let (_, s) := (s.updateLink id (·.post bytes)).settle.runUntil (postEnds id)
        (s.now + Connection.drainLimit + 1)
      if s.isPosted id then (s, .sent bytes.length)
      else (s.updateLink id fun l => { l with outbox := [] }, .broken)

/-- Let the peer of a connection send a message, framed as the connector frames its own. -/
def peerSendMessage (s : Session) (id : Nat) (m : Message) : Session × Except Fault Posted :=
  match Writer.frame s.connector.settings.codec m with
  | .error f => (s, .error f)
  | .ok frame =>
    let (s, r) := s.peerSend id frame.bytes
    (s, .ok r)

/-- The peer of a connection sends no more. -/
def peerShutdown (s : Session) (id : Nat) : Session := s.updateLink id .endInput

/-- The peer of a connection goes away. -/
def peerClose (s : Session) (id : Nat) : Session := s.updateLink id .dropPeer

/-- Let the peer of a connection read at most `n` bytes, those that there is room for only then
included: what it read. -/
def peerReceive (s : Session) (id n : Nat) : Session × List UInt8 :=
  match s.link? id with
  | none => (s, [])
  | some l =>
    if _h : n = 0 ∨ l.outgoing = [] then (s, [])
    else
      let bytes := l.outgoing.take n
      let (s, more) := ((s.updateLink id (·.peerRead n)).settle).peerReceive id (n - bytes.length)
      (s, bytes ++ more)
termination_by n
decreasing_by
  have := List.length_pos_iff.2 (not_or.1 _h).2
  simp only [List.length_take]
  omega

end Interchange.Session
