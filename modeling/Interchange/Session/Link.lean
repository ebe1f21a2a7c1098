import Interchange.Numbered
import Interchange.Outbound.Writer

/-!
# Links

A link joins a connection and its peer by two pipes, each of which holds a limited number of bytes.
The peer keeps what does not fit yet and sends it on when there is room. Once the peer is gone,
what is written to it fails; what it sent before can still be read.
-/

namespace Interchange

/-- The two pipes between a connection and its peer. -/
structure Link where
  /-- The number of the connection. -/
  id : Nat
  /-- How many bytes each pipe holds. -/
  capacity : Nat
  /-- What the peer has yet to send. -/
  outbox : List UInt8 := []
  /-- On the way to the connection. -/
  incoming : List UInt8 := []
  /-- On the way to the peer. -/
  outgoing : List UInt8 := []
  /-- Everything that the peer read. -/
  inbox : List UInt8 := []
  /-- Whether the peer sends no more. -/
  inputEnded : Bool := false
  /-- Whether the connection sends no more. -/
  outputEnded : Bool := false
  /-- Whether the peer has found that the connection sends no more. -/
  endSeen : Bool := false
  /-- Whether there is a peer. -/
  peer : Bool := true
  deriving DecidableEq, Repr

instance : Numbered Link := ⟨Link.id⟩

namespace Link

/-- The most bytes that a connection reads at once. -/
def readLimit : Nat := 65536

/-- The wording of a write to a peer that is gone. -/
def brokenPipe : String := "broken pipe"

/-- Take slices from the connection, as many bytes as there is room for. -/
def write (slices : List (List UInt8)) (l : Link) : Writer.Reply × Link :=
  if !l.peer || l.outputEnded then (.failed brokenPipe, l)
  else if l.capacity ≤ l.outgoing.length then (.blocked, l)
  else
    let bytes := slices.flatten.take (l.capacity - l.outgoing.length)
    (.accepted bytes.length, { l with outgoing := l.outgoing ++ bytes })

/-- The connection sends no more. -/
def shutdown (l : Link) : Link := { l with outputEnded := true }

/-- The connection's side of a link as a socket to write to. -/
def socket : Writer.Socket Link := ⟨write, fun l => (.accepted 0, l), shutdown⟩

/-- What the connection reads next. -/
def chunk (l : Link) : List UInt8 := l.incoming.take readLimit

/-- The link without what the connection reads next. -/
def dropChunk (l : Link) : Link := { l with incoming := l.incoming.drop readLimit }

/-- The peer wants to send bytes. -/
def post (l : Link) (bytes : List UInt8) : Link := { l with outbox := l.outbox ++ bytes }

/-- How many bytes fit on the way to the connection. -/
def room (l : Link) : Nat := l.capacity - l.incoming.length

/-- The peer sends what fits. -/
def deliver (l : Link) : Link :=
  { l with incoming := l.incoming ++ l.outbox.take l.room, outbox := l.outbox.drop l.room }

/-- The peer reads at most `n` bytes. -/
def peerRead (l : Link) (n : Nat) : Link :=
  { l with inbox := l.inbox ++ l.outgoing.take n, outgoing := l.outgoing.drop n }

/-- The peer sends no more. -/
def endInput (l : Link) : Link := { l with inputEnded := true, outbox := [] }

/-- The peer is gone. -/
def dropPeer (l : Link) : Link := { l.endInput with peer := false, outgoing := [] }

/-- What is left on the way to the connection, bytes that are not sent yet twice. -/
def inputMeasure (l : Link) : Nat := 2 * l.outbox.length + l.incoming.length

/-- What is left for the peer to read. -/
def outputMeasure (l : Link) : Nat := l.outgoing.length + if l.endSeen then 0 else 1

end Link

end Interchange
