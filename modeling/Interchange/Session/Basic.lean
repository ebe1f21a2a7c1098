import Interchange.Connector
import Interchange.Session.Link

/-!
# Sessions

A connector whose connections are joined to peers by links, on a clock of its own. Everything that
can happen without time passing happens at once: `advance?` is one step of it, and `settle` repeats
it until every connection and every peer has to wait. Of what can happen to one connection, its
writer comes first, then its reading side, then its peer.
-/

namespace Interchange

/-- A connector with its links. -/
structure Session where
  /-- The connector. -/
  connector : Connector
  /-- How many bytes each pipe of a link holds. -/
  capacity : Nat
  /-- Whether peers read everything at once. -/
  drain : Bool
  /-- The links of the connections. -/
  links : List Link := []
  /-- The time in milliseconds. -/
  now : Nat := 0

namespace Session

/-- The link of a connection. -/
def link? (s : Session) (id : Nat) : Option Link := Numbered.get? id s.links

/-- Change the link of a connection. -/
def updateLink (s : Session) (id : Nat) (f : Link → Link) : Session :=
  { s with links := Numbered.modify id f s.links }

/-- Open a connection, with a new link. -/
def openConnection (s : Session) : Session :=
  { s with
    connector := s.connector.openConnection s.now
    links := s.links ++ [{ id := s.connector.nextId, capacity := s.capacity }] }

/-! ## What happens without time passing -/

/-- The writer of a connection takes its next step. -/
def writes? (s : Session) (c : Connection) (l : Link) : Option Session :=
  match Writer.next? Link.socket c.state.isClosing c.writer l with
  | (none, _) => none
  | (some e, t) =>
    let ended := (c.writer.step s.connector.settings.codec e).1.endedWell
    some { s with
      connector := s.connector.step c.id s.now (.writer e)
      links := Numbered.modify c.id (fun _ => if ended then t.shutdown else t) s.links }

/-- What the reading side of a connection finds, if it has not to wait. That the connection is to
close comes before what arrives, and what arrives before the end of the writer. -/
def finding? (c : Connection) (l : Link) : Option Connector.Happening :=
  match c.reader with
  | .reading =>
    if c.state.isClosing then some .sawClosing
    else if l.inputEnded then some .inputEnded
    else if c.writer.isEnded then some .sawWriterEnd
    else none
  | .draining _ => if c.writer.isEnded then some .drained else none
  | .ended => none

/-- The reading side of a connection takes its next step. -/
def reads? (s : Session) (c : Connection) (l : Link) : Option Session :=
  if c.reader = .reading && !c.state.isClosing && !l.incoming.isEmpty then
    some { s with
      connector := s.connector.step c.id s.now (.received l.chunk)
      links := Numbered.modify c.id (fun _ => l.dropChunk) s.links }
  else
    match finding? c l with
    | none => none
    | some h => some { s with connector := s.connector.step c.id s.now h }

/-- A peer reads everything, or finds that nothing more will come. -/
def peerReads? (s : Session) (c : Connection) (l : Link) : Option Session :=
  if !s.drain || !l.peer then none
  else if !l.outgoing.isEmpty then some (s.updateLink c.id fun _ => l.peerRead l.outgoing.length)
  else if (l.outputEnded || c.reader = .ended) && !l.endSeen then
    some (s.updateLink c.id fun _ => { l with endSeen := true })
  else none

/-- A peer sends what fits. -/
def peerWrites? (s : Session) (c : Connection) (l : Link) : Option Session :=
  if c.reader = .ended || l.outbox.isEmpty || l.room = 0 then none
  else some (s.updateLink c.id fun _ => l.deliver)

/-- Something happens to a connection. -/
def advanceAt? (s : Session) (id : Nat) : Option Session :=
  match s.connector.connection? id, s.link? id with
  | some c, some l =>
    ((s.writes? c l).orElse fun _ => s.reads? c l).orElse fun _ =>
      (s.peerReads? c l).orElse fun _ => s.peerWrites? c l
  | _, _ => none

/-- Something happens, if everything has not to wait. -/
def advance? (s : Session) : Option Session :=
  s.links.findSome? fun l => s.advanceAt? l.id

/-! ## Why it comes to an end -/

/-- What is left to read for the connections. -/
def inputLeft (s : Session) : Nat := Numbered.total Link.inputMeasure s.links

/-- How far the reading sides are from their end. -/
def readersLeft (s : Session) : Nat := Numbered.total (·.reader.rank) s.connector.connections

/-- How far the writers are from empty queues. -/
def waitingLeft (s : Session) : Nat := Numbered.total (·.writer.backlog) s.connector.connections

/-- How far the writers are from the end of what they have begun. -/
def writingLeft (s : Session) : Nat :=
  Numbered.total (Writer.rank ·.writer.phase) s.connector.connections

/-- What is left to read for the peers. -/
def outputLeft (s : Session) : Nat := Numbered.total Link.outputMeasure s.links

/-- What is left to happen, what comes first counting most. -/
def left (s : Session) : Nat × Nat × Nat × Nat × Nat :=
  (s.inputLeft, s.readersLeft, s.waitingLeft, s.writingLeft, s.outputLeft)

/-- Whether less is left to happen in one session than in another. -/
def Less (t s : Session) : Prop := WellFoundedRelation.rel t.left s.left

end Session

end Interchange
