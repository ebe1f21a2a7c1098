import Interchange.Proofs.Connector.Changes

/-!
# The life of a connection

The `story` of a connection is what becomes known of its life: its events, the calls of listeners
for it, and the messages that it accepts. `Course` says which stories a connection can have, by what
its reading side does: it is opened, then come calls, acceptances and bodies that are no messages in
any order, then perhaps one fault that ends it, then its end, and nothing more. `Sound.advance` says
that every connection keeps its course, whatever happens.

`lifecycle` reads off it how the state of a connection moves, which events are published, when
listeners are called and when messages are accepted, at every moment of every run.
-/

namespace Interchange

/-- Whether a notice of a connection can come while it reads, and leaves it reading. -/
def Notice.isPlain (i : Nat) : Notice → Bool
  | .accepted id _ _ => id = i
  | .called _ id _ => id = i
  | .published (.failed id f) => id = i && !f.endsConnection
  | _ => false

open Notice Connection in
/-- The stories that a connection can have, by its face. -/
inductive Course (i : Nat) : Option Face → List Notice → Prop
  /-- There is no such connection yet. -/
  | unopened : Course i none []
  /-- It reads. -/
  | reading {s : State} (hs : s = .connected ∨ s = .closing) {ns : List Notice}
    (hn : ∀ n ∈ ns, n.isPlain i = true) :
    Course i (some ⟨.reading, s⟩) (.published (.connected i) :: ns)
  /-- It waits for its writer. -/
  | draining (since : Nat) {ns : List Notice} (hn : ∀ n ∈ ns, n.isPlain i = true)
    {f? : Option Fault} (hf : ∀ f ∈ f?, f.endsConnection = true) :
    Course i (some ⟨.draining since, .closing⟩)
      (.published (.connected i) :: (ns ++ downfall i f?))
  /-- It is gone. -/
  | ended {ns : List Notice} (hn : ∀ n ∈ ns, n.isPlain i = true) {f? : Option Fault}
    (hf : ∀ f ∈ f?, f.endsConnection = true) :
    Course i (some ⟨.ended, .disconnected⟩)
      (.published (.connected i) :: (ns ++ downfall i f? ++ [.published (.closed i)]))

namespace Course

open Notice Connection

variable {i : Nat} {x y : Option Face} {ns ms : List Notice}

/-- A connection that reads can make a plain notice known. -/
theorem plain {s : State} (h : Course i (some ⟨.reading, s⟩) ns) {n : Notice}
    (hn : n.isPlain i = true) : Course i (some ⟨.reading, s⟩) (ns ++ [n]) := by
  cases h with
  | reading hs hns =>
    refine .reading hs fun m hm => ?_
    rcases List.mem_append.1 hm with hm | hm
    · exact hns m hm
    · rwa [List.mem_singleton.1 hm]

/-- A connection is in use or closing. -/
theorem isClosing_of_ne_connected {r : Reader} {s : State} (h : Course i (some ⟨r, s⟩) ns)
    (hs : s ≠ .connected) : s.isClosing = true := by
  cases h with
  | reading hor =>
    rcases hor with rfl | rfl
    · exact absurd rfl hs
    · rfl
  | draining => rfl
  | ended => rfl

/-- Only a connection that reads is not closing. -/
theorem reading_of_not_closing {r : Reader} {s : State} (h : Course i (some ⟨r, s⟩) ns)
    (hs : s.isClosing = false) : r = .reading := by
  cases h with
  | reading => rfl
  | draining => cases hs
  | ended => cases hs

/-- **A passage keeps the course of a connection.** -/
theorem passage {raises : Fault → Prop} (hr : ∀ f, raises f → f.endsConnection = true)
    (h : Course i x ns) (hp : Passage raises i x ms y) : Course i y (ns ++ ms) := by
  cases hp with
  | stay => rwa [List.append_nil]
  | accept hs ticket m =>
    cases h.reading_of_not_closing hs
    exact h.plain (by simp [isPlain])
  | close r s =>
    rw [List.append_nil]
    cases h with
    | reading hs hn =>
      refine .reading (.inr ?_) hn
      rcases hs with rfl | rfl <;> rfl
    | draining since hn hf => exact .draining since hn hf
    | ended hn hf => exact .ended hn hf
  | call s l mti => exact h.plain (by simp [isPlain])
  | reject s f => exact h.plain (by simp [isPlain, Fault.endsConnection])
  | windDown s hf now =>
    cases h with
    | reading hs hn =>
      have hclosed : s.closed = .closing := by rcases hs with rfl | rfl <;> rfl
      rw [hclosed]
      exact .draining now hn fun f hm => hr f (hf f hm)
  | quit s hf =>
    cases h with
    | reading hs hn =>
      rw [List.cons_append, ← List.append_assoc]
      exact .ended hn fun f hm => hr f (hf f hm)
  | finish since s =>
    cases h with
    | draining _ hn hf => exact .ended hn hf

end Course

namespace Connection.State

theorem rank_le_closed (s : State) : s.rank ≤ s.closed.rank := by cases s <;> decide

theorem rank_le_disconnected (s : State) : s.rank ≤ State.disconnected.rank := by
  cases s <;> decide

theorem isClosing_closed (s : State) : s.closed.isClosing = true := by cases s <;> rfl

/-- From where a connection is closing, every way forward leaves it closing. -/
theorem isClosing_of_rank_le {s t : State} (hs : s.isClosing = true) (h : s.rank ≤ t.rank) :
    t.isClosing = true := by
  cases s <;> cases t <;> simp_all [isClosing, rank]

end Connection.State

open Connection Notice in
/-- A passage moves the state forward, and a connection that is closing accepts nothing in it. -/
theorem Passage.forward {raises : Fault → Prop} {i : Nat} {r : Reader} {s : State}
    {ns : List Notice} {y : Option Face} (h : Passage raises i (some ⟨r, s⟩) ns y) :
    ∃ r' s', y = some ⟨r', s'⟩ ∧ s.rank ≤ s'.rank ∧
      (s.isClosing = true → ∀ ticket m, .accepted i ticket m ∉ ns) := by
  have not_downfall (f? : Option Fault) (ticket : Nat) (m : Message) :
      .accepted i ticket m ∉ downfall i f? := by
    cases f? <;> simp [downfall]
  cases h with
  | stay => exact ⟨r, s, rfl, Nat.le_refl _, fun _ _ _ => by simp⟩
  | accept hs ticket m =>
    exact ⟨r, s, rfl, Nat.le_refl _, fun hcl => absurd (hs.symm.trans hcl) Bool.false_ne_true⟩
  | close => exact ⟨r, s.closed, rfl, s.rank_le_closed, fun _ _ _ => by simp⟩
  | call => exact ⟨_, s, rfl, Nat.le_refl _, fun _ _ _ => by simp⟩
  | reject => exact ⟨_, s, rfl, Nat.le_refl _, fun _ _ _ => by simp⟩
  | windDown s hf now =>
    exact ⟨_, s.closed, rfl, s.rank_le_closed, fun _ _ _ => not_downfall _ _ _⟩
  | quit s hf =>
    exact ⟨_, _, rfl, s.rank_le_disconnected, fun _ _ _ => by simpa using not_downfall _ _ _⟩
  | finish since s => exact ⟨_, _, rfl, s.rank_le_disconnected, fun _ _ _ => by simp⟩

theorem Passage.of_none {raises : Fault → Prop} {i : Nat} {ns : List Notice}
    {y : Option Connection.Face} (h : Passage raises i none ns y) : y = none := by
  cases h
  rfl

/-! ## What a course says -/

/-- The events that a connection publishes during its life, by the bodies that were no messages and
the fault that ended it. -/
def Connection.Event.word (i : Nat) (ps : List Pack.Fault) (f? : Option Fault) :
    List Connection.Event :=
  .connected i :: (ps.map (fun p => .failed i (.parse p)) ++ f?.toList.map (.failed i)
    ++ [.closed i])

namespace Course

open Notice Connection Connector

variable {i : Nat} {x : Option Face} {ns : List Notice}

theorem events_append (ms ns : List Notice) : events (ms ++ ns) = events ms ++ events ns :=
  List.filterMap_append

theorem events_downfall (f? : Option Fault) :
    events (downfall i f?) = f?.toList.map (Connection.Event.failed i) := by
  cases f? <;> rfl

/-- Plain notices publish nothing but bodies that are no messages. -/
theorem events_plain (h : ∀ n ∈ ns, n.isPlain i = true) :
    ∃ ps : List Pack.Fault, events ns = ps.map fun p => .failed i (.parse p) := by
  induction ns with
  | nil => exact ⟨[], rfl⟩
  | cons n ns ih =>
    obtain ⟨ps, hps⟩ := ih fun m hm => h m (List.mem_cons_of_mem n hm)
    have hn := h n List.mem_cons_self
    have hcons : events (n :: ns) = events [n] ++ events ns := events_append [n] ns
    rw [hcons, hps]
    cases n with
    | accepted id ticket m => exact ⟨ps, rfl⟩
    | called l id mti => exact ⟨ps, rfl⟩
    | published e =>
      cases e with
      | failed id f =>
        cases f with
        | parse p =>
          have hid : id = i := by simpa [isPlain, Fault.endsConnection] using hn
          exact ⟨p :: ps, by rw [hid]; rfl⟩
        | _ => simp [isPlain, Fault.endsConnection] at hn
      | _ => cases hn
    | _ => cases hn

/-- What a connection has published is the beginning of what it publishes during a whole life. -/
theorem events_isPrefix (h : Course i x ns) : ∃ ps f?, (∀ f ∈ f?, f.endsConnection = true) ∧
    events ns <+: Connection.Event.word i ps f? := by
  have no_fault : ∀ f ∈ (none : Option Fault), f.endsConnection = true := by simp
  cases h with
  | unopened => exact ⟨[], none, no_fault, List.nil_prefix⟩
  | @reading s hs ns hn =>
    obtain ⟨ps, hps⟩ := events_plain hn
    refine ⟨ps, none, no_fault, [.closed i], ?_⟩
    change (_ :: events ns) ++ _ = _
    rw [hps]
    simp [Connection.Event.word]
  | @draining since ns hn f? hf =>
    obtain ⟨ps, hps⟩ := events_plain hn
    refine ⟨ps, f?, hf, [.closed i], ?_⟩
    change (_ :: events (ns ++ _)) ++ _ = _
    rw [events_append, events_downfall, hps]
    rfl
  | @ended ns hn f? hf =>
    obtain ⟨ps, hps⟩ := events_plain hn
    refine ⟨ps, f?, hf, [], ?_⟩
    change (_ :: events (ns ++ _ ++ _)) ++ _ = _
    rw [events_append, events_append, events_downfall, hps, List.append_nil]
    rfl

/-- A connection has published its end exactly when it is gone. -/
theorem closed_mem_iff (h : Course i x ns) :
    .published (.closed i) ∈ ns ↔ x.map Face.state = some .disconnected := by
  have not_plain {ns : List Notice} (hn : ∀ n ∈ ns, n.isPlain i = true) :
      .published (.closed i) ∉ ns := fun hm => Bool.false_ne_true (hn _ hm)
  have not_downfall (f? : Option Fault) : .published (.closed i) ∉ downfall i f? := by
    cases f? <;> simp [downfall]
  cases h with
  | unopened => simp
  | reading hs hn => rcases hs with rfl | rfl <;> simpa using not_plain hn
  | draining since hn hf => simpa using ⟨not_plain hn, not_downfall _⟩
  | ended hn hf => simp

/-- What becomes known of a connection comes in two parts: no fault that ends it is in the first
one, no call of a listener in the second one. -/
theorem exists_parts (h : Course i x ns) : ∃ ms rest, ns = ms ++ rest ∧
    (∀ f, .published (.failed i f) ∈ ms → f.endsConnection = false) ∧
      ∀ l mti, .called l i mti ∉ rest := by
  have first {ns : List Notice} (hn : ∀ n ∈ ns, n.isPlain i = true) (f : Fault)
      (hm : .published (.failed i f) ∈ .published (.connected i) :: ns) :
      f.endsConnection = false := by
    rcases List.mem_cons.1 hm with hm | hm
    · cases hm
    · simpa [isPlain] using hn _ hm
  have not_downfall (f? : Option Fault) (l : ListenerId) (mti : UInt16) :
      .called l i mti ∉ downfall i f? := by
    cases f? <;> simp [downfall]
  cases h with
  | unopened => exact ⟨[], [], rfl, fun _ hm => absurd hm List.not_mem_nil,
      fun _ _ => List.not_mem_nil⟩
  | reading hs hn =>
    exact ⟨_, [], (List.append_nil _).symm, first hn, fun _ _ => List.not_mem_nil⟩
  | draining since hn hf => exact ⟨_, _, (List.cons_append ..).symm, first hn, not_downfall _⟩
  | @ended ns hn f? hf =>
    refine ⟨_, downfall i f? ++ [.published (.closed i)], ?_, first hn, fun l mti hm => ?_⟩
    · rw [List.append_assoc, List.cons_append]
    rcases List.mem_append.1 hm with hm | hm
    · exact not_downfall _ l mti hm
    · simp at hm

/-- No listener is called after the fault that ended a connection. -/
theorem not_called_after (h : Course i x ns) {as bs : List Notice} {f : Fault}
    (hns : ns = as ++ .published (.failed i f) :: bs) (hf : f.endsConnection = true)
    (l : ListenerId) (mti : UInt16) : .called l i mti ∉ bs := by
  obtain ⟨ms, rest, rfl, hms, hrest⟩ := h.exists_parts
  intro hm
  rcases List.append_eq_append_iff.1 hns with ⟨cs, -, hcs⟩ | ⟨cs, hcs, hbs⟩
  · exact hrest l mti (hcs ▸ List.mem_append_right _ (List.mem_cons_of_mem _ hm))
  · cases cs with
    | nil =>
      rw [List.nil_append] at hbs
      exact hrest l mti (hbs ▸ List.mem_cons_of_mem _ hm)
    | cons c cs =>
      have hc : c = .published (.failed i f) := (List.cons.inj hbs).1.symm
      have hmem : .published (.failed i f) ∈ ms := by
        rw [hcs, hc]
        exact List.mem_append_right _ List.mem_cons_self
      exact Bool.false_ne_true ((hms f hmem).symm.trans hf)

end Course

namespace Connector

open Notice
open Connection (Face State)

variable {k k' : Connector} {i : Nat}

/-! ## Every connection keeps its course -/

/-- A connector as it is made: nothing has happened yet. -/
def IsNew (k : Connector) : Prop := k.connections = [] ∧ k.history = []

/-- One thing happens to a connector: a change, or a connection is opened. -/
inductive Advance : Connector → Connector → Prop
  | change {k k' : Connector} (h : Change k k') : Advance k k'
  | openConnection (k : Connector) (now : Nat) : Advance k (k.openConnection now)

/-- Things happen to a connector one after the other. -/
abbrev Advances : Connector → Connector → Prop := Relation.ReflTransGen Advance

/-- What is initialized stays so. -/
theorem Advances.initialized (h : Advances k k') (hk : k.initialized = true) :
    k'.initialized = true := by
  induction h with
  | refl => exact hk
  | tail _ hstep ih =>
    cases hstep with
    | change hc => exact hc.initialized ih
    | openConnection now => exact ih

/-- What a connector was told, and the listeners that have names, stay as they are. -/
theorem Advances.configured (h : Advances k k') :
    k'.settings = k.settings ∧ k'.version = k.version ∧ k'.registry = k.registry := by
  induction h with
  | refl => exact ⟨rfl, rfl, rfl⟩
  | tail _ hstep ih =>
    cases hstep with
    | change hc =>
      obtain ⟨hs, hv, hr⟩ := hc.configured
      exact ⟨hs.trans ih.1, hv.trans ih.2.1, hr.trans ih.2.2⟩
    | openConnection now => exact ih

/-- What became known stays known. -/
theorem Advances.history (h : Advances k k') : k.history <+: k'.history := by
  induction h with
  | refl => exact List.prefix_refl _
  | tail _ hstep ih =>
    refine ih.trans ?_
    cases hstep with
    | change hc =>
      obtain ⟨ns, hns, -⟩ := hc.exists_passage 0
      exact ⟨ns, hns.symm⟩
    | openConnection now => exact List.prefix_append _ _

/-- What holds of a connector whatever happens to it. -/
structure Sound (k : Connector) : Prop where
  /-- The connections are numbered in the order in which they were opened. -/
  numbered : k.connections.map (·.id) = List.range' 1 k.connections.length
  /-- Writers end with faults that end connections. -/
  writers : ∀ f, k.HasRaised f → f.endsConnection = true
  /-- Every connection keeps its course. -/
  course : ∀ i, Course i (k.face? i) (story i k.history)

theorem IsNew.sound (h : k.IsNew) : k.Sound where
  numbered := by rw [h.1]; rfl
  writers f hf := by
    rcases hf with hf | ⟨c, hc, -⟩
    · exact hf
    · simp [h.1] at hc
  course i := by
    rw [face?, connection?, h.1, h.2]
    exact .unopened

/-- The number of the next connection is not taken. -/
theorem connection?_nextId (h : k.connections.map (·.id) = List.range' 1 k.connections.length) :
    k.connection? k.nextId = none := by
  refine Numbered.get?_eq_none.2 fun c hc hid => ?_
  have hm : c.id ∈ List.range' 1 k.connections.length := h ▸ List.mem_map_of_mem hc
  have hlt := (List.mem_range'_1.1 hm).2
  rw [show c.id = k.nextId from hid, nextId] at hlt
  omega

theorem connection?_openConnection (now : Nat) :
    (k.openConnection now).connection? i = (k.connection? i).or
      (if k.nextId = i then some (.start k.nextId k.settings.maxPendingWrites.toNat now)
        else none) := by
  rw [connection?, openConnection, Numbered.get?_append, Numbered.get?_cons]
  rfl

namespace Sound

theorem openConnection (h : k.Sound) (now : Nat) : (k.openConnection now).Sound where
  numbered := by
    simp [Connector.openConnection, h.numbered, List.range'_concat, Connection.start, nextId,
      Nat.add_comm]
  writers f hf := by
    rcases hf with hf | ⟨c, hc, hp⟩
    · exact hf
    · rcases List.mem_append.1 hc with hc | hc
      · exact h.writers f (.inr ⟨c, hc, hp⟩)
      · cases List.mem_singleton.1 hc
        cases hp
  course i := by
    have hs : story i (k.openConnection now).history =
        story i k.history ++ story i [.published (.connected k.nextId)] := story_append _ _
    rw [hs, face?, connection?_openConnection]
    by_cases hi : k.nextId = i
    · have hc := h.course i
      have hnone : k.connection? i = none := hi ▸ connection?_nextId h.numbered
      rw [face?, hnone] at hc
      rw [hnone, if_pos hi]
      generalize hns : story i k.history = ns at hc
      cases hc
      rw [List.nil_append, Option.none_or, Option.map_some, hi]
      have hopened : story i [.published (.connected i)] = [.published (.connected i)] := by
        simp [story, tells, Connection.Event.id]
      have hface : (Connection.start i k.settings.maxPendingWrites.toNat now).face =
          ⟨.reading, .connected⟩ := rfl
      rw [hopened, hface]
      exact .reading (.inl rfl) (List.forall_mem_nil _)
    · have hs : story i [.published (.connected k.nextId)] = [] := by
        simp [story, tells, Connection.Event.id, hi]
      rw [hs, List.append_nil, if_neg hi, Option.or_none]
      exact h.course i

theorem change (h : k.Sound) (hk : Change k k') : k'.Sound where
  numbered := by
    obtain ⟨id, f, hc, hid, -⟩ := hk.touches
    rw [hc, Numbered.map_modify_of_eq (·.id) (fun c h => (hid c h).trans h.symm),
      Numbered.length_modify, h.numbered]
  writers f hf := by
    rcases hf with hf | ⟨c, hc, hp⟩
    · exact hf
    · obtain ⟨id, g, hg, -, hw⟩ := hk.touches
      rw [hg] at hc
      rcases Numbered.mem_modify hc with hc | ⟨d, hd, -, rfl⟩
      · exact h.writers f (.inr ⟨c, hc, hp⟩)
      · exact h.writers f (hw d hd f hp)
  course i := by
    obtain ⟨ns, hns, hp⟩ := hk.exists_passage i
    rw [hns, story_append]
    refine (h.course i).passage (fun f hf => ?_) hp
    rcases hf with hf | ⟨c, hc, hf⟩
    · exact hf
    · exact h.writers f (.inr ⟨c, Numbered.mem_of_get? hc, hf⟩)

/-- **Every connection keeps its course** when one thing happens. -/
theorem advance (h : k.Sound) (hk : Advance k k') : k'.Sound := by
  cases hk with
  | change hc => exact h.change hc
  | openConnection now => exact h.openConnection now

/-- Every connection keeps its course, whatever happens. -/
theorem advances (h : k.Sound) (hk : Advances k k') : k'.Sound := by
  induction hk with
  | refl => exact h
  | tail _ hstep ih => exact ih.advance hstep

end Sound

/-! ## Runs -/

/-- What the surroundings do with a connector, or what happens to one of its connections. -/
inductive Turn where
  /-- It is initialized. -/
  | init
  /-- A connection is opened. -/
  | openConnection
  /-- Somebody sends, closes or changes the chain of listeners. -/
  | ask (r : Request)
  /-- Something happens to a connection. -/
  | happening (id : Nat) (h : Happening)

/-- Carry out a turn at a time. -/
def turn (k : Connector) (now : Nat) : Turn → Connector
  | .init => k.init.1
  | .openConnection => k.openConnection now
  | .ask r => (perform r k).1
  | .happening id h => k.step id now h

/-- Carry out turns one after the other, each at its time. -/
def run (k : Connector) (ts : List (Nat × Turn)) : Connector :=
  ts.foldl (fun k t => k.turn t.1 t.2) k

theorem Changes.advances (h : Changes k k') : Advances k k' :=
  Relation.ReflTransGen.mono (fun _ _ hc => Advance.change hc) _ _ h

theorem changes_init (k : Connector) : Changes k k.init.1 := by
  unfold init
  split
  · exact .refl
  · split
    · exact .refl
    · exact .single (.arrange k _ fun _ => rfl)

theorem advances_init (k : Connector) : Advances k k.init.1 := (changes_init k).advances

theorem advances_step (k : Connector) (id now : Nat) (h : Happening) :
    Advances k (k.step id now h) :=
  (changes_step k id now h).advances

theorem advances_turn (k : Connector) (now : Nat) (t : Turn) : Advances k (k.turn now t) := by
  cases t with
  | init => exact advances_init k
  | openConnection => exact .single (.openConnection k now)
  | ask r => exact (Meanwhile.perform r k).changes.advances
  | happening id h => exact advances_step k id now h

/-- A run of a connector is one thing after the other. -/
theorem advances_run (k : Connector) (ts : List (Nat × Turn)) : Advances k (k.run ts) := by
  induction ts generalizing k with
  | nil => exact .refl
  | cons t ts ih => exact (advances_turn k t.1 t.2).trans (ih _)

theorem run_append (k : Connector) (ts us : List (Nat × Turn)) :
    k.run (ts ++ us) = (k.run ts).run us :=
  List.foldl_append

/-! ## The life of a connection -/

/-- The state of the connection with a number. -/
def state? (k : Connector) (i : Nat) : Option State := (k.connection? i).map (·.state)

theorem state?_of_connection? {i : Nat} {c : Connection} (h : k.connection? i = some c) :
    k.state? i = some c.state := by
  rw [state?, h]
  rfl

theorem map_state_face? (k : Connector) (i : Nat) : (k.face? i).map Face.state = k.state? i :=
  Option.map_map ..

/-- A connection that cannot be sent to is closing. -/
theorem Sound.isClosing_of_ne_connected {s : State} (h : k.Sound) (hs : k.state? i = some s)
    (hne : s ≠ .connected) : s.isClosing = true := by
  have hcourse := h.course i
  rw [← map_state_face?] at hs
  obtain ⟨⟨r, _⟩, hf, rfl⟩ := Option.map_eq_some_iff.1 hs
  rw [hf] at hcourse
  exact hcourse.isClosing_of_ne_connected hne

/-- The events of one connection. -/
def eventsOf (i : Nat) (ns : List Notice) : List Connection.Event := (events ns).filter (·.id = i)

/-- The events of a connection are those of its story. -/
theorem eventsOf_eq (i : Nat) (ns : List Notice) : eventsOf i ns = events (story i ns) := by
  unfold eventsOf events story
  rw [List.filter_filterMap, List.filterMap_filter]
  congr 1
  funext n
  cases n with
  | published e => simp [tells, Option.filter]
  | called l id mti => simp
  | accepted id ticket m => simp
  | _ => rfl

/-- The life of a connection, at one moment and a later one. -/
structure Lifecycle (i : Nat) (k k' : Connector) : Prop where
  /-- Its state moves forward only. -/
  forward : ∀ s, k.state? i = some s → ∃ s', k'.state? i = some s' ∧ s.rank ≤ s'.rank
  /-- It is opened, then bodies arrive that are no messages, then perhaps it fails, then it is
  closed, and nothing more. -/
  events : ∃ ps f?, (∀ f ∈ f?, f.endsConnection = true) ∧
    eventsOf i k'.history <+: Connection.Event.word i ps f?
  /-- Its end is published exactly when it is gone. -/
  closed : .published (.closed i) ∈ k'.history ↔ k'.state? i = some .disconnected
  /-- No listener is called for it after the fault that ended it. -/
  silent : ∀ ns f ms, k'.history = ns ++ .published (.failed i f) :: ms → f.endsConnection = true →
    ∀ l mti, .called l i mti ∉ ms
  /-- It accepts a message only while it is connected. -/
  sends : ∀ m ticket, (k'.send i m).2 = .ok ticket → k'.state? i = some .connected
  /-- Once it is closing, it accepts no message any more. -/
  refuses : ∀ s, k.state? i = some s → s.isClosing = true → ∃ ns, k'.history = k.history ++ ns ∧
    ∀ ticket m, .accepted i ticket m ∉ ns

theorem mem_story {n : Notice} {ns : List Notice} (hn : n.tells i = true) (h : n ∈ ns) :
    n ∈ story i ns :=
  List.mem_filter.2 ⟨h, hn⟩

/-- One thing that happens moves no state back. A connection that is closing accepts nothing in it.
-/
theorem Advance.forward (h : Advance k k') {s : State} (hs : k.state? i = some s) :
    ∃ s' ns, k'.state? i = some s' ∧ s.rank ≤ s'.rank ∧ k'.history = k.history ++ ns ∧
      (s.isClosing = true → ∀ ticket m, .accepted i ticket m ∉ ns) := by
  cases h with
  | change hc =>
    obtain ⟨ns, hns, hp⟩ := hc.exists_passage i
    rw [← map_state_face?] at hs
    obtain ⟨⟨r, _⟩, hf, rfl⟩ := Option.map_eq_some_iff.1 hs
    rw [hf] at hp
    obtain ⟨r', s', hf', hrank, hn⟩ := hp.forward
    refine ⟨s', ns, ?_, hrank, hns, fun hcl ticket m hm => ?_⟩
    · rw [← map_state_face?, hf']
      rfl
    · exact hn hcl ticket m (mem_story (by simp [tells]) hm)
  | openConnection now =>
    obtain ⟨c, hc, rfl⟩ := Option.map_eq_some_iff.1 hs
    refine ⟨c.state, _, ?_, Nat.le_refl _, rfl, fun _ _ _ => by simp⟩
    rw [state?, connection?_openConnection, hc]
    rfl

/-- No state ever moves back. A connection that is closing accepts nothing any more. -/
theorem Advances.forward (h : Advances k k') {s : State} (hs : k.state? i = some s) :
    ∃ s' ns, k'.state? i = some s' ∧ s.rank ≤ s'.rank ∧ k'.history = k.history ++ ns ∧
      (s.isClosing = true → ∀ ticket m, .accepted i ticket m ∉ ns) := by
  induction h with
  | refl =>
    exact ⟨s, [], hs, Nat.le_refl _, (List.append_nil _).symm, fun _ _ _ => List.not_mem_nil⟩
  | tail _ hstep ih =>
    obtain ⟨t, ms, ht, hst, hms, hm⟩ := ih
    obtain ⟨s', ns, hs', hts, hns, hn⟩ := hstep.forward ht
    refine ⟨s', ms ++ ns, hs', Nat.le_trans hst hts, by rw [hns, hms, List.append_assoc],
      fun hcl ticket m => ?_⟩
    rw [List.mem_append, not_or]
    exact ⟨hm hcl ticket m, hn (State.isClosing_of_rank_le hcl hst) ticket m⟩

/-- A change makes no connection, and moves the state of none back. -/
theorem Change.state? (h : Change k k') (i : Nat) :
    k.state? i = none ∧ k'.state? i = none ∨
      ∃ s s', k.state? i = some s ∧ k'.state? i = some s' ∧ s.rank ≤ s'.rank := by
  obtain ⟨ns, -, hp⟩ := h.exists_passage i
  rw [← map_state_face?, ← map_state_face?]
  cases hf : k.face? i with
  | none =>
    rw [hf] at hp
    rw [hp.of_none]
    exact .inl ⟨rfl, rfl⟩
  | some f =>
    rw [hf] at hp
    obtain ⟨r', s', hf', hrank, -⟩ := hp.forward
    exact .inr ⟨f.state, s', rfl, by rw [hf']; rfl, hrank⟩

/-- Changes make no connection, and move the state of none back. -/
theorem Changes.state? (h : Changes k k') (i : Nat) :
    k.state? i = none ∧ k'.state? i = none ∨
      ∃ s s', k.state? i = some s ∧ k'.state? i = some s' ∧ s.rank ≤ s'.rank := by
  induction h with
  | refl =>
    cases k.state? i with
    | none => exact .inl ⟨rfl, rfl⟩
    | some s => exact .inr ⟨s, s, rfl, rfl, Nat.le_refl _⟩
  | tail _ hstep ih =>
    rcases ih, hstep.state? i with ⟨⟨h₁, h₂⟩ | ⟨s, t, h₁, h₂, hst⟩, ⟨h₃, h₄⟩ | ⟨t', u, h₃, h₄, htu⟩⟩
    · exact .inl ⟨h₁, h₄⟩
    · cases h₂.symm.trans h₃
    · cases h₂.symm.trans h₃
    · cases h₂.symm.trans h₃
      exact .inr ⟨s, u, h₁, h₄, Nat.le_trans hst htu⟩

/-- Changes make no connection. -/
theorem Changes.connection?_eq_none (h : Changes k k') {i : Nat} (hi : k.connection? i = none) :
    k'.connection? i = none := by
  rcases h.state? i with ⟨-, hn⟩ | ⟨s, -, hs, -⟩
  · exact Option.map_eq_none_iff.1 hn
  · rw [Connector.state?, hi] at hs
    cases hs

/-- A connection stays, if only as one that is gone. -/
theorem Advances.state?_ne_none (h : Advances k k') (hi : k.state? i ≠ none) :
    k'.state? i ≠ none := by
  obtain ⟨s, hs⟩ := Option.ne_none_iff_exists'.1 hi
  obtain ⟨s', -, hs', -⟩ := h.forward hs
  simp [hs']

theorem state?_close (k : Connector) (id i : Nat) :
    (k.close id).state? i = if i = id then (k.state? id).map State.closed else k.state? i := by
  rw [← map_state_face?, face?_close]
  split
  · rw [← map_state_face?, Option.map_map, Option.map_map]
    rfl
  · exact map_state_face? ..

/-- A connection that is told to close is closing. -/
theorem isClosing_of_state?_close {id : Nat} {s : State} (h : (k.close id).state? id = some s) :
    s.isClosing = true := by
  rw [state?_close, if_pos rfl] at h
  obtain ⟨t, -, rfl⟩ := Option.map_eq_some_iff.1 h
  exact t.isClosing_closed

theorem state?_openConnection
    (h : k.connections.map (·.id) = List.range' 1 k.connections.length) (now i : Nat) :
    (k.openConnection now).state? i = if i = k.nextId then some .connected else k.state? i := by
  rw [Connector.state?, connection?_openConnection]
  by_cases hi : i = k.nextId
  · rw [if_pos hi.symm, if_pos hi, hi, connection?_nextId h]
    rfl
  · rw [if_neg (Ne.symm hi), if_neg hi, Option.or_none]
    rfl

theorem not_closing_of_send {m : Message} {ticket : Nat} (h : (k.send i m).2 = .ok ticket) :
    ∃ s, k.state? i = some s ∧ s.isClosing = false := by
  unfold send at h
  split at h
  · cases h
  · next c hc =>
    obtain ⟨queue, -, hok⟩ := c.send_cases m
    refine ⟨c.state, state?_of_connection? hc, ?_⟩
    split at h
    · next c' ticket hs => exact hok ticket (by rw [hs])
    · cases h

/-- **Every connection keeps to its life**, between any two moments of whatever happens to a
connector. -/
theorem Sound.keepsTo (h : k.Sound) (hk : Advances k k') (i : Nat) : Lifecycle i k k' where
  forward s hs := by
    obtain ⟨s', -, hs', hrank, -⟩ := hk.forward hs
    exact ⟨s', hs', hrank⟩
  events := by
    rw [eventsOf_eq]
    exact ((h.advances hk).course i).events_isPrefix
  closed := by
    rw [← map_state_face?, ← ((h.advances hk).course i).closed_mem_iff]
    exact (List.mem_filter.trans (and_iff_left (by simp [tells, Connection.Event.id]))).symm
  silent ns f ms hns hf l mti hm := by
    have hstory : story i k'.history = story i ns ++ .published (.failed i f) :: story i ms := by
      rw [hns, story_append]
      exact congrArg _ (List.filter_cons_of_pos (by simp [tells, Connection.Event.id]))
    exact ((h.advances hk).course i).not_called_after hstory hf l mti
      (mem_story (by simp [tells]) hm)
  sends m ticket hsend := by
    obtain ⟨s, hs, hcl⟩ := not_closing_of_send hsend
    have hc := (h.advances hk).course i
    rw [← map_state_face?] at hs ⊢
    generalize k'.face? i = x, story i k'.history = ns at hs hc
    cases hc with
    | unopened => cases hs
    | reading hcon hn =>
      cases hs
      rcases hcon with rfl | rfl
      · rfl
      · cases hcl
    | draining since hn hf =>
      cases hs
      cases hcl
    | ended hn hf =>
      cases hs
      cases hcl
  refuses s hs hcl := by
    obtain ⟨-, ns, -, -, hns, hn⟩ := hk.forward hs
    exact ⟨ns, hns, hn hcl⟩

/-- **The life of a connection**, for every connector with whatever settings and listeners: from any
point of a run to any later one it keeps to its life, also where other things happen in the middle
of a turn. -/
theorem lifecycle (hk : k.IsNew) (i : Nat) :
    (∀ ts us, Lifecycle i (k.run ts) (k.run (ts ++ us))) ∧
      ∀ k₁ k₂, Advances k k₁ → Advances k₁ k₂ → Lifecycle i k₁ k₂ := by
  have fine (k₁ k₂ : Connector) (h₁ : Advances k k₁) (h₂ : Advances k₁ k₂) : Lifecycle i k₁ k₂ :=
    (hk.sound.advances h₁).keepsTo h₂ i
  refine ⟨fun ts us => ?_, fine⟩
  rw [run_append]
  exact fine _ _ (advances_run k ts) (advances_run _ us)

/-- The life of a connection whose socket fails. -/
theorem lifecycle_of_failed_socket :
    ({ settings := .default } : Connector).IsNew ∧
      eventsOf 1 (({ settings := .default } : Connector).run
        ([(0, .init), (0, .openConnection), (7, .happening 1 (.inputFailed "reset"))] ++
          [(7, .happening 1 (.writer .closing)), (8, .happening 1 .drained)])).history =
        [.connected 1, .failed 1 (.io "reset"), .closed 1] ∧
      Lifecycle 1
        (({ settings := .default } : Connector).run
          [(0, .init), (0, .openConnection), (7, .happening 1 (.inputFailed "reset"))])
        (({ settings := .default } : Connector).run
          ([(0, .init), (0, .openConnection), (7, .happening 1 (.inputFailed "reset"))] ++
            [(7, .happening 1 (.writer .closing)), (8, .happening 1 .drained)])) :=
  ⟨⟨rfl, rfl⟩, by decide, (lifecycle ⟨rfl, rfl⟩ 1).1 _ _⟩

end Connector

end Interchange
