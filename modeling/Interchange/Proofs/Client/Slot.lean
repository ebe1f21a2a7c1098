import Interchange.Client.Basic
import Interchange.Proofs.Connector.Lifecycle

/-!
# The connection of a client

Every connection that an attempt opens is either the client's current one, or still in the hands of
the attempt, or told to close. `Kept` says so for whatever the indivisible steps of a client do,
with the connections that are in the hands of attempts as a parameter.

An attempt that goes on without waiting lets go of its connection before it waits, so no connection
is in the hands of anybody at the points at which a client waits: `single_live` says what follows
from it.
-/

namespace Interchange.Client

open Connector (Changes)
open Connection (State)

variable {c c' d : Client} {n id now : Nat} {held : Nat → Prop}

/-- A connection is going or gone. -/
def IsClosed (c : Client) (id : Nat) : Prop :=
  ∃ s, c.connector.state? id = some s ∧ s.isClosing = true

theorem isActive_iff : c.isActive id = true ↔ c.connector.state? id = some .connected := by
  unfold isActive Connector.state?
  split <;> simp [*]

theorem isGone_iff : c.isGone id = true ↔ c.connector.state? id = some .disconnected := by
  unfold isGone Connector.state?
  split <;> simp [*]

/-- An attempt whose socket is open has one more connection, which can be sent to. -/
theorem state?_attach (h : c.connector.Sound) (n now i : Nat) :
    (c.attach n now).connector.state? i =
      if i = c.connector.nextId then some .connected else c.connector.state? i :=
  Connector.state?_openConnection h.numbered now i

theorem state?_attach_nextId (h : c.connector.Sound) (n now : Nat) :
    (c.attach n now).connector.state? c.connector.nextId = some .connected := by
  rw [state?_attach h, if_pos rfl]

theorem active?_eq_some : c.active? = some id ↔ c.current = some id ∧ c.isActive id = true :=
  Option.filter_eq_some_iff

/-! ## Steps that leave the connections alone -/

/-- Two clients have the same connections, the same current one and the same watchers. -/
structure SameSlot (c d : Client) : Prop where
  connector : d.connector = c.connector
  current : d.current = c.current
  watched : d.watched = c.watched

namespace SameSlot

theorem refl (c : Client) : SameSlot c c := ⟨rfl, rfl, rfl⟩

theorem trans (h₁ : SameSlot c c') (h₂ : SameSlot c' d) : SameSlot c d :=
  ⟨h₂.1.trans h₁.1, h₂.2.trans h₁.2, h₂.3.trans h₁.3⟩

theorem advances (h : SameSlot c d) : Connector.Advances c.connector d.connector := by
  rw [h.connector]

theorem updateAttempt (c : Client) (n : Nat) (stage : Stage) :
    SameSlot c (c.updateAttempt n stage) := ⟨rfl, rfl, rfl⟩

theorem waitInLoop (c : Client) (now : Nat) : SameSlot c (c.waitInLoop now) := by
  unfold Client.waitInLoop
  split <;> exact ⟨rfl, rfl, rfl⟩

theorem schedule (c : Client) (now : Nat) : SameSlot c (c.schedule now).1 := by
  unfold Client.schedule
  split <;> exact ⟨rfl, rfl, rfl⟩

theorem scheduleAndWake (c : Client) (now : Nat) : SameSlot c (c.scheduleAndWake now) := by
  have h := schedule c now
  unfold Client.scheduleAndWake
  split
  · next hs =>
    rw [hs] at h
    refine h.trans ?_
    unfold wakeLoop
    split <;> exact ⟨rfl, rfl, rfl⟩
  · next hs =>
    rw [hs] at h
    exact h

theorem giveUp (c : Client) (n now : Nat) (origin : Origin) (f : Fault) :
    SameSlot c (c.giveUp n now origin f) := by
  refine (updateAttempt c n (.failed f)).trans ?_
  cases origin with
  | asked => exact scheduleAndWake _ now
  | loop =>
    have h := schedule (c.updateAttempt n (.failed f)) now
    simp only [Client.giveUp]
    split
    · next hs =>
      rw [hs] at h
      exact h.trans ⟨rfl, rfl, rfl⟩
    · next hs =>
      rw [hs] at h
      exact h.trans (waitInLoop _ now)

theorem settleLoop (c : Client) (origin : Origin) (now : Nat) :
    SameSlot c (c.settleLoop origin now) := by
  cases origin with
  | asked => exact refl c
  | loop => exact waitInLoop c now

theorem request (c : Client) : SameSlot c c.request := by
  unfold Client.request ensureLoop
  split <;> exact ⟨rfl, rfl, rfl⟩

theorem connect (c : Client) : SameSlot c c.connect := by
  unfold Client.connect
  split
  · exact refl c
  · split
    · exact refl c
    · exact request c

theorem loopWakes (c : Client) (now : Nat) : SameSlot c (c.step now .loopWakes) := by
  simp only [step]
  split
  · exact waitInLoop c now
  · exact ⟨rfl, rfl, rfl⟩
  · exact refl c

theorem loopRises (c : Client) (now : Nat) : SameSlot c (c.step now .loopRises) := by
  simp only [step]
  split
  · split
    · split
      · exact ⟨rfl, rfl, rfl⟩
      · next reconnect _ =>
        have h : SameSlot c { c with reconnect } := ⟨rfl, rfl, rfl⟩
        exact h.trans (waitInLoop _ now)
    · exact refl c
  · exact refl c

theorem active? (h : SameSlot c d) : d.active? = c.active? := by
  unfold Client.active? Client.isActive
  rw [h.connector, h.current]

end SameSlot

/-! ## Steps that change the current connection -/

/-- Close a connection. -/
def closing (c : Client) (id : Nat) : Client := { c with connector := c.connector.close id }

/-- Where no disconnect is in effect, an attempt may use its connection. -/
theorem approve_of_free (h : c.reconnect.disconnecting = false) (n id : Nat) :
    c.approve n id =
      ({ c with reconnect := ⟨.connected, false, false⟩ }).updateAttempt n (.approved id) := by
  simp [approve, Reconnect.onConnected, h]

/-- While a disconnect is in effect, an attempt closes its connection. -/
theorem approve_of_disconnecting (h : c.reconnect.disconnecting = true) (n id : Nat) :
    c.approve n id = (c.closing id).updateAttempt n (.failing .connectionClosed) := by
  simp [approve, Reconnect.onConnected, h, closing]

theorem complete_of_free (h : c.reconnect.disconnecting = false) (a : Attempt) (id now : Nat) :
    c.complete a id now =
      ((c.approve a.number id).install a.number id).settleLoop a.origin now := by
  simp [complete, Reconnect.onConnected, h]

theorem complete_of_disconnecting (h : c.reconnect.disconnecting = true) (a : Attempt)
    (id now : Nat) : c.complete a id now =
      (c.approve a.number id).giveUp a.number now a.origin .connectionClosed := by
  simp [complete, Reconnect.onConnected, h]

theorem SameSlot.approve (h : c.reconnect.disconnecting = false) (n id : Nat) :
    SameSlot c (c.approve n id) := by
  rw [approve_of_free h]
  exact ⟨rfl, rfl, rfl⟩

theorem SameSlot.approve_closing (h : c.reconnect.disconnecting = true) (n id : Nat) :
    SameSlot (c.closing id) (c.approve n id) := by
  rw [approve_of_disconnecting h]
  exact ⟨rfl, rfl, rfl⟩

theorem release_of_eq (h : c.current = some id) :
    c.release id = ({ c with current := none }, true) :=
  if_pos h

theorem release_of_ne (h : c.current ≠ some id) : c.release id = (c, false) :=
  if_neg h

theorem connector_release (c : Client) (id : Nat) : (c.release id).1.connector = c.connector := by
  unfold release
  split <;> rfl

/-- What a disconnect takes out is a change of the connections. -/
theorem changes_dropCurrent (c : Client) : Changes c.connector c.dropCurrent.connector := by
  unfold dropCurrent
  split
  · exact .single (.close ..)
  · exact .refl

theorem current_dropCurrent (c : Client) : c.dropCurrent.current = none := by
  unfold dropCurrent
  split
  · rfl
  · assumption

/-- An attempt that loses the race closes its connection. -/
theorem install_of_some {existing : Nat} (h : c.active? = some existing) (n id : Nat) :
    c.install n id = (c.closing id).updateAttempt n (.succeeded existing) := by
  rw [install, h]
  rfl

/-- An attempt that wins the race takes the current connection out as a disconnect does, and puts
its own one in. -/
theorem install_of_none (h : c.active? = none) (n id : Nat) :
    c.install n id = ({ c.dropCurrent with
      current := some id, watched := id :: c.watched }).updateAttempt n (.succeeded id) := by
  rw [install, h, dropCurrent]
  cases c.current <;> rfl

/-! ## Every connection is accounted for -/

/-- Every connection is the current one, or in certain hands, or told to close. -/
structure Kept (held : Nat → Prop) (c : Client) : Prop where
  /-- The connector is sound. -/
  sound : c.connector.Sound
  /-- There is a connection where one is the current one. -/
  present : ∀ id, c.current = some id → c.connector.state? id ≠ none
  /-- All others are held by somebody or closing. -/
  others : ∀ id s, c.connector.state? id = some s →
    c.current = some id ∨ held id ∨ s.isClosing = true

namespace Kept

theorem of_same (h : Kept held c) (hs : SameSlot c d) : Kept held d where
  sound := hs.connector ▸ h.sound
  present id := by
    rw [hs.connector, hs.current]
    exact h.present id
  others id s := by
    rw [hs.connector, hs.current]
    exact h.others id s

theorem mono {held' : Nat → Prop} (h : Kept held c) (hm : ∀ id, held id → held' id) :
    Kept held' c :=
  ⟨h.sound, h.present, fun id s hs => (h.others id s hs).imp_right (.imp_left (hm id))⟩

/-- A new client has no connection. -/
theorem new {k : Connector} (hk : k.IsNew) (interval : Nat) : Kept held (.new k interval) where
  sound := hk.sound
  present _ := nofun
  others id s hs := by
    rw [Connector.state?, Connector.connection?] at hs
    simp [Client.new, hk.1, Numbered.get?] at hs

/-- What happens to connections loses none. -/
theorem changes (h : Kept held c) {k : Connector} (hk : Changes c.connector k) :
    Kept held { c with connector := k } where
  sound := h.sound.advances hk.advances
  present id hid := hk.advances.state?_ne_none (h.present id hid)
  others id s hs := by
    rcases hk.state? id with ⟨-, hn⟩ | ⟨s₀, s', hs₀, hs', hrank⟩
    · cases hs.symm.trans hn
    · cases hs.symm.trans hs'
      exact (h.others id s₀ hs₀).imp_right
        (.imp_right fun hcl => State.isClosing_of_rank_le hcl hrank)

/-- A connection that is told to close is in nobody's hands. -/
theorem close (h : Kept held c) (id : Nat) :
    Kept (fun i => held i ∧ i ≠ id) (c.closing id) := by
  have hk := h.changes (.single (.close c.connector id))
  refine ⟨hk.sound, hk.present, fun i s hs => ?_⟩
  rcases hk.others i s hs with hcur | hheld | hcl
  · exact .inl hcur
  · by_cases hi : i = id
    · subst hi
      exact .inr (.inr (Connector.isClosing_of_state?_close hs))
    · exact .inr (.inl ⟨hheld, hi⟩)
  · exact .inr (.inr hcl)

/-- The connection that an attempt opens is in its hands. -/
theorem attach (h : Kept held c) (n now : Nat) :
    Kept (fun i => held i ∨ i = c.connector.nextId) (c.attach n now) where
  sound := h.sound.openConnection now
  present id hid := by
    have hs : c.connector.state? id ≠ none := h.present id hid
    rw [state?_attach h.sound]
    split
    · exact Option.some_ne_none _
    · exact hs
  others id s hs := by
    rw [state?_attach h.sound] at hs
    split at hs
    · next hi => exact .inr (.inl (.inr hi))
    · exact (h.others id s hs).imp_right (.imp_left .inl)

/-- An attempt that may not use its connection lets go of it. -/
theorem refuse (h : Kept held c) (hr : c.reconnect.disconnecting = true) (n id : Nat) :
    Kept (fun i => held i ∧ i ≠ id) (c.approve n id) :=
  (h.close id).of_same (SameSlot.approve_closing hr n id)

/-- A disconnect tells the connection to close that it takes. -/
theorem dropCurrent (h : Kept held c) : Kept held c.dropCurrent := by
  unfold Client.dropCurrent
  split
  · next id hcur =>
    have hk := h.close id
    refine ⟨hk.sound, by simp, fun i s hs => ?_⟩
    rcases hk.others i s hs with hi | ⟨hheld, -⟩ | hcl
    · cases hcur.symm.trans hi
      exact .inr (.inr (Connector.isClosing_of_state?_close hs))
    · exact .inr (.inl hheld)
    · exact .inr (.inr hcl)
  · exact h

/-- An attempt makes its connection the current one or lets go of it. -/
theorem install (h : Kept held c) (n : Nat) (hid : c.connector.state? id ≠ none) :
    Kept (fun i => held i ∧ i ≠ id) (c.install n id) := by
  cases hact : c.active? with
  | some existing =>
    rw [install_of_some hact]
    exact (h.close id).of_same ⟨rfl, rfl, rfl⟩
  | none =>
    rw [install_of_none hact]
    have hk := h.dropCurrent
    refine ⟨hk.sound, fun i hi => ?_, fun i s hs => ?_⟩
    · cases hi
      exact c.changes_dropCurrent.advances.state?_ne_none hid
    · by_cases hi : i = id
      · exact .inl (congrArg some hi.symm)
      · rcases hk.others i s hs with hcur | hheld | hcl
        · cases c.current_dropCurrent.symm.trans hcur
        · exact .inr (.inl ⟨hheld, hi⟩)
        · exact .inr (.inr hcl)

/-- A watcher takes nothing out but a connection that is gone. -/
theorem release (h : Kept held c) (hg : c.isGone id = true) : Kept held (c.release id).1 := by
  unfold Client.release
  split
  · next hcur =>
    refine ⟨h.sound, by simp, fun i s hs => ?_⟩
    rcases h.others i s hs with hi | hrest
    · cases hcur.symm.trans hi
      cases (isGone_iff.1 hg).symm.trans hs
      exact .inr (.inr rfl)
    · exact .inr hrest
  · exact h

/-- An attempt that goes on without waiting lets go of its connection. -/
theorem complete (h : Kept held c) (a : Attempt) (hid : c.connector.state? id ≠ none) (now : Nat) :
    Kept (fun i => held i ∧ i ≠ id) (c.complete a id now) := by
  cases hd : c.reconnect.disconnecting with
  | false =>
    have happ := SameSlot.approve hd a.number id
    rw [complete_of_free hd]
    refine Kept.of_same ?_ (SameSlot.settleLoop _ a.origin now)
    exact (h.of_same happ).install a.number (happ.connector.symm ▸ hid)
  | true =>
    rw [complete_of_disconnecting hd]
    exact (h.refuse hd a.number id).of_same (SameSlot.giveUp ..)

/-- **No connection is in anybody's hands** at the points at which a client waits. -/
theorem step (h : Kept (fun _ => False) c) (now : Nat) (e : Event) :
    Kept (fun _ => False) (c.step now e) := by
  cases e with
  | connect => exact h.of_same (SameSlot.connect c)
  | opened n =>
    simp only [Client.step]
    split
    · next a ha =>
      have hid : (c.attach n now).connector.state? c.connector.nextId ≠ none := by
        simp [state?_attach_nextId h.sound]
      exact ((h.attach n now).complete a hid now).mono fun i hi => hi.1.elim id fun he => hi.2 he
    · exact h
  | refused n text =>
    simp only [Client.step]
    split
    · exact h.of_same (SameSlot.giveUp ..)
    · exact h
  | watcher id =>
    simp only [Client.step]
    split
    · next hw =>
      have hg : (c.unwatch id).isGone id = true := (Bool.and_eq_true_iff.1 hw).2
      have hk : Kept (fun _ => False) (c.unwatch id) := ⟨h.sound, h.present, h.others⟩
      have hr := hk.release hg
      split
      · next hrel =>
        rw [hrel] at hr
        exact hr.of_same (SameSlot.scheduleAndWake ..)
      · next hrel =>
        rw [hrel] at hr
        exact hr
    · exact h
  | loopWakes => exact h.of_same (SameSlot.loopWakes c now)
  | loopRises => exact h.of_same (SameSlot.loopRises c now)
  | disconnect =>
    have hk : Kept (fun _ => False) c.requestDisconnect := ⟨h.sound, h.present, h.others⟩
    exact hk.dropCurrent
  | stopLoop => exact ⟨h.sound, h.present, h.others⟩
  | close id => exact h.changes (.single (.close ..))
  | send id m => exact h.changes (.single (.send ..))
  | connection id e => exact h.changes (Connector.changes_step ..)

end Kept

/-! ## Runs -/

/-- Let things happen to a client one after the other, each at its time. -/
def run (c : Client) (es : List (Nat × Event)) : Client :=
  es.foldl (fun c e => c.step e.1 e.2) c

theorem Kept.run (h : Kept (fun _ => False) c) (es : List (Nat × Event)) :
    Kept (fun _ => False) (c.run es) := by
  induction es generalizing c with
  | nil => exact h
  | cons e es ih => exact ih (h.step e.1 e.2)

/-! ## One live connection -/

/-- At most one connection can be sent to, and it is the current one. -/
structure SingleLive (c : Client) : Prop where
  /-- A connection that can be sent to is the current one. -/
  live : ∀ id, c.isActive id = true → c.current = some id
  /-- Every other connection is going or gone. -/
  others : ∀ id s, c.connector.state? id = some s → c.current = some id ∨ s.isClosing = true
  /-- A connection that is opened while another can be sent to is closed, and the other stays. -/
  loses : ∀ n a now existing, c.opening? n = some a → c.active? = some existing →
    (c.step now (.opened n)).active? = some existing ∧
      (c.step now (.opened n)).IsClosed c.connector.nextId
  /-- A connection that is opened becomes the current one or is closed. -/
  opened : ∀ n a now, c.opening? n = some a →
    (c.step now (.opened n)).current = some c.connector.nextId ∨
      (c.step now (.opened n)).IsClosed c.connector.nextId
  /-- A current connection that does not stay the current one is closed. -/
  replaced : ∀ now e id, c.current = some id → (c.step now e).current ≠ some id →
    (c.step now e).IsClosed id
  /-- A watcher takes out no connection but its own. -/
  watcher : ∀ now id, (c.step now (.watcher id)).current ≠ c.current →
    c.current = some id ∧ (c.step now (.watcher id)).current = none

theorem current_watcher (c : Client) (now id : Nat) :
    (c.step now (.watcher id)).current = c.current ∨
      c.current = some id ∧ (c.step now (.watcher id)).current = none := by
  simp only [step]
  split
  · by_cases hcur : c.current = some id
    · right
      rw [release_of_eq (c := c.unwatch id) hcur]
      exact ⟨hcur, (SameSlot.scheduleAndWake _ now).current⟩
    · left
      rw [release_of_ne (c := c.unwatch id) hcur]
      rfl
  · exact .inl rfl

/-- Where another connection can be sent to, an attempt closes its own. -/
theorem SameSlot.complete_of_active {existing : Nat} (h : c.active? = some existing) (a : Attempt)
    (id now : Nat) : SameSlot (c.closing id) (c.complete a id now) := by
  cases hd : c.reconnect.disconnecting with
  | false =>
    have happ := SameSlot.approve hd a.number id
    have hact : (c.approve a.number id).active? = some existing := by rw [happ.active?, h]
    rw [complete_of_free hd]
    refine SameSlot.trans ?_ (settleLoop _ a.origin now)
    rw [install_of_some hact]
    exact ⟨congrArg (·.close id) happ.connector, happ.current, happ.watched⟩
  | true =>
    rw [complete_of_disconnecting hd]
    exact (approve_closing hd a.number id).trans (giveUp ..)

theorem changes_install (c : Client) (n id : Nat) :
    Changes c.connector (c.install n id).connector := by
  cases hact : c.active? with
  | some existing =>
    rw [install_of_some hact]
    exact .single (.close ..)
  | none =>
    rw [install_of_none hact]
    exact c.changes_dropCurrent

theorem changes_complete (c : Client) (a : Attempt) (id now : Nat) :
    Changes c.connector (c.complete a id now).connector := by
  cases hd : c.reconnect.disconnecting with
  | false =>
    rw [complete_of_free hd, (SameSlot.settleLoop _ a.origin now).connector]
    have h := (c.approve a.number id).changes_install a.number id
    rwa [(SameSlot.approve hd a.number id).connector] at h
  | true =>
    rw [complete_of_disconnecting hd, (SameSlot.giveUp ..).connector,
      (SameSlot.approve_closing hd a.number id).connector]
    exact .single (.close ..)

/-- What happens to a client is one thing after the other for its connections. -/
theorem advances_step (c : Client) (now : Nat) (e : Event) :
    Connector.Advances c.connector (c.step now e).connector := by
  cases e with
  | connect => exact (SameSlot.connect c).advances
  | opened n =>
    simp only [step]
    split
    · next a _ =>
      exact .trans (.single (.openConnection c.connector now))
        ((c.attach n now).changes_complete a c.connector.nextId now).advances
    · exact .refl
  | refused n text =>
    simp only [step]
    split
    · exact (SameSlot.giveUp ..).advances
    · exact .refl
  | watcher id =>
    simp only [step]
    split
    · have hrel := (c.unwatch id).connector_release id
      split
      · next hr =>
        rw [hr] at hrel
        rw [(SameSlot.scheduleAndWake ..).connector, hrel]
        exact .refl
      · next hr =>
        rw [hr] at hrel
        rw [hrel]
        exact .refl
    · exact .refl
  | loopWakes => exact (SameSlot.loopWakes c now).advances
  | loopRises => exact (SameSlot.loopRises c now).advances
  | disconnect => exact c.requestDisconnect.changes_dropCurrent.advances
  | stopLoop => exact .refl
  | close id => exact .single (.change (.close ..))
  | send id m => exact .single (.change (.send ..))
  | connection id e => exact Connector.advances_step ..

theorem state?_opened_ne_none {a : Attempt} (h : c.connector.Sound) (ha : c.opening? n = some a)
    (now : Nat) : (c.step now (.opened n)).connector.state? c.connector.nextId ≠ none := by
  have hid := state?_attach_nextId h n now
  simp only [step, ha]
  exact (changes_complete ..).advances.state?_ne_none (by simp [hid])

/-- A connection that is not the current one is closed. -/
theorem Kept.isClosed (h : Kept (fun _ => False) c) (hid : c.connector.state? id ≠ none)
    (hcur : c.current ≠ some id) : c.IsClosed id := by
  obtain ⟨s, hs⟩ := Option.ne_none_iff_exists'.1 hid
  exact ⟨s, hs, ((h.others id s hs).resolve_left hcur).resolve_left not_false⟩

/-- **A client has one live connection** at most, whatever happens to it. -/
theorem Kept.singleLive (h : Kept (fun _ => False) c) : SingleLive c where
  live id hid := by
    rcases h.others id _ (isActive_iff.1 hid) with hcur | hf | hcl
    · exact hcur
    · exact hf.elim
    · cases hcl
  others id s hs := (h.others id s hs).imp_right fun hr => hr.resolve_left not_false
  loses n a now existing ha hact := by
    obtain ⟨hcur, hlive⟩ := active?_eq_some.1 hact
    have hlive := isActive_iff.1 hlive
    have hne : existing ≠ c.connector.nextId := by
      rintro rfl
      rw [Connector.state?, Connector.connection?_nextId h.sound.numbered] at hlive
      cases hlive
    have hs : (c.attach n now).connector.state? existing = some .connected := by
      rw [state?_attach h.sound, if_neg hne, hlive]
    have hact : (c.attach n now).active? = some existing :=
      active?_eq_some.2 ⟨hcur, isActive_iff.2 hs⟩
    have hstep : c.step now (.opened n) = (c.attach n now).complete a c.connector.nextId now := by
      simp only [Client.step, ha]
    have hslot := SameSlot.complete_of_active hact a c.connector.nextId now
    rw [← hstep] at hslot
    have hcur' : (c.step now (.opened n)).current = some existing := hslot.current.trans hcur
    refine ⟨active?_eq_some.2 ⟨hcur', isActive_iff.2 ?_⟩, ?_⟩
    · rw [hslot.connector]
      exact (Connector.state?_close ..).trans ((if_neg hne).trans hs)
    · refine (h.step now _).isClosed (state?_opened_ne_none h.sound ha now) fun hid => hne ?_
      exact Option.some.inj (hcur'.symm.trans hid)
  opened n a now ha := by
    by_cases hcur : (c.step now (.opened n)).current = some c.connector.nextId
    · exact .inl hcur
    · exact .inr ((h.step now _).isClosed (state?_opened_ne_none h.sound ha now) hcur)
  replaced now e id hcur hne :=
    (h.step now e).isClosed ((c.advances_step now e).state?_ne_none (h.present id hcur)) hne
  watcher now id hne := (c.current_watcher now id).resolve_left hne

/-- **A client has one live connection** at most, at every moment of every run. -/
theorem single_live {k : Connector} (hk : k.IsNew) (interval : Nat) (es : List (Nat × Event)) :
    SingleLive ((new k interval).run es) :=
  ((Kept.new hk interval).run es).singleLive

/-- The live connection of a client to which two sockets are opened at once. -/
theorem single_live_of_race :
    ({ settings := .default, initialized := true } : Connector).IsNew ∧
      ((new { settings := .default, initialized := true } 100).run
        [(0, .connect), (0, .connect), (1, .opened 1), (2, .opened 0)]).active? = some 1 ∧
      SingleLive ((new { settings := .default, initialized := true } 100).run
        [(0, .connect), (0, .connect), (1, .opened 1), (2, .opened 0)]) :=
  ⟨⟨rfl, rfl⟩, by decide, single_live ⟨rfl, rfl⟩ 100 _⟩

end Interchange.Client
