import Interchange.Client.Interleaving
import Interchange.Proofs.Client.Reconnecting

/-!
# When a disconnect wins

Two steps make a disconnect: it asks the controller, and it takes the current connection out. Two
steps bring a connection in: its attempt asks the controller, and makes it the current one. The
steps of several parties can come in any order that keeps the order of each. A disconnect wins if
after it, as long as nobody asks for a connection, no connection is ever in use again.

`disconnect_wins_iff` says when it does: when no attempt stands between its two steps with a
connection that can be sent to. `disconnect_loses` is an order of steps in which it does not. Where
the steps between two waits are carried out together, no attempt ever stands there, and
`isDown_of_disconnect` says that every disconnect wins.
-/

namespace Interchange.Client

variable {c d : Client} {m n id i now : Nat} {stage : Stage}

/-! ## Attempts and the connections in their hands -/

theorem stage?_eq_some : c.stage? n = some stage ↔
    ∃ number origin, Numbered.get? n c.attempts = some ⟨number, origin, stage⟩ := by
  unfold stage?
  constructor
  · intro h
    obtain ⟨⟨number, origin, _⟩, ha, rfl⟩ := Option.map_eq_some_iff.1 h
    exact ⟨number, origin, ha⟩
  · rintro ⟨number, origin, ha⟩
    rw [ha]
    rfl

theorem stage?_of_opening? {a : Attempt} (h : c.opening? n = some a) :
    c.stage? n = some .opening := by
  obtain ⟨hget, hopen⟩ := get?_of_opening? h
  rw [stage?, hget, Option.map_some, hopen]

theorem stage?_of_attempts (h : d.attempts = c.attempts) (n : Nat) : d.stage? n = c.stage? n := by
  rw [stage?, stage?, h]

theorem stage?_updateAttempt (c : Client) (m n : Nat) (stage : Stage) :
    (c.updateAttempt n stage).stage? m =
      if m = n then (c.stage? n).map fun _ => stage else c.stage? m := by
  unfold stage?
  rw [get?_updateAttempt]
  split
  · rw [Option.map_map, Option.map_map]
    rfl
  · rfl

/-- An attempt that begins changes no other. -/
theorem stage?_beginAttempt (c : Client) (origin : Origin) (m : Nat) :
    (c.beginAttempt origin).stage? m = (c.stage? m).or
      (if c.attempts.length = m then some .opening else none) := by
  unfold stage? beginAttempt
  rw [Numbered.get?_append, Numbered.get?_cons]
  have hnum : Numbered.number ({ number := c.attempts.length, origin } : Attempt) =
    c.attempts.length := rfl
  rw [hnum]
  cases Numbered.get? m c.attempts with
  | some a => rfl
  | none => split <;> rfl

/-- An attempt has a connection that is not used yet. -/
def Holds (c : Client) (n id : Nat) : Prop :=
  c.stage? n = some (.attached id) ∨ c.stage? n = some (.approved id)

/-- An attempt at a stage has no connection that is not used yet. -/
def Stage.isIdle : Stage → Bool
  | .attached _ => false
  | .approved _ => false
  | _ => true

namespace Holds

theorem eq (h : c.Holds n id) (h' : c.Holds n i) : id = i := by
  rcases h with h | h <;> rcases h' with h' | h' <;> cases h.symm.trans h' <;> rfl

theorem congr (h : ∀ m, d.stage? m = c.stage? m) : d.Holds n id ↔ c.Holds n id := by
  unfold Holds
  rw [h]

theorem not_of_idle (h : c.stage? n = some stage) (hs : stage.isIdle = true) : ¬ c.Holds n id := by
  rintro (ha | ha) <;> cases h.symm.trans ha <;> cases hs

/-- An attempt that goes on without a connection has none, and the others keep theirs. -/
theorem updateAttempt (hs : stage.isIdle = true) :
    (c.updateAttempt n stage).Holds m id ↔ m ≠ n ∧ c.Holds m id := by
  unfold Holds
  rw [stage?_updateAttempt]
  split
  · next h =>
    constructor
    · rintro (ha | ha) <;> obtain ⟨-, -, rfl⟩ := Option.map_eq_some_iff.1 ha <;> cases hs
    · exact fun hm => absurd h hm.1
  · next h => exact (and_iff_right h).symm

/-- An attempt that begins has no connection. -/
theorem beginAttempt (c : Client) (origin : Origin) :
    (c.beginAttempt origin).Holds m id ↔ c.Holds m id := by
  unfold Holds
  rw [stage?_beginAttempt]
  cases c.stage? m with
  | some s => rfl
  | none => split <;> simp

end Holds

/-- What holds of the connections in the hands of attempts. -/
structure Parted (c : Client) : Prop where
  /-- Every connection is the current one, or in the hands of an attempt, or told to close. -/
  kept : Kept (fun id => ∃ n, c.Holds n id) c
  /-- What is in the hands of an attempt is there. -/
  present : ∀ n id, c.Holds n id → c.connector.state? id ≠ none
  /-- It is not the current connection. -/
  apart : ∀ n id, c.Holds n id → c.current ≠ some id
  /-- It is in the hands of no other attempt. -/
  unique : ∀ m n id, c.Holds m id → c.Holds n id → m = n

namespace Parted

theorem new {k : Connector} (hk : k.IsNew) (interval : Nat) : Parted (.new k interval) where
  kept := Kept.new hk interval
  present _ _ h := by rcases h with h | h <;> cases h
  apart _ _ h := by rcases h with h | h <;> cases h
  unique _ _ _ h := by rcases h with h | h <;> cases h

/-- A step that moves no connection from hand to hand. -/
theorem of_holds (h : Parted c) (hk : Kept (fun id => ∃ n, c.Holds n id) d)
    (hh : ∀ m id, d.Holds m id ↔ c.Holds m id)
    (hs : ∀ id, c.connector.state? id ≠ none → d.connector.state? id ≠ none)
    (hc : ∀ id, d.current = some id → c.current = some id) : Parted d where
  kept := hk.mono fun id ⟨n, hn⟩ => ⟨n, (hh n id).2 hn⟩
  present n id hn := hs id (h.present n id ((hh n id).1 hn))
  apart n id hn hid := h.apart n id ((hh n id).1 hn) (hc id hid)
  unique m n id hm hn := h.unique m n id ((hh m id).1 hm) ((hh n id).1 hn)

theorem of_same (h : Parted c) (hs : SameSlot c d) (hh : ∀ m id, d.Holds m id ↔ c.Holds m id) :
    Parted d :=
  h.of_holds (h.kept.of_same hs) hh (fun _ hid => hs.connector ▸ hid)
    fun _ hid => hs.current ▸ hid

/-- An attempt lets go of its connection, be it as the current one. -/
theorem letGo (h : Parted c) (hn : c.Holds n i)
    (hk : Kept (fun id => (∃ m, c.Holds m id) ∧ id ≠ i) d)
    (hh : ∀ m id, d.Holds m id ↔ m ≠ n ∧ c.Holds m id)
    (hs : ∀ id, c.connector.state? id ≠ none → d.connector.state? id ≠ none)
    (hc : d.current = c.current ∨ d.current = some i) : Parted d where
  kept := by
    refine hk.mono fun id hid => ?_
    obtain ⟨⟨m, hm⟩, hne⟩ := hid
    exact ⟨m, (hh m id).2 ⟨fun he => hne (hm.eq (he ▸ hn)), hm⟩⟩
  present m id hm := hs id (h.present m id ((hh m id).1 hm).2)
  apart m id hm hid := by
    obtain ⟨hne, hm⟩ := (hh m id).1 hm
    rcases hc with hc | hc
    · exact h.apart m id hm (hc ▸ hid)
    · cases hc.symm.trans hid
      exact hne (h.unique m n i hm hn)
  unique m m' id hm hm' := h.unique m m' id ((hh m id).1 hm).2 ((hh m' id).1 hm').2

theorem request (h : Parted c) : Parted c.request := by
  refine h.of_same (SameSlot.request c) fun m id => ?_
  refine (Holds.beginAttempt _ .asked).trans (Holds.congr fun m => stage?_of_attempts ?_ m)
  unfold ensureLoop
  split <;> rfl

/-- An attempt whose socket is open has a connection that nobody had. -/
theorem attach (h : Parted c) (hn : c.stage? n = some .opening) (now : Nat) :
    Parted (c.attach n now) := by
  have hsound := h.kept.sound
  have hfresh : c.connector.state? c.connector.nextId = none := by
    rw [Connector.state?, Connector.connection?_nextId hsound.numbered]
    rfl
  have hidle (i : Nat) : ¬ c.Holds n i := Holds.not_of_idle hn rfl
  have hh (m id : Nat) : (c.attach n now).Holds m id ↔
      m = n ∧ id = c.connector.nextId ∨ c.Holds m id := by
    have hstage : (c.attach n now).stage? m =
        if m = n then some (.attached c.connector.nextId) else c.stage? m := by
      have hu := stage?_updateAttempt { c with connector := c.connector.openConnection now } m n
        (.attached c.connector.nextId)
      have hc : ({ c with connector := c.connector.openConnection now } : Client).stage? n =
        some .opening := hn
      rw [hc] at hu
      exact hu
    unfold Holds
    rw [hstage]
    by_cases hm : m = n
    · subst hm
      simp [hn, eq_comm]
    · simp [hm]
  refine ⟨(h.kept.attach n now).mono fun id hid => ?_, fun m id hm => ?_, fun m id hm => ?_,
    fun m m' id hm hm' => ?_⟩
  · rcases hid with ⟨m, hm⟩ | hid
    · exact ⟨m, (hh m id).2 (.inr hm)⟩
    · exact ⟨n, (hh n id).2 (.inl ⟨rfl, hid⟩)⟩
  · rw [state?_attach hsound]
    split
    · exact Option.some_ne_none _
    · next hne => exact h.present m id (((hh m id).1 hm).resolve_left fun ho => hne ho.2)
  · rcases (hh m id).1 hm with ⟨-, rfl⟩ | hm
    · exact fun hcur => h.kept.present _ hcur hfresh
    · exact h.apart m id hm
  · rcases (hh m id).1 hm, (hh m' id).1 hm' with ⟨⟨hn₁, hid₁⟩ | h₁, ⟨hn₂, hid₂⟩ | h₂⟩
    · exact hn₁.trans hn₂.symm
    · exact absurd (hid₁ ▸ hfresh) (h.present m' id h₂)
    · exact absurd (hid₂ ▸ hfresh) (h.present m id h₁)
    · exact h.unique m m' id h₁ h₂

/-- An attempt whose connection may be used keeps it, else it lets go of it. -/
theorem approve (h : Parted c) (hn : c.stage? n = some (.attached id)) :
    Parted (c.approve n id) := by
  cases hd : c.reconnect.disconnecting with
  | false =>
    refine h.of_same (SameSlot.approve hd n id) fun m i => ?_
    have hstage : (c.approve n id).stage? m =
        if m = n then some (.approved id) else c.stage? m := by
      rw [approve_of_free hd, stage?_updateAttempt]
      change (if m = n then (c.stage? n).map _ else c.stage? m) = _
      rw [hn]
      rfl
    unfold Holds
    rw [hstage]
    by_cases hm : m = n
    · subst hm
      simp [hn]
    · simp [hm]
  | true =>
    have hslot := SameSlot.approve_closing hd n id
    refine h.letGo (n := n) (.inl hn) (h.kept.refuse hd n id) (fun m i => ?_) (fun i hi => ?_)
      (.inl hslot.current)
    · rw [approve_of_disconnecting hd]
      exact Holds.updateAttempt rfl
    · rw [hslot.connector]
      exact (Connector.Changes.advances (.single (.close ..))).state?_ne_none hi

/-- An attempt makes its connection the current one or lets go of it. -/
theorem install (h : Parted c) (hn : c.stage? n = some (.approved id)) :
    Parted (c.install n id) := by
  have hid : c.connector.state? id ≠ none := h.present n id (.inr hn)
  obtain ⟨i, hi⟩ := c.attempts_install n id
  refine h.letGo (n := n) (.inr hn) (h.kept.install n hid) (fun m j => ?_)
    (fun j hj => (c.changes_install n id).advances.state?_ne_none hj) ?_
  · exact (Holds.congr (stage?_of_attempts hi)).trans (Holds.updateAttempt rfl)
  · cases hact : c.active? with
    | some existing =>
      rw [install_of_some hact]
      exact .inl rfl
    | none =>
      rw [install_of_none hact]
      exact .inr rfl

/-- An attempt that has no connection goes on without one. -/
theorem updateAttempt_of_idle {old : Stage} (hn : c.stage? n = some old) (ho : old.isIdle = true)
    (hs : stage.isIdle = true) : (c.updateAttempt n stage).Holds m id ↔ c.Holds m id := by
  rw [Holds.updateAttempt hs]
  refine ⟨And.right, fun hm => ⟨?_, hm⟩⟩
  rintro rfl
  exact Holds.not_of_idle hn ho hm

theorem loopWakes (h : Parted c) (now : Nat) : Parted (c.step now .loopWakes) := by
  refine h.of_same (SameSlot.loopWakes c now) fun m id => Holds.congr (stage?_of_attempts ?_)
  simp only [step]
  split
  · exact attempts_waitInLoop ..
  · rfl
  · rfl

theorem loopRises (h : Parted c) (now : Nat) : Parted (c.step now .loopRises) := by
  refine h.of_same (SameSlot.loopRises c now) fun m id => ?_
  simp only [step]
  split
  · split
    · split
      · exact Holds.beginAttempt _ .loop
      · exact Holds.congr (stage?_of_attempts (attempts_waitInLoop ..))
    · rfl
  · rfl

/-- **No step confuses the connections** in the hands of attempts. -/
theorem perform (h : Parted c) (now : Nat) (p : Part) : Parted (c.perform now p) := by
  cases p with
  | request => exact h.request
  | attach n =>
    simp only [Client.perform]
    split
    · next a ha => exact h.attach (stage?_of_opening? ha) now
    · exact h
  | refuse n text =>
    simp only [Client.perform]
    split
    · next a ha =>
      exact h.of_same (SameSlot.updateAttempt ..) fun m id =>
        updateAttempt_of_idle (stage?_of_opening? ha) rfl rfl
    · exact h
  | approve n =>
    simp only [Client.perform]
    split
    · next number origin id ha => exact h.approve (stage?_eq_some.2 ⟨number, origin, ha⟩)
    · exact h
  | install n =>
    simp only [Client.perform]
    split
    · next number origin id ha =>
      refine (h.install (stage?_eq_some.2 ⟨number, origin, ha⟩)).of_same
        (SameSlot.settleLoop ..) fun m id => Holds.congr (stage?_of_attempts ?_)
      exact attempts_settleLoop ..
    · exact h
  | giveUp n =>
    simp only [Client.perform]
    split
    · next number origin f ha =>
      refine h.of_same (SameSlot.giveUp ..) fun m id => ?_
      refine (Holds.congr (stage?_of_attempts (attempts_giveUp ..))).trans ?_
      exact updateAttempt_of_idle (stage?_eq_some.2 ⟨number, origin, ha⟩) rfl rfl
    · exact h
  | release id =>
    simp only [Client.perform]
    split
    · next hg =>
      have hk : Kept (fun i => ∃ n, c.Holds n i) (c.unwatch id) :=
        ⟨h.kept.sound, h.kept.present, h.kept.others⟩
      refine h.of_holds (hk.release hg) (fun m i => Holds.congr (stage?_of_attempts ?_))
        (fun i hi => ?_) fun i hi => ?_
      · exact attempts_release ..
      · rwa [connector_release]
      · unfold Client.release at hi
        split at hi
        · cases hi
        · exact hi
    · exact h
  | schedule =>
    refine h.of_same (SameSlot.scheduleAndWake c now) fun m id =>
      Holds.congr (stage?_of_attempts ?_)
    exact attempts_scheduleAndWake ..
  | loop => exact (h.loopWakes now).loopRises now
  | requestDisconnect => exact h.of_same ⟨rfl, rfl, rfl⟩ fun _ _ => .rfl
  | dropCurrent =>
    refine h.of_holds h.kept.dropCurrent (fun m i => Holds.congr (stage?_of_attempts ?_))
      (fun i hi => c.changes_dropCurrent.advances.state?_ne_none hi) fun i hi => ?_
    · exact attempts_dropCurrent c
    · cases c.current_dropCurrent.symm.trans hi
  | connection id e =>
    have hk := Connector.changes_step c.connector id now e
    exact h.of_holds (h.kept.changes hk) (fun _ _ => .rfl)
      (fun i hi => hk.advances.state?_ne_none hi) fun _ hi => hi

end Parted

/-! ## Interleavings -/

/-- Carry out indivisible steps one after the other, each at its time. -/
def interleave (c : Client) (ps : List (Nat × Part)) : Client :=
  ps.foldl (fun c p => c.perform p.1 p.2) c

theorem interleave_append (c : Client) (ps qs : List (Nat × Part)) :
    c.interleave (ps ++ qs) = (c.interleave ps).interleave qs :=
  List.foldl_append

theorem Parted.interleave (h : Parted c) (ps : List (Nat × Part)) : Parted (c.interleave ps) := by
  induction ps generalizing c with
  | nil => exact h
  | cons p ps ih => exact ih (h.perform p.1 p.2)

theorem IsClosed.advances (h : c.IsClosed id)
    (ha : Connector.Advances c.connector d.connector) : d.IsClosed id := by
  obtain ⟨s, hs, hcl⟩ := h
  obtain ⟨s', -, hs', hrank, -⟩ := ha.forward hs
  exact ⟨s', hs', Connection.State.isClosing_of_rank_le hcl hrank⟩

/-- A connection that is closed cannot be sent to. -/
theorem IsClosed.not_active (h : c.IsClosed id) : ¬ c.isActive id = true := by
  obtain ⟨s, hs, hcl⟩ := h
  intro ha
  cases hs.symm.trans (isActive_iff.1 ha)
  cases hcl

/-- What an indivisible step does to the connections is one thing after the other. -/
theorem advances_perform (c : Client) (now : Nat) (p : Part) :
    Connector.Advances c.connector (c.perform now p).connector := by
  cases p with
  | request => exact (SameSlot.request c).advances
  | attach n =>
    simp only [perform]
    split
    · exact .single (.openConnection c.connector now)
    · exact .refl
  | refuse n text =>
    simp only [perform]
    split <;> exact .refl
  | approve n =>
    simp only [perform]
    split
    · next id _ =>
      cases hd : c.reconnect.disconnecting with
      | false => exact (SameSlot.approve hd n id).advances
      | true =>
        rw [(SameSlot.approve_closing hd n id).connector]
        exact .single (.change (.close ..))
    · exact .refl
  | install n =>
    simp only [perform]
    split
    · rw [(SameSlot.settleLoop ..).connector]
      exact (changes_install ..).advances
    · exact .refl
  | giveUp n =>
    simp only [perform]
    split
    · exact (SameSlot.giveUp ..).advances
    · exact .refl
  | release id =>
    simp only [perform]
    split
    · rw [connector_release]
      exact .refl
    · exact .refl
  | schedule => exact (SameSlot.scheduleAndWake c now).advances
  | loop => exact ((SameSlot.loopWakes c now).trans (SameSlot.loopRises _ now)).advances
  | requestDisconnect => exact .refl
  | dropCurrent => exact c.changes_dropCurrent.advances
  | connection id e => exact Connector.advances_step ..

/-- A step that lifts no disconnect, approves no connection, and makes none the current one that was
not approved. -/
structure Barred (c d : Client) : Prop where
  refused : d.reconnect.disconnecting = c.reconnect.disconnecting
  approved : ∀ n id, d.stage? n = some (.approved id) → c.stage? n = some (.approved id)
  current : ∀ id, d.current = some id →
    c.current = some id ∨ ∃ n, c.stage? n = some (.approved id)

namespace Barred

theorem refl (c : Client) : Barred c c := ⟨rfl, fun _ _ h => h, fun _ h => .inl h⟩

theorem trans {c' : Client} (h₁ : Barred c c') (h₂ : Barred c' d) : Barred c d where
  refused := h₂.refused.trans h₁.refused
  approved n id hn := h₁.approved n id (h₂.approved n id hn)
  current id hid := by
    rcases h₂.current id hid with hcur | ⟨n, hn⟩
    · exact h₁.current id hcur
    · exact .inr ⟨n, h₁.approved n id hn⟩

/-- Steps of which only one changes the current connection. -/
theorem of_same (hs : SameSlot c d) (hr : d.reconnect.disconnecting = c.reconnect.disconnecting)
    (ha : ∀ n id, d.stage? n = some (.approved id) → c.stage? n = some (.approved id)) :
    Barred c d :=
  ⟨hr, ha, fun _ h => .inl (hs.current ▸ h)⟩

theorem approved_updateAttempt
    (h : (c.updateAttempt n stage).stage? m = some (.approved id)) (hs : ∀ i, stage ≠ .approved i) :
    c.stage? m = some (.approved id) := by
  rw [stage?_updateAttempt] at h
  split at h
  · obtain ⟨-, -, ha⟩ := Option.map_eq_some_iff.1 h
    exact absurd ha (hs id)
  · exact h

theorem install (hn : c.stage? n = some (.approved id)) : Barred c (c.install n id) := by
  obtain ⟨i, hi⟩ := c.attempts_install n id
  refine ⟨?_, fun m j hm => ?_, fun j hj => ?_⟩
  · unfold Client.install
    split <;> rfl
  · rw [stage?_of_attempts hi] at hm
    exact approved_updateAttempt hm (by simp)
  · cases hact : c.active? with
    | some existing =>
      rw [install_of_some hact] at hj
      exact .inl hj
    | none =>
      rw [install_of_none hact] at hj
      cases hj
      exact .inr ⟨n, hn⟩

theorem waitInLoop (c : Client) (now : Nat) : Barred c (c.waitInLoop now) :=
  of_same (SameSlot.waitInLoop c now) (congrArg _ (reconnect_waitInLoop ..)) fun m _ hm =>
    (stage?_of_attempts (attempts_waitInLoop ..) m).symm.trans hm

theorem loopWakes (c : Client) (now : Nat) : Barred c (c.step now .loopWakes) := by
  simp only [step]
  split
  · exact waitInLoop c now
  · exact ⟨rfl, fun _ _ h => h, fun _ h => .inl h⟩
  · exact refl c

theorem beginAttempt (c : Client) (origin : Origin) : Barred c (c.beginAttempt origin) := by
  refine ⟨rfl, fun m id hm => ?_, fun _ h => .inl h⟩
  rw [stage?_beginAttempt] at hm
  cases hs : c.stage? m with
  | some s => rwa [hs] at hm
  | none =>
    rw [hs, Option.none_or] at hm
    split at hm <;> cases hm

theorem loopRises (c : Client) (now : Nat) : Barred c (c.step now .loopRises) := by
  simp only [step]
  split
  · split
    · have hr := c.reconnect.disconnecting_beginAttempt
      split
      · next reconnect hb =>
        rw [hb] at hr
        have h : Barred c { c with reconnect, loop := .attempting } :=
          ⟨hr, fun _ _ h => h, fun _ h => .inl h⟩
        exact h.trans (beginAttempt _ .loop)
      · next reconnect hb =>
        rw [hb] at hr
        have h : Barred c { c with reconnect } := ⟨hr, fun _ _ h => h, fun _ h => .inl h⟩
        exact h.trans (waitInLoop _ now)
    · exact refl c
  · exact refl c

/-- **While a disconnect is in effect**, nothing but a new request lifts it. -/
theorem perform (hd : c.reconnect.disconnecting = true) (now : Nat) {p : Part} (hp : p ≠ .request) :
    Barred c (c.perform now p) := by
  cases p with
  | request => exact absurd rfl hp
  | attach n =>
    simp only [Client.perform]
    split
    · exact ⟨rfl, fun m id hm => approved_updateAttempt hm (by simp), fun _ h => .inl h⟩
    · exact refl c
  | refuse n text =>
    simp only [Client.perform]
    split
    · exact ⟨rfl, fun m id hm => approved_updateAttempt hm (by simp), fun _ h => .inl h⟩
    · exact refl c
  | approve n =>
    simp only [Client.perform]
    split
    · next id _ =>
      rw [approve_of_disconnecting hd]
      exact ⟨rfl, fun m id hm => approved_updateAttempt hm (by simp), fun _ h => .inl h⟩
    · exact refl c
  | install n =>
    simp only [Client.perform]
    split
    · next number origin id ha =>
      have h := install (stage?_eq_some.2 ⟨number, origin, ha⟩)
      cases origin with
      | asked => exact h
      | loop => exact h.trans (waitInLoop ..)
    · exact refl c
  | giveUp n =>
    simp only [Client.perform]
    split
    · refine of_same (SameSlot.giveUp ..) ?_ fun m id hm => ?_
      · rw [reconnect_giveUp, Reconnect.disconnecting_onClosed]
      · rw [stage?_of_attempts (attempts_giveUp ..)] at hm
        exact approved_updateAttempt hm (by simp)
    · exact refl c
  | release id =>
    simp only [Client.perform]
    split
    · refine ⟨?_, fun m id hm => ?_, fun i hi => ?_⟩
      · unfold Client.release
        split <;> rfl
      · rwa [stage?_of_attempts (attempts_release ..)] at hm
      · unfold Client.release at hi
        split at hi
        · cases hi
        · exact .inl hi
    · exact refl c
  | schedule =>
    refine of_same (SameSlot.scheduleAndWake c now) ?_ fun m id hm => ?_
    · exact (congrArg _ (reconnect_scheduleAndWake ..)).trans (Reconnect.disconnecting_onClosed _)
    · exact (stage?_of_attempts (attempts_scheduleAndWake ..) m).symm.trans hm
  | loop => exact (loopWakes c now).trans (loopRises _ now)
  | requestDisconnect => exact ⟨hd.symm, fun _ _ h => h, fun _ h => .inl h⟩
  | dropCurrent =>
    refine ⟨?_, fun m id hm => ?_, fun i hi => ?_⟩
    · simp only [Client.perform, Client.dropCurrent]
      split <;> rfl
    · exact (stage?_of_attempts (attempts_dropCurrent c) m).symm.trans hm
    · cases c.current_dropCurrent.symm.trans hi
  | connection id e => exact ⟨rfl, fun _ _ h => h, fun _ h => .inl h⟩

end Barred

/-- While a disconnect is in effect: no attempt has an approved connection that can be sent to and,
once the current connection was taken, neither has the client. -/
structure Disconnecting (taken : Prop) (c : Client) : Prop where
  parted : Parted c
  /-- A disconnect is in effect. -/
  refused : c.reconnect.disconnecting = true
  /-- What was approved is closed. -/
  approved : ∀ n id, c.stage? n = some (.approved id) → c.IsClosed id
  /-- What is current is closed. -/
  current : taken → ∀ id, c.current = some id → c.IsClosed id

namespace Disconnecting

variable {taken : Prop}

/-- Nothing but a new request changes anything about it. -/
theorem perform (h : Disconnecting taken c) (now : Nat) {p : Part} (hp : p ≠ .request) :
    Disconnecting taken (c.perform now p) := by
  have hb := Barred.perform h.refused now hp
  have ha := c.advances_perform now p
  refine ⟨h.parted.perform now p, hb.refused.trans h.refused, fun n id hn => ?_,
    fun ht id hid => ?_⟩
  · exact (h.approved n id (hb.approved n id hn)).advances ha
  · rcases hb.current id hid with hcur | ⟨n, hn⟩
    · exact (h.current ht id hcur).advances ha
    · exact (h.approved n id hn).advances ha

theorem interleave (h : Disconnecting taken c) {ps : List (Nat × Part)}
    (hps : ∀ p ∈ ps, p.2 ≠ .request) : Disconnecting taken (c.interleave ps) := by
  induction ps generalizing c with
  | nil => exact h
  | cons p ps ih =>
    rw [List.forall_mem_cons] at hps
    exact ih (h.perform p.1 hps.1) hps.2

/-- After the current connection was taken, there is none. -/
theorem dropCurrent (h : Disconnecting False c) (now : Nat) :
    Disconnecting True (c.perform now .dropCurrent) := by
  have hd := h.perform now (p := .dropCurrent) (by simp)
  exact ⟨hd.parted, hd.refused, hd.approved, fun _ id hid => by
    cases c.current_dropCurrent.symm.trans hid⟩

end Disconnecting

/-! ## When it wins -/

/-- A client that was disconnected has no connection in use. -/
structure IsShut (d : Client) : Prop where
  /-- The current connection, if there is one, cannot be sent to. -/
  active : d.active? = none
  /-- Only what an attempt has opened and not asked about can be sent to. -/
  others : ∀ id, d.isActive id = true → ∃ n, d.stage? n = some (.attached id)
  /-- It is closed as soon as the attempt asks. -/
  asks : ∀ n id now, d.stage? n = some (.attached id) → (d.perform now (.approve n)).IsClosed id

/-- Whatever happens between the two steps of a disconnect and after them, if it is not asking for a
connection: no connection is in use once both were carried out. -/
def DisconnectWins (c : Client) : Prop :=
  ∀ now later ps qs, (∀ p ∈ ps ++ qs, p.2 ≠ .request) →
    (c.interleave ((now, .requestDisconnect) :: ps ++ (later, .dropCurrent) :: qs)).IsShut

theorem perform_approve (h : c.stage? n = some (.attached id)) (now : Nat) :
    c.perform now (.approve n) = c.approve n id := by
  obtain ⟨number, origin, ha⟩ := stage?_eq_some.1 h
  simp only [perform, ha]

/-- Where an attempt is about to make its connection the current one, it does. -/
theorem active?_perform_install (h : c.stage? n = some (.approved id)) (hid : c.isActive id = true)
    (hc : c.current = none) (now : Nat) : (c.perform now (.install n)).active? = some id := by
  obtain ⟨number, origin, ha⟩ := stage?_eq_some.1 h
  have hact : c.active? = none := by rw [active?, hc, Option.filter_none]
  have hdrop : c.dropCurrent = c := by rw [dropCurrent, hc]
  simp only [perform, ha]
  rw [(SameSlot.settleLoop ..).active?, install_of_none hact, hdrop]
  exact active?_eq_some.2 ⟨rfl, hid⟩

/-- A connection that cannot be sent to is closed. -/
theorem Kept.isClosed_of_not_active {held : Nat → Prop} (h : Kept held c)
    (hid : c.connector.state? id ≠ none) (hn : c.isActive id = false) : c.IsClosed id := by
  obtain ⟨s, hs⟩ := Option.ne_none_iff_exists'.1 hid
  refine ⟨s, hs, h.sound.isClosing_of_ne_connected hs ?_⟩
  rintro rfl
  rw [isActive_iff.2 hs] at hn
  cases hn

/-- A disconnect that takes another connection than the one of an attempt leaves that one alone. -/
theorem Parted.isActive_dropCurrent (h : Parted c) (hn : c.Holds n id)
    (hid : c.isActive id = true) : c.dropCurrent.isActive id = true := by
  unfold Client.dropCurrent
  split
  · next i hi =>
    have hne : id ≠ i := by
      rintro rfl
      exact h.apart n id hn hi
    refine isActive_iff.2 ((Connector.state?_close ..).trans ?_)
    rw [if_neg hne]
    exact isActive_iff.1 hid
  · exact hid

/-- Where no approved connection can be sent to, a disconnect takes effect. -/
theorem Disconnecting.of_request (h : Parted c)
    (ha : ∀ n id, c.stage? n = some (.approved id) → c.isActive id = false) (now : Nat) :
    Disconnecting False (c.perform now .requestDisconnect) where
  parted := h.perform now .requestDisconnect
  refused := rfl
  approved n id hn := h.kept.isClosed_of_not_active (h.present n id (.inr hn)) (ha n id hn)
  current := False.elim

theorem Disconnecting.isShut (h : Disconnecting True c) : c.IsShut where
  active := by
    refine Option.eq_none_iff_forall_ne_some.2 fun id hid => ?_
    obtain ⟨hcur, hact⟩ := active?_eq_some.1 hid
    exact (h.current trivial id hcur).not_active hact
  others id hid := by
    rcases h.parted.kept.others id _ (isActive_iff.1 hid) with hcur | ⟨n, hn | hn⟩ | hcl
    · exact absurd hid (h.current trivial id hcur).not_active
    · exact ⟨n, hn⟩
    · exact absurd hid (h.approved n id hn).not_active
    · cases hcl
  asks n id now hn := by
    have hid : c.connector.state? id ≠ none := h.parted.present n id (.inl hn)
    obtain ⟨s, hs⟩ := Option.ne_none_iff_exists'.1 hid
    rw [perform_approve hn, IsClosed, (SameSlot.approve_closing h.refused n id).connector]
    refine ⟨s.closed, (Connector.state?_close ..).trans ?_, s.isClosing_closed⟩
    rw [if_pos rfl, hs]
    rfl

/-- Where a disconnect wins, no approved connection can be sent to: the attempt could go on right
after the disconnect has taken the current one. -/
theorem Parted.isActive_eq_false (h : Parted c) (hwins : c.DisconnectWins)
    (hn : c.stage? n = some (.approved id)) : c.isActive id = false := by
  refine Bool.eq_false_iff.2 fun hid => ?_
  have hreq := h.perform 0 .requestDisconnect
  have hact : (c.requestDisconnect.dropCurrent.perform 0 (.install n)).active? = some id := by
    refine active?_perform_install ?_ (hreq.isActive_dropCurrent (.inr hn) hid) ?_ 0
    · exact (stage?_of_attempts (attempts_dropCurrent _) n).trans hn
    · exact current_dropCurrent _
  have hshut := hwins 0 0 [] [(0, .install n)] (by simp)
  cases hact.symm.trans hshut.active

/-- Where no approved connection can be sent to, a disconnect wins. -/
theorem Parted.disconnectWins (h : Parted c)
    (ha : ∀ n id, c.stage? n = some (.approved id) → c.isActive id = false) :
    c.DisconnectWins := by
  intro now later ps qs hreq
  have hps : ∀ p ∈ ps, p.2 ≠ .request := fun p hp => hreq p (List.mem_append_left _ hp)
  have hqs : ∀ p ∈ qs, p.2 ≠ .request := fun p hp => hreq p (List.mem_append_right _ hp)
  rw [interleave_append]
  have hd := (Disconnecting.of_request h ha now).interleave hps
  exact ((hd.dropCurrent later).interleave hqs).isShut

/-- **A disconnect wins** over everything that goes on if and only if, when it asks the controller,
no attempt has been let to use a connection that can be sent to and has not made it the current
one. -/
theorem disconnect_wins_iff {k : Connector} (hk : k.IsNew) (interval : Nat)
    (ps : List (Nat × Part)) :
    ((new k interval).interleave ps).DisconnectWins ↔
      ∀ n id, ((new k interval).interleave ps).stage? n = some (.approved id) →
        ((new k interval).interleave ps).isActive id = false := by
  have h := (Parted.new hk interval).interleave ps
  exact ⟨fun hwins _ _ hn => h.isActive_eq_false hwins hn, h.disconnectWins⟩

/-- A disconnect wins over an attempt that has a connection and has not asked the controller. -/
theorem disconnect_wins_of_attached :
    ({ settings := .default, initialized := true } : Connector).IsNew ∧
      ((new { settings := .default, initialized := true } 100).interleave
        [(0, .request), (1, .attach 0)]).DisconnectWins :=
  ⟨⟨rfl, rfl⟩, (disconnect_wins_iff ⟨rfl, rfl⟩ 100 _).2 fun n id h => by
    rcases n with _ | n <;> cases h⟩

/-- An attempt asks the controller, then a disconnect does and finds no current connection, then the
attempt makes its connection the current one: it is in use although nobody asked again. -/
theorem disconnect_loses :
    ({ settings := .default, initialized := true } : Connector).IsNew ∧
      ((new { settings := .default, initialized := true } 100).interleave
        [(0, .request), (1, .attach 0), (2, .approve 0), (3, .requestDisconnect), (4, .dropCurrent),
          (5, .install 0)]).active? = some 1 ∧
      ¬ ((new { settings := .default, initialized := true } 100).interleave
        [(0, .request), (1, .attach 0), (2, .approve 0)]).DisconnectWins := by
  have hact : ((new { settings := .default, initialized := true } 100).interleave
      [(0, .request), (1, .attach 0), (2, .approve 0), (3, .requestDisconnect), (4, .dropCurrent),
        (5, .install 0)]).active? = some 1 := by decide
  refine ⟨⟨rfl, rfl⟩, hact, fun hwins => ?_⟩
  cases hact.symm.trans (hwins 3 4 [] [(5, .install 0)] (by simp)).active

/-! ## Where attempts do not wait -/

/-- A client that was disconnected and goes on from wait to wait. -/
structure Parked (c : Client) : Prop where
  /-- A disconnect is in effect. -/
  refused : c.reconnect.disconnecting = true
  /-- There is no current connection. -/
  empty : c.current = none

namespace Parked

theorem of_same (h : Parked c) (hs : SameSlot c d)
    (hr : d.reconnect.disconnecting = c.reconnect.disconnecting) : Parked d :=
  ⟨hr.trans h.refused, hs.current.trans h.empty⟩

theorem giveUp (h : Parked c) (n now : Nat) (origin : Origin) (f : Fault) :
    Parked (c.giveUp n now origin f) :=
  h.of_same (SameSlot.giveUp ..) (by rw [reconnect_giveUp, Reconnect.disconnecting_onClosed])

theorem scheduleAndWake (h : Parked c) (now : Nat) : Parked (c.scheduleAndWake now) :=
  h.of_same (SameSlot.scheduleAndWake ..)
    (by rw [reconnect_scheduleAndWake, Reconnect.disconnecting_onClosed])

theorem disconnect (c : Client) (now : Nat) : Parked (c.step now .disconnect) where
  refused := by
    simp only [step, dropCurrent]
    split <;> rfl
  empty := c.requestDisconnect.current_dropCurrent

/-- An attempt whose socket is open closes the connection, and nothing else makes one. -/
theorem step (h : Parked c) (now : Nat) {e : Event} (he : e ≠ .connect) :
    Parked (c.step now e) := by
  cases e with
  | connect => exact absurd rfl he
  | opened n =>
    simp only [Client.step]
    split
    · next a ha =>
      have hd : (c.attach n now).reconnect.disconnecting = true := h.refused
      rw [complete_of_disconnecting hd, approve_of_disconnecting hd]
      refine giveUp ?_ a.number now a.origin .connectionClosed
      exact ⟨h.refused, h.empty⟩
    · exact h
  | refused n text =>
    simp only [Client.step]
    split
    · exact h.giveUp ..
    · exact h
  | watcher id =>
    simp only [Client.step]
    have hne : c.current ≠ some id := fun hcur => by cases h.empty.symm.trans hcur
    rw [release_of_ne (c := c.unwatch id) hne]
    split
    · exact ⟨h.refused, h.empty⟩
    · exact h
  | loopWakes => exact h.of_same (SameSlot.loopWakes c now) (Barred.loopWakes c now).refused
  | loopRises => exact h.of_same (SameSlot.loopRises c now) (Barred.loopRises c now).refused
  | disconnect => exact disconnect c now
  | stopLoop => exact ⟨h.refused, h.empty⟩
  | close id => exact ⟨h.refused, h.empty⟩
  | send id m => exact ⟨h.refused, h.empty⟩
  | connection id e => exact ⟨h.refused, h.empty⟩

theorem run (h : Parked c) {es : List (Nat × Event)} (hes : ∀ e ∈ es, e.2 ≠ .connect) :
    Parked (c.run es) := by
  induction es generalizing c with
  | nil => exact h
  | cons e es ih =>
    rw [List.forall_mem_cons] at hes
    exact ih (h.step e.1 hes.1) hes.2

end Parked

/-- A client has no connection in use. -/
structure IsDown (c : Client) : Prop where
  /-- There is no current connection. -/
  empty : c.current = none
  /-- Every connection is going or gone. -/
  closed : ∀ id, c.connector.state? id ≠ none → c.IsClosed id

/-- **Where attempts go on without waiting, a disconnect always wins**: the client has no connection
in use until one is asked for. -/
theorem isDown_of_disconnect {k : Connector} (hk : k.IsNew) (interval now : Nat)
    (es : List (Nat × Event)) {fs : List (Nat × Event)} (hfs : ∀ e ∈ fs, e.2 ≠ .connect) :
    ((((new k interval).run es).step now .disconnect).run fs).IsDown := by
  have hkept := (((Kept.new hk interval).run es).step now .disconnect).run fs
  have hpark := (Parked.disconnect ((new k interval).run es) now).run hfs
  refine ⟨hpark.empty, fun id hid => hkept.isClosed hid fun hcur => ?_⟩
  cases hpark.empty.symm.trans hcur

end Interchange.Client
