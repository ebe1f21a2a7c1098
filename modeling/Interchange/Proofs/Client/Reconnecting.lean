import Interchange.Proofs.Client.Slot

/-!
# No reconnect is lost

When an attempt fails or the current connection is gone, the controller is asked for the next
attempt, and answers that it schedules one or that there is no need to. `reconnect_never_lost` says
that the client never rests on a wrong answer: as long as a connection is wanted, an attempt is
being made, or the current connection is watched, or an attempt is scheduled and the reconnect loop
will come to make it.

`Wired` is the invariant of the loop. It counts the attempts that the loop makes, and an attempt
that has left the opening of its socket behind while the loop has not gone on yet counts as `busy`.
-/

namespace Interchange

namespace Reconnect

variable {r : Reconnect}

/-- An attempt is scheduled only where it will begin. -/
def IsFit (r : Reconnect) : Prop :=
  r.pending = true → r.disconnecting = false → r.phase = .reconnecting

theorem IsFit.onClosed (h : r.IsFit) : r.onClosed.1.IsFit := by
  unfold Reconnect.onClosed
  split
  · exact h
  · exact fun _ _ => rfl

theorem IsFit.of_disconnecting (h : r.disconnecting = true) : r.IsFit := by
  intro _ hd
  cases h.symm.trans hd

theorem disconnecting_onClosed (r : Reconnect) : r.onClosed.1.disconnecting = r.disconnecting := by
  unfold onClosed
  split <;> rfl

/-- Where no disconnect is in effect, an attempt is scheduled after the controller was asked for
one, by this call or another. -/
theorem pending_onClosed (h : r.disconnecting = false) : r.onClosed.1.pending = true := by
  unfold onClosed
  split
  · next hor => simpa [h] using hor
  · rfl

theorem onClosed_eq_self (h : r.onClosed.2 = false) : r.onClosed.1 = r := by
  unfold onClosed at h ⊢
  split
  · rfl
  · next hn =>
    rw [if_neg hn] at h
    cases h

theorem pending_beginAttempt (r : Reconnect) : r.beginAttempt.1.pending = false := by
  unfold beginAttempt
  split <;> rfl

theorem disconnecting_beginAttempt (r : Reconnect) :
    r.beginAttempt.1.disconnecting = r.disconnecting := by
  unfold beginAttempt
  split <;> rfl

/-- What is scheduled begins, unless a disconnect is in effect. -/
theorem IsFit.begins (h : r.IsFit) (hp : r.pending = true) (hd : r.disconnecting = false) :
    r.beginAttempt.2 = true := by
  unfold beginAttempt
  rw [if_pos (by simp [hp, hd, h hp hd])]

end Reconnect

namespace Client

variable {c : Client} {n id now b : Nat} {a : Attempt} {stage : Stage}

/-- Whether an attempt is the loop's and its socket is being opened, as a number. -/
def Attempt.weight (a : Attempt) : Nat := if a.origin = .loop ∧ a.stage = .opening then 1 else 0

/-- Whether an attempt is the loop's, as a number. -/
def Origin.weight : Origin → Nat
  | .asked => 0
  | .loop => 1

/-- How many sockets are being opened for the loop. -/
def loopAttempts (c : Client) : Nat := Numbered.total Attempt.weight c.attempts

/-- The loop sleeps, or there is a wake-up for it. -/
def WillRise (c : Client) : Prop :=
  (∃ till, c.loop = .sleeping till) ∨ c.loop = .woken ∨ c.permit = true

/-- A loop that neither sleeps nor was woken rises by the wake-up that is stored. -/
theorem WillRise.permit (h : c.WillRise) (hs : ∀ till, c.loop ≠ .sleeping till)
    (hw : c.loop ≠ .woken) : c.permit = true := by
  rcases h with ⟨till, hl⟩ | hl | hp
  · exact absurd hl (hs till)
  · exact absurd hl hw
  · exact hp

/-- How the parts of a client hang together. -/
structure Wired (busy : Nat) (c : Client) : Prop where
  /-- The current connection is watched. -/
  watched : ∀ id, c.current = some id → id ∈ c.watched
  /-- An attempt that is scheduled has a loop that will make it. -/
  rises : c.reconnect.pending = true → c.WillRise
  /-- An attempt that is scheduled will begin. -/
  fit : c.reconnect.IsFit
  /-- The loop runs once there was an attempt. -/
  runs : c.attempts ≠ [] → c.loop ≠ .absent
  /-- There is no current connection without an attempt. -/
  begun : c.current ≠ none → c.attempts ≠ []
  /-- The loop makes one attempt while it says so, and else none. -/
  single : c.loopAttempts + busy = if c.loop = .attempting then 1 else 0

/-- As long as a connection is wanted, an attempt is being made, or there is a current connection,
or an attempt is scheduled. -/
def IsCovered (c : Client) : Prop :=
  c.attempts ≠ [] → c.reconnect.disconnecting = false →
    (∃ a ∈ c.attempts, a.stage = .opening) ∨ c.current ≠ none ∨ c.reconnect.pending = true

/-- A client will have a connection, or has one: a socket is being opened, or the current connection
is watched, or an attempt is scheduled, will begin when the loop comes to it, and the loop will come
to it by itself. -/
def HasProspect (c : Client) : Prop :=
  (∃ a ∈ c.attempts, a.stage = .opening) ∨ (∃ id, c.current = some id ∧ id ∈ c.watched) ∨
    c.reconnect.pending = true ∧ c.reconnect.beginAttempt.2 = true ∧ c.loop ≠ .absent ∧ c.WillRise

/-! ## Attempts -/

theorem attempts_updateAttempt_ne_nil (h : c.attempts ≠ []) (n : Nat) (stage : Stage) :
    (c.updateAttempt n stage).attempts ≠ [] := by
  have hl := Numbered.length_modify n (fun a => { a with stage }) c.attempts
  exact List.ne_nil_of_length_pos (hl ▸ List.length_pos_iff.2 h)

theorem get?_of_opening? (h : c.opening? n = some a) :
    Numbered.get? n c.attempts = some a ∧ a.stage = .opening := by
  simpa [opening?, Option.filter_eq_some_iff] using h

theorem attempts_ne_nil_of_opening? (h : c.opening? n = some a) : c.attempts ≠ [] :=
  List.ne_nil_of_mem (Numbered.mem_of_get? (get?_of_opening? h).1)

theorem get?_updateAttempt (c : Client) (m n : Nat) (stage : Stage) :
    Numbered.get? m (c.updateAttempt n stage).attempts =
      if m = n then (Numbered.get? n c.attempts).map fun a => { a with stage }
      else Numbered.get? m c.attempts := by
  have hn : ∀ a : Attempt, Numbered.number a = n → Numbered.number { a with stage } = n :=
    fun _ h => h
  exact Numbered.get?_modify hn c.attempts

/-- An attempt that has gone on opens no socket. -/
theorem opening?_updateAttempt (hs : stage ≠ .opening) :
    (c.updateAttempt n stage).opening? n = none := by
  rw [opening?, get?_updateAttempt, if_pos rfl, Option.filter_eq_none_iff]
  intro a ha
  obtain ⟨a', -, rfl⟩ := Option.map_eq_some_iff.1 ha
  simpa using hs

theorem weight_of_ne {a : Attempt} (h : a.stage ≠ .opening) : a.weight = 0 :=
  if_neg fun hw => h hw.2

theorem weight_of_opening {a : Attempt} (h : a.stage = .opening) : a.weight = a.origin.weight := by
  unfold Attempt.weight Origin.weight
  cases a.origin <;> simp [h]

/-- An attempt that goes on counts no more as one of the loop's. -/
theorem loopAttempts_updateAttempt (ha : c.opening? n = some a) (hs : stage ≠ .opening) :
    (c.updateAttempt n stage).loopAttempts + a.origin.weight = c.loopAttempts := by
  obtain ⟨hget, hopen⟩ := get?_of_opening? ha
  have htotal := Numbered.total_modify Attempt.weight (fun a => { a with stage }) hget
  rw [weight_of_opening hopen, weight_of_ne (a := { a with stage }) hs] at htotal
  exact htotal

/-- An attempt that has gone on goes on without being counted. -/
theorem loopAttempts_updateAttempt_of_none (ha : c.opening? n = none) (hs : stage ≠ .opening) :
    (c.updateAttempt n stage).loopAttempts = c.loopAttempts := by
  cases hget : Numbered.get? n c.attempts with
  | none =>
    unfold loopAttempts updateAttempt
    rw [Numbered.modify_of_get?_eq_none _ hget]
  | some a =>
    have hne : a.stage ≠ .opening := by
      rw [opening?, hget, Option.filter_eq_none_iff] at ha
      simpa using ha a rfl
    have htotal := Numbered.total_modify Attempt.weight (fun a => { a with stage }) hget
    rw [weight_of_ne hne, weight_of_ne (a := { a with stage }) hs] at htotal
    exact htotal

/-! ## What the steps do to the loop -/

section

variable (c) (now)

@[simp] theorem attempts_waitInLoop : (c.waitInLoop now).attempts = c.attempts := by
  unfold waitInLoop
  split <;> rfl

@[simp] theorem reconnect_waitInLoop : (c.waitInLoop now).reconnect = c.reconnect := by
  unfold waitInLoop
  split <;> rfl

theorem loop_waitInLoop : (c.waitInLoop now).loop = .waiting ∨
    ∃ till, (c.waitInLoop now).loop = .sleeping till := by
  unfold waitInLoop
  split
  · exact .inr ⟨_, rfl⟩
  · exact .inl rfl

theorem willRise_waitInLoop (h : c.permit = true) : (c.waitInLoop now).WillRise := by
  unfold waitInLoop
  rw [if_pos h]
  exact .inl ⟨_, rfl⟩

@[simp] theorem attempts_wakeLoop : c.wakeLoop.attempts = c.attempts := by
  unfold wakeLoop
  split <;> rfl

@[simp] theorem reconnect_wakeLoop : c.wakeLoop.reconnect = c.reconnect := by
  unfold wakeLoop
  split <;> rfl

theorem willRise_wakeLoop : c.wakeLoop.WillRise := by
  unfold wakeLoop
  split
  · exact .inr (.inl rfl)
  · exact .inr (.inr rfl)

/-- A wake-up neither starts nor stops the loop, nor does it make or end an attempt. -/
theorem loop_wakeLoop :
    c.wakeLoop.loop = c.loop ∨ c.loop = .waiting ∧ c.wakeLoop.loop = .woken := by
  unfold wakeLoop
  split
  · next h => exact .inr ⟨h, rfl⟩
  · exact .inl rfl

theorem loop_ensureLoop : c.ensureLoop.loop = c.loop ∧ c.loop ≠ .absent ∨
    c.loop = .absent ∧ c.ensureLoop.loop = .starting := by
  unfold ensureLoop
  split
  · next h => exact .inr ⟨h, rfl⟩
  · next h => exact .inl ⟨rfl, h⟩

/-- The client after an attempt was scheduled. -/
def scheduling : Client :=
  { c with reconnect := c.reconnect.onClosed.1, scheduled := some now }

/-- An attempt is scheduled, or nothing changes. -/
theorem schedule_cases :
    c.schedule now = (c.scheduling now, true) ∨ c.schedule now = (c, false) := by
  unfold schedule scheduling
  split
  · next hr => exact .inl (by rw [hr])
  · next r hr =>
    have hself : r = c.reconnect := by
      rw [← Reconnect.onClosed_eq_self (congrArg Prod.snd hr), hr]
    exact .inr (by rw [hself])

theorem scheduleAndWake_cases : c.scheduleAndWake now = (c.scheduling now).wakeLoop ∨
    c.scheduleAndWake now = c := by
  unfold scheduleAndWake
  rcases c.schedule_cases now with h | h
  · exact .inl (by rw [h])
  · exact .inr (by rw [h])

/-- Whether it schedules an attempt or not, the controller was asked. -/
theorem reconnect_schedule : (c.schedule now).1.reconnect = c.reconnect.onClosed.1 := by
  unfold schedule
  split
  · next hr => exact congrArg Prod.fst hr.symm
  · next hr => exact congrArg Prod.fst hr.symm

theorem reconnect_scheduleAndWake :
    (c.scheduleAndWake now).reconnect = c.reconnect.onClosed.1 := by
  have h := c.reconnect_schedule now
  unfold scheduleAndWake
  split
  · next hs =>
    rw [hs] at h
    rwa [reconnect_wakeLoop]
  · next hs => rwa [hs] at h

theorem reconnect_giveUp (n : Nat) (origin : Origin) (f : Fault) :
    (c.giveUp n now origin f).reconnect = c.reconnect.onClosed.1 := by
  cases origin with
  | asked => exact reconnect_scheduleAndWake ..
  | loop =>
    have h := (c.updateAttempt n (.failed f)).reconnect_schedule now
    simp only [giveUp]
    split
    · next hs => rwa [hs] at h
    · next hs =>
      rw [hs] at h
      rwa [reconnect_waitInLoop]

@[simp] theorem length_updateAttempt (n : Nat) (stage : Stage) :
    (c.updateAttempt n stage).attempts.length = c.attempts.length :=
  Numbered.length_modify ..

@[simp] theorem attempts_scheduleAndWake :
    (c.scheduleAndWake now).attempts = c.attempts := by
  rcases c.scheduleAndWake_cases now with h | h <;> rw [h]
  exact attempts_wakeLoop _

@[simp] theorem attempts_giveUp (n : Nat) (origin : Origin) (f : Fault) :
    (c.giveUp n now origin f).attempts = (c.updateAttempt n (.failed f)).attempts := by
  cases origin with
  | asked => exact attempts_scheduleAndWake ..
  | loop =>
    simp only [giveUp]
    rcases (c.updateAttempt n (.failed f)).schedule_cases now with h | h <;> rw [h]
    · rfl
    · exact attempts_waitInLoop ..

@[simp] theorem attempts_settleLoop (origin : Origin) :
    (c.settleLoop origin now).attempts = c.attempts := by
  cases origin with
  | asked => rfl
  | loop => exact attempts_waitInLoop ..

@[simp] theorem attempts_dropCurrent : c.dropCurrent.attempts = c.attempts := by
  unfold dropCurrent
  split <;> rfl

@[simp] theorem attempts_release (id : Nat) : (c.release id).1.attempts = c.attempts := by
  unfold release
  split <;> rfl

theorem attempts_request : c.request.attempts =
    c.attempts ++ [{ number := c.attempts.length, origin := .asked }] := by
  unfold request ensureLoop
  split <;> rfl

@[simp] theorem length_approve (n id : Nat) :
    (c.approve n id).attempts.length = c.attempts.length := by
  unfold approve
  split <;> exact length_updateAttempt ..

/-- An attempt that has its connection made the current one, or has closed it, has succeeded. -/
theorem attempts_install (n id : Nat) :
    ∃ i, (c.install n id).attempts = (c.updateAttempt n (.succeeded i)).attempts := by
  unfold install
  split
  · exact ⟨_, rfl⟩
  · exact ⟨_, rfl⟩

@[simp] theorem length_install (n id : Nat) :
    (c.install n id).attempts.length = c.attempts.length := by
  obtain ⟨i, h⟩ := c.attempts_install n id
  rw [h, length_updateAttempt]

@[simp] theorem length_complete (a : Attempt) (id : Nat) :
    (c.complete a id now).attempts.length = c.attempts.length := by
  unfold complete
  split <;> simp

end

/-- After the controller was asked for an attempt, one is scheduled. -/
theorem isCovered_of_onClosed {d : Client} (h : d.reconnect = c.reconnect.onClosed.1) :
    d.IsCovered := by
  intro _ hd
  rw [h, Reconnect.disconnecting_onClosed] at hd
  exact .inr (.inr (h ▸ Reconnect.pending_onClosed hd))

/-! ## The wiring -/

namespace Wired

theorem new (k : Connector) (interval : Nat) : Wired 0 (.new k interval) where
  watched _ := nofun
  rises := nofun
  fit := nofun
  runs h := absurd rfl h
  begun h := absurd rfl h
  single := rfl

/-- The loop is in the middle of its attempt where the attempt is busy. -/
theorem attempting (h : Wired 1 c) : c.loop = .attempting ∧ c.loopAttempts = 0 := by
  have hs := h.single
  split at hs
  · next hl => exact ⟨hl, by omega⟩
  · omega

theorem loopAttempts_eq_zero (h : Wired b c) (hl : c.loop ≠ .attempting) : c.loopAttempts = 0 := by
  have hs := h.single
  rw [if_neg hl] at hs
  omega

/-- A wake-up that is stored is not lost when the loop comes to wait. -/
theorem waitInLoop (h : Wired b c) (hl : c.loopAttempts = 0)
    (hp : c.reconnect.pending = true → c.permit = true) (now : Nat) :
    Wired 0 (c.waitInLoop now) where
  watched := by
    have hslot := SameSlot.waitInLoop c now
    rw [hslot.current, hslot.watched]
    exact h.watched
  rises hpend := willRise_waitInLoop c now (hp (by simpa using hpend))
  fit := by simpa using h.fit
  runs _ := by rcases c.loop_waitInLoop now with hw | ⟨till, hw⟩ <;> simp [hw]
  begun := by
    rw [(SameSlot.waitInLoop c now).current, attempts_waitInLoop]
    exact h.begun
  single := by
    have hz : (c.waitInLoop now).loopAttempts = 0 := by
      rw [loopAttempts, attempts_waitInLoop]
      exact hl
    rcases c.loop_waitInLoop now with hw | ⟨till, hw⟩ <;> simp [hw, hz]

/-- An attempt that is over lets the loop go on if it was the loop's. -/
theorem settleLoop {origin : Origin} (h : Wired origin.weight c) (now : Nat) :
    Wired 0 (c.settleLoop origin now) := by
  cases origin with
  | asked => exact h
  | loop =>
    obtain ⟨hl, hz⟩ := attempting h
    exact h.waitInLoop hz (fun hp => (h.rises hp).permit (by simp [hl]) (by simp [hl])) now

theorem scheduleAndWake (h : Wired b c) (now : Nat) : Wired b (c.scheduleAndWake now) := by
  have hslot := SameSlot.scheduleAndWake c now
  rcases c.scheduleAndWake_cases now with hs | hs
  · rw [hs] at hslot ⊢
    have hatt : (c.scheduling now).wakeLoop.attempts = c.attempts := attempts_wakeLoop _
    have hrec : (c.scheduling now).wakeLoop.reconnect = c.reconnect.onClosed.1 :=
      reconnect_wakeLoop _
    have hloop := (c.scheduling now).loop_wakeLoop
    refine ⟨?_, fun _ => willRise_wakeLoop _, ?_, fun hne => ?_, ?_, ?_⟩
    · rw [hslot.current, hslot.watched]
      exact h.watched
    · rw [hrec]
      exact h.fit.onClosed
    · rcases hloop with hl | ⟨-, hl⟩
      · rw [hl]
        exact h.runs (hatt ▸ hne)
      · simp [hl]
    · rw [hslot.current, hatt]
      exact h.begun
    · rw [loopAttempts, hatt]
      have hs := h.single
      rcases hloop with hl | ⟨hw, hl⟩
      · rw [hl]
        exact hs
      · have hne : c.loop ≠ .attempting := by
          rw [show c.loop = .waiting from hw]
          simp
        rw [if_neg hne] at hs
        rw [hl]
        exact hs
  · rwa [hs]

/-- A failed attempt that has asked the controller for the next one lets the loop go on if it was
the loop's. -/
theorem giveUp {origin : Origin} {f : Fault}
    (h : Wired origin.weight (c.updateAttempt n (.failed f))) (now : Nat) :
    Wired 0 (c.giveUp n now origin f) := by
  cases origin with
  | asked => exact h.scheduleAndWake now
  | loop =>
    simp only [Client.giveUp]
    generalize c.updateAttempt n (.failed f) = d at h ⊢
    obtain ⟨hl, hz⟩ := attempting h
    rcases d.schedule_cases now with hs | hs <;> rw [hs]
    · exact ⟨h.watched, fun _ => .inl ⟨_, rfl⟩, h.fit.onClosed, fun _ => by simp, h.begun, hz⟩
    · exact h.settleLoop now

/-- An attempt whose socket was being opened goes on. -/
theorem takeAttempt (h : Wired 0 c) (ha : c.opening? n = some a) (hs : stage ≠ .opening) :
    Wired a.origin.weight (c.updateAttempt n stage) where
  watched := h.watched
  rises := h.rises
  fit := h.fit
  runs _ := h.runs (attempts_ne_nil_of_opening? ha)
  begun _ := attempts_updateAttempt_ne_nil (attempts_ne_nil_of_opening? ha) n stage
  single := (loopAttempts_updateAttempt ha hs).trans h.single

/-- An attempt that has gone on goes on. -/
theorem updateAttempt (h : Wired b c) (hne : c.attempts ≠ []) (ha : c.opening? n = none)
    (hs : stage ≠ .opening) : Wired b (c.updateAttempt n stage) where
  watched := h.watched
  rises := h.rises
  fit := h.fit
  runs _ := h.runs hne
  begun _ := attempts_updateAttempt_ne_nil hne n stage
  single := by
    rw [loopAttempts_updateAttempt_of_none ha hs]
    exact h.single

/-- What happens to connections does not concern the loop. -/
theorem withConnector (h : Wired b c) (k : Connector) : Wired b { c with connector := k } :=
  ⟨h.watched, h.rises, h.fit, h.runs, h.begun, h.single⟩

/-- Where nothing is scheduled, the loop has nothing to miss. -/
theorem withReconnect (h : Wired b c) {r : Reconnect} (hr : r.pending = false) :
    Wired b { c with reconnect := r } :=
  ⟨h.watched, fun hp => absurd (hr.symm.trans hp) Bool.false_ne_true,
    fun hp => absurd (hr.symm.trans hp) Bool.false_ne_true, h.runs, h.begun, h.single⟩

/-- What takes the current connection out leaves the loop alone. -/
theorem dropCurrent (h : Wired b c) : Wired b c.dropCurrent := by
  unfold Client.dropCurrent
  split
  · exact ⟨fun _ => by simp, h.rises, h.fit, h.runs, fun hn => absurd rfl hn, h.single⟩
  · exact h

/-- A connection that becomes the current one is watched. -/
theorem install (h : Wired b c) (hne : c.attempts ≠ []) (ha : c.opening? n = none) (id : Nat) :
    Wired b (c.install n id) := by
  cases hact : c.active? with
  | some existing =>
    rw [install_of_some hact]
    exact (h.withConnector _).updateAttempt hne ha (by simp)
  | none =>
    rw [install_of_none hact]
    have hd := h.dropCurrent
    have hatt := c.attempts_dropCurrent
    have hw : Wired b { c.dropCurrent with current := some id, watched := id :: c.watched } :=
      ⟨fun i hi => by simp_all, hd.rises, hd.fit, hd.runs, fun _ => hatt ▸ hne, hd.single⟩
    refine hw.updateAttempt (hatt ▸ hne) ?_ (by simp)
    simpa [opening?, hatt] using ha

/-- An attempt with a connection goes as far as it can. -/
theorem complete (h : Wired a.origin.weight c) (hne : c.attempts ≠ [])
    (ha : c.opening? a.number = none) (id now : Nat) : Wired 0 (c.complete a id now) := by
  cases hd : c.reconnect.disconnecting with
  | false =>
    rw [complete_of_free hd, approve_of_free hd]
    have hfree : Wired a.origin.weight { c with reconnect := ⟨.connected, false, false⟩ } :=
      h.withReconnect rfl
    have happ : Wired a.origin.weight (({ c with
        reconnect := ⟨.connected, false, false⟩ }).updateAttempt a.number (.approved id)) :=
      hfree.updateAttempt hne ha (by simp)
    have hne' := attempts_updateAttempt_ne_nil hne a.number (.approved id)
    exact (happ.install hne' (opening?_updateAttempt (by simp)) id).settleLoop now
  | true =>
    rw [complete_of_disconnecting hd, approve_of_disconnecting hd]
    have hcl : Wired a.origin.weight
        ((c.closing id).updateAttempt a.number (.failing .connectionClosed)) :=
      (h.withConnector _).updateAttempt hne ha (by simp)
    refine Wired.giveUp (hcl.updateAttempt ?_ (opening?_updateAttempt (by simp)) (by simp)) now
    exact attempts_updateAttempt_ne_nil hne a.number _

end Wired

theorem current_install_ne_none (c : Client) (n id : Nat) : (c.install n id).current ≠ none := by
  cases hact : c.active? with
  | some existing =>
    rw [install_of_some hact]
    exact fun hn => by cases (active?_eq_some.1 hact).1.symm.trans hn
  | none =>
    rw [install_of_none hact]
    exact Option.some_ne_none id

/-- An attempt with a connection leaves the client with a current one, or finds a disconnect in
effect. -/
theorem isCovered_complete (c : Client) (a : Attempt) (id now : Nat) :
    (c.complete a id now).IsCovered := by
  cases hd : c.reconnect.disconnecting with
  | false =>
    rw [complete_of_free hd]
    refine fun _ _ => .inr (.inl ?_)
    rw [(SameSlot.settleLoop ..).current]
    exact current_install_ne_none _ a.number id
  | true =>
    rw [complete_of_disconnecting hd]
    exact isCovered_of_onClosed (reconnect_giveUp ..)

/-! ## Steps and runs -/

/-- What holds at every point at which a client waits. -/
structure Attended (c : Client) : Prop where
  /-- Its parts hang together. -/
  wired : Wired 0 c
  /-- Somebody sees to it that it gets a connection, if one is wanted. -/
  covered : c.IsCovered

namespace Attended

theorem request (h : Attended c) : Attended c.request := by
  have hatt := c.attempts_request
  have hrec : c.request.reconnect = ⟨.connecting, false, false⟩ := by
    unfold Client.request ensureLoop
    split <;> rfl
  have hloop :
      c.request.loop ≠ .absent ∧ (c.request.loop = .attempting ↔ c.loop = .attempting) := by
    have hl : c.request.loop = c.ensureLoop.loop := by
      cases hc : c.loop <;> simp [Client.request, ensureLoop, Client.beginAttempt, hc]
    rcases c.loop_ensureLoop with ⟨he, hne⟩ | ⟨hab, he⟩ <;> rw [hl, he]
    · exact ⟨hne, .rfl⟩
    · simp [hab]
  have hslot := SameSlot.request c
  refine ⟨⟨?_, ?_, ?_, fun _ => hloop.1, fun _ => by simp [hatt], ?_⟩, fun _ _ => .inl ?_⟩
  · rw [hslot.current, hslot.watched]
    exact h.wired.watched
  · simp [hrec]
  · simp [Reconnect.IsFit, hrec]
  · have hw : c.request.loopAttempts = c.loopAttempts := by
      rw [loopAttempts, hatt, Numbered.total_append]
      rfl
    simpa [hw, hloop.2] using h.wired.single
  · exact ⟨⟨c.attempts.length, .asked, .opening⟩, by simp [hatt], rfl⟩

/-- The loop makes an attempt where one is scheduled, and else finds that it has nothing to do. -/
theorem loopRises (h : Attended c) (now : Nat) : Attended (c.step now .loopRises) := by
  simp only [Client.step]
  split
  · next till hl =>
    have hz := h.wired.loopAttempts_eq_zero (by simp [hl])
    split
    · have hpend := c.reconnect.pending_beginAttempt
      split
      · next r hr =>
        rw [hr] at hpend
        have hidle (hp : r.pending = true) : False := Bool.false_ne_true (hpend.symm.trans hp)
        refine ⟨⟨h.wired.watched, fun hp => (hidle hp).elim, fun hp => (hidle hp).elim,
          fun _ => by simp [Client.beginAttempt], fun _ => by simp [Client.beginAttempt], ?_⟩,
          fun _ _ => .inl ?_⟩
        rotate_left
        · exact ⟨⟨c.attempts.length, .loop, .opening⟩, by simp [Client.beginAttempt], rfl⟩
        have htotal : Numbered.total Attempt.weight
            (c.attempts ++ [{ number := c.attempts.length, origin := .loop }]) = 1 := by
          rw [Numbered.total_append, show Numbered.total Attempt.weight c.attempts = 0 from hz]
          rfl
        exact htotal
      · next r hr =>
        rw [hr] at hpend
        refine ⟨(h.wired.withReconnect hpend).waitInLoop hz (fun hp => ?_) now, ?_⟩
        · cases hpend.symm.trans hp
        · intro hne hd
          have hdis := c.reconnect.disconnecting_beginAttempt
          rw [hr] at hdis
          rw [reconnect_waitInLoop] at hd
          rw [attempts_waitInLoop] at hne ⊢
          rw [(SameSlot.waitInLoop ..).current]
          refine (h.covered hne (hdis.symm.trans hd)).imp_right fun hrest => ?_
          -- what was scheduled would have begun
          refine .inl (hrest.resolve_right fun hp => ?_)
          have hbegins := h.wired.fit.begins hp (hdis.symm.trans hd)
          rw [hr] at hbegins
          cases hbegins
    · exact h
  · exact h

/-- The loop that starts or was woken waits for a wake-up or lets the interval pass. -/
theorem loopWakes (h : Attended c) (now : Nat) : Attended (c.step now .loopWakes) := by
  simp only [Client.step]
  split
  · next hl =>
    have hz := h.wired.loopAttempts_eq_zero (by simp [hl])
    have hperm (hp : c.reconnect.pending = true) : c.permit = true :=
      (h.wired.rises hp).permit (by simp [hl]) (by simp [hl])
    refine ⟨h.wired.waitInLoop hz hperm now, ?_⟩
    have hcov := h.covered
    unfold IsCovered at hcov ⊢
    rwa [attempts_waitInLoop, reconnect_waitInLoop, (SameSlot.waitInLoop ..).current]
  · next hl =>
    have hz := h.wired.loopAttempts_eq_zero (by simp [hl])
    exact ⟨⟨h.wired.watched, fun _ => .inl ⟨_, rfl⟩, h.wired.fit, fun _ => by simp,
      h.wired.begun, hz⟩, h.covered⟩
  · exact h

/-- While a disconnect is in effect, no connection is wanted. -/
theorem disconnect (h : Attended c) : Attended (c.requestDisconnect.dropCurrent) := by
  have hfit : c.requestDisconnect.reconnect.IsFit := .of_disconnecting rfl
  have hw : Wired 0 c.requestDisconnect :=
    ⟨h.wired.watched, h.wired.rises, hfit, h.wired.runs, h.wired.begun, h.wired.single⟩
  refine ⟨hw.dropCurrent, fun _ hd => ?_⟩
  have hr : c.requestDisconnect.dropCurrent.reconnect = c.reconnect.requestDisconnect := by
    unfold Client.dropCurrent
    split <;> rfl
  rw [hr] at hd
  cases hd

theorem watcher (h : Attended c) (now id : Nat) : Attended (c.step now (.watcher id)) := by
  simp only [Client.step]
  split
  · by_cases hcur : c.current = some id
    · rw [release_of_eq (c := c.unwatch id) hcur]
      have hw : Wired 0 { c.unwatch id with current := none } :=
        ⟨fun _ => by simp, h.wired.rises, h.wired.fit, h.wired.runs, fun hn => absurd rfl hn,
          h.wired.single⟩
      exact ⟨hw.scheduleAndWake now, isCovered_of_onClosed (reconnect_scheduleAndWake ..)⟩
    · rw [release_of_ne (c := c.unwatch id) hcur]
      refine ⟨⟨fun i hi => ?_, h.wired.rises, h.wired.fit, h.wired.runs, h.wired.begun,
        h.wired.single⟩, h.covered⟩
      have hne : i ≠ id := fun he => hcur (he ▸ hi)
      exact (List.mem_erase_of_ne hne).2 (h.wired.watched i hi)
  · exact h

/-- **Somebody sees to it**: no step leaves a client without. -/
theorem step (h : Attended c) (now : Nat) {e : Event} (he : e ≠ .stopLoop) :
    Attended (c.step now e) := by
  cases e with
  | connect =>
    simp only [Client.step, connect]
    split
    · exact h
    · split
      · exact h
      · exact h.request
  | opened n =>
    simp only [Client.step]
    split
    · next a ha =>
      have hnum : a.number = n := Numbered.number_of_get? (get?_of_opening? ha).1
      have hw : Wired a.origin.weight (c.attach n now) :=
        (h.wired.withConnector _).takeAttempt ha (by simp)
      have hne := attempts_updateAttempt_ne_nil (attempts_ne_nil_of_opening? ha) n
        (.attached c.connector.nextId)
      refine ⟨hw.complete hne ?_ _ now, isCovered_complete _ a _ now⟩
      rw [hnum]
      exact opening?_updateAttempt (by simp)
    · exact h
  | refused n text =>
    simp only [Client.step]
    split
    · next a ha =>
      have hw : Wired a.origin.weight (c.updateAttempt n (.failed (.io text))) :=
        h.wired.takeAttempt ha (by simp)
      exact ⟨hw.giveUp now, isCovered_of_onClosed (reconnect_giveUp ..)⟩
    · exact h
  | watcher id => exact h.watcher now id
  | loopWakes => exact h.loopWakes now
  | loopRises => exact h.loopRises now
  | disconnect => exact h.disconnect
  | stopLoop => exact absurd rfl he
  | close id => exact ⟨h.wired.withConnector _, h.covered⟩
  | send id m => exact ⟨h.wired.withConnector _, h.covered⟩
  | connection id e => exact ⟨h.wired.withConnector _, h.covered⟩

theorem new (k : Connector) (interval : Nat) : Attended (.new k interval) :=
  ⟨Wired.new k interval, fun hne => absurd rfl hne⟩

theorem run (h : Attended c) {es : List (Nat × Event)} (hes : ∀ e ∈ es, e.2 ≠ .stopLoop) :
    Attended (c.run es) := by
  induction es generalizing c with
  | nil => exact h
  | cons e es ih =>
    rw [List.forall_mem_cons] at hes
    exact ih (h.step e.1 hes.1) hes.2

end Attended

/-! ## Attempts are not forgotten -/

/-- No attempt is forgotten. -/
theorem length_attempts_le_step (c : Client) (now : Nat) (e : Event) :
    c.attempts.length ≤ (c.step now e).attempts.length := by
  cases e with
  | connect =>
    simp only [step, connect]
    split
    · exact Nat.le_refl _
    · split
      · exact Nat.le_refl _
      · simp [attempts_request]
  | opened n =>
    simp only [step]
    split
    · simp [attach]
    · exact Nat.le_refl _
  | refused n text =>
    simp only [step]
    split
    · simp
    · exact Nat.le_refl _
  | watcher id =>
    simp only [step]
    split
    · have hrel := (c.unwatch id).attempts_release id
      have hle : c.attempts.length ≤ ((c.unwatch id).release id).1.attempts.length :=
        Nat.le_of_eq (congrArg List.length hrel.symm)
      split
      · next hr =>
        rw [hr] at hle
        simpa using hle
      · next hr =>
        rw [hr] at hle
        exact hle
    · exact Nat.le_refl _
  | loopWakes =>
    simp only [step]
    split <;> simp
  | loopRises =>
    simp only [step]
    split
    · split
      · split
        · simp [beginAttempt]
        · simp
      · exact Nat.le_refl _
    · exact Nat.le_refl _
  | disconnect => simp [step, requestDisconnect]
  | stopLoop => simp [step, stopLoop]
  | close id => exact Nat.le_refl _
  | send id m => exact Nat.le_refl _
  | connection id e => exact Nat.le_refl _

/-- Whoever asks an initialized client for a connection finds one or makes an attempt. -/
theorem attempts_connect_ne_nil (h : Attended c) (hi : c.connector.initialized = true) :
    c.connect.attempts ≠ [] := by
  simp only [connect, hi, Bool.not_true, Bool.false_eq_true, ↓reduceIte]
  split
  · next hact =>
    obtain ⟨id, hid⟩ := Option.isSome_iff_exists.1 hact
    exact h.wired.begun fun hn => by cases (active?_eq_some.1 hid).1.symm.trans hn
  · simp [attempts_request]

/-- Once a connection was asked for, there are attempts. -/
theorem attempts_run_ne_nil (h : Attended c) (hi : c.connector.initialized = true)
    {es : List (Nat × Event)} (hes : ∀ e ∈ es, e.2 ≠ .stopLoop)
    (hc : c.attempts ≠ [] ∨ ∃ now, (now, .connect) ∈ es) : (c.run es).attempts ≠ [] := by
  induction es generalizing c with
  | nil =>
    rcases hc with hc | ⟨now, hm⟩
    · exact hc
    · cases hm
  | cons e es ih =>
    rw [List.forall_mem_cons] at hes
    refine ih (h.step e.1 hes.1) ((c.advances_step e.1 e.2).initialized hi) hes.2 ?_
    rcases hc with hc | ⟨now, hm⟩
    · exact .inl (List.ne_nil_of_length_pos
        (Nat.lt_of_lt_of_le (List.length_pos_iff.2 hc) (c.length_attempts_le_step e.1 e.2)))
    · rcases List.mem_cons.1 hm with rfl | hm
      · exact .inl (attempts_connect_ne_nil h hi)
      · exact .inr ⟨now, hm⟩

/-- **No reconnect is lost**: at every moment of a run in which the reconnect loop is not stopped,
once a connection was asked for and as long as no disconnect is in effect, the client will have a
connection or has one. -/
theorem reconnect_never_lost {k : Connector} (hk : k.initialized = true) (interval : Nat)
    {es : List (Nat × Event)} (hes : ∀ e ∈ es, e.2 ≠ .stopLoop)
    (hc : ∃ now, (now, .connect) ∈ es)
    (hd : ((new k interval).run es).reconnect.disconnecting = false) :
    ((new k interval).run es).HasProspect := by
  have h := (Attended.new k interval).run hes
  have hne := attempts_run_ne_nil (Attended.new k interval) hk hes (.inr hc)
  rcases h.covered hne hd with hopen | hcur | hp
  · exact .inl hopen
  · obtain ⟨id, hid⟩ := Option.ne_none_iff_exists'.1 hcur
    exact .inr (.inl ⟨id, hid, h.wired.watched id hid⟩)
  · exact .inr (.inr ⟨hp, h.wired.fit.begins hp hd, h.wired.runs hne, h.wired.rises hp⟩)

/-- The first attempt of a client is refused before its reconnect loop has run. -/
def refusal : List (Nat × Event) := [(0, .connect), (3, .refused 0 "refused"), (3, .loopWakes)]

/-- A client whose attempt was refused sleeps before the next one. -/
theorem reconnect_never_lost_of_refusal :
    (∀ e ∈ refusal, e.2 ≠ .stopLoop) ∧ (∃ now, (now, .connect) ∈ refusal) ∧
      ((new { settings := .default, initialized := true } 100).run refusal).loop = .sleeping 103 ∧
      ((new { settings := .default, initialized := true } 100).run refusal).HasProspect :=
  ⟨by simp [refusal], ⟨0, by simp [refusal]⟩, by decide,
    reconnect_never_lost rfl 100 (by simp [refusal]) ⟨0, by simp [refusal]⟩ (by decide)⟩

end Client

end Interchange
