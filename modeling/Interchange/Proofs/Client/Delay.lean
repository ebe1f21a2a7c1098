import Mathlib.Data.List.Induction
import Interchange.Proofs.Client.Reconnecting

/-!
# How long a client waits before it connects again

An attempt that the reconnect loop makes serves the call with which the controller scheduled it: the
mark that this call set stands until the attempt begins. The attempt is to begin the interval after
that call, or later.

The mark says nothing of whom the loop sleeps for. A loop that falls asleep after the call sleeps
the whole interval from then on, but one that is asleep already, for a call that was overtaken or
for a wake-up that was left over, rises at its own time and finds the new mark. `delay_kept_iff`
says that this is the only way in which an attempt can begin too early: the delay of a call is kept,
whatever happens after it, if and only if the call does not find the loop asleep with less than the
interval to go.
-/

namespace Interchange

namespace Reconnect

variable {r : Reconnect}

/-- What a call schedules would begin at once. -/
theorem begins_onClosed (hr : r.pending = false) (h : r.onClosed.1.pending = true) :
    r.onClosed.1.beginAttempt.2 = true := by
  unfold onClosed at h ⊢
  split at h
  · cases hr.symm.trans h
  · next hfree =>
    have hd : r.disconnecting = false := by simpa [hr] using hfree
    rw [if_neg hfree]
    simp [beginAttempt, hd]

theorem pending_of_begins (h : r.beginAttempt.2 = true) : r.pending = true := by
  unfold beginAttempt at h
  split at h
  · next hp =>
    simp only [Bool.and_eq_true] at hp
    exact hp.1.1
  · cases h

end Reconnect

namespace Client

variable {c d : Client} {now t : Nat} {e : Event}

/-- Whether the controller schedules an attempt while an event is carried out. -/
def schedules (c : Client) (now : Nat) (e : Event) : Bool :=
  !c.reconnect.pending && (c.step now e).reconnect.pending

/-- Whether the reconnect loop begins an attempt if it rises now. -/
def begins (c : Client) (now : Nat) : Bool :=
  match c.loop with
  | .sleeping till => decide (till ≤ now) && c.reconnect.beginAttempt.2
  | _ => false

/-- The mark that the call made in event `e` at `t` sets stands while other events come after it. -/
structure Stands (c : Client) (t : Nat) (e : Event) (between : List (Nat × Event)) : Prop where
  /-- The call schedules an attempt. -/
  scheduled : c.schedules t e = true
  /-- What was scheduled is neither overtaken nor begun. -/
  stands : ∀ early, early <+: between → ((c.step t e).run early).reconnect.pending = true
  /-- The client holds the time of the call for that at which the attempt was scheduled. -/
  noted : ((c.step t e).run between).scheduled = some t

/-- What begins was scheduled. -/
theorem pending_of_begins (h : c.begins now = true) : c.reconnect.pending = true := by
  unfold begins at h
  split at h
  · exact Reconnect.pending_of_begins (Bool.and_eq_true_iff.1 h).2
  · cases h

/-- What begins is begun by a loop that has slept enough. -/
theorem sleeping_of_begins (h : c.begins now = true) :
    ∃ till, c.loop = .sleeping till ∧ till ≤ now := by
  unfold begins at h
  split at h
  · next till hl => exact ⟨till, hl, of_decide_eq_true (Bool.and_eq_true_iff.1 h).1⟩
  · cases h

/-- The attempt that begins at `now` serves the call that is made in event `e` at `t`: the mark that
the call set stands while other events come between, and then the loop rises and begins an
attempt. -/
structure Serves (c : Client) (t : Nat) (e : Event) (between : List (Nat × Event)) (now : Nat) :
    Prop extends c.Stands t e between where
  /-- The loop rises and begins an attempt. -/
  begins : ((c.step t e).run between).begins now = true

/-- Events come between two moments, in the order of their times. -/
def IsTimely (t : Nat) (between : List (Nat × Event)) (now : Nat) : Prop :=
  (t :: between.map (·.1) ++ [now]).Pairwise (· ≤ ·)

theorem IsTimely.le {between : List (Nat × Event)} (h : IsTimely t between now) : t ≤ now :=
  List.rel_of_pairwise_cons h (by simp)

theorem IsTimely.later {between : List (Nat × Event)} (h : IsTimely t between now) :
    ∀ x ∈ between, t ≤ x.1 :=
  fun _ hx => List.rel_of_pairwise_cons h (by simpa using .inl ⟨_, hx⟩)

/-- Whatever happens after event `e`, an attempt that serves the call made in it begins the interval
after it or later. -/
def KeepsDelay (c : Client) (t : Nat) (e : Event) : Prop :=
  ∀ between now, IsTimely t between now → c.Serves t e between now → t + c.interval ≤ now

/-- The loop makes an attempt when it rises if it begins one, and else makes none. -/
theorem attempts_loopRises (c : Client) (now : Nat) : (c.step now .loopRises).attempts =
    if c.begins now then c.attempts ++ [{ number := c.attempts.length, origin := .loop }]
    else c.attempts := by
  cases hl : c.loop with
  | sleeping till =>
    by_cases hn : till ≤ now
    · simp only [step, begins, hl, hn, ↓reduceIte, decide_true, Bool.true_and]
      split
      · next r hr => simp [hr, beginAttempt]
      · next r hr => simp [hr]
    · simp [step, begins, hl, hn]
  | _ => simp [step, begins, hl]

/-! ## What an event does to the timer -/

/-- An attempt is scheduled where none is, or nothing changes. -/
theorem schedule_of_free (c : Client) (now : Nat) :
    c.reconnect.pending = false ∧ c.schedule now = (c.scheduling now, true) ∨
      c.schedule now = (c, false) := by
  cases hp : c.reconnect.pending with
  | false => simpa using c.schedule_cases now
  | true =>
    have hself : c.reconnect.onClosed = (c.reconnect, false) := by simp [Reconnect.onClosed, hp]
    exact .inr (by rw [schedule, hself])

/-- Two clients have the same controller and the same loop. -/
structure SameTimer (c d : Client) : Prop where
  interval : d.interval = c.interval
  loop : d.loop = c.loop
  reconnect : d.reconnect = c.reconnect
  scheduled : d.scheduled = c.scheduled

/-- What an event at `now` makes of the loop and of what is scheduled. -/
structure Ticks (now : Nat) (c d : Client) : Prop where
  /-- The interval stays. -/
  interval : d.interval = c.interval
  /-- A loop that falls asleep sleeps the interval. -/
  sleeps : ∀ till, d.loop = .sleeping till → c.loop = .sleeping till ∨ till = now + c.interval
  /-- An attempt that is scheduled by the event would begin at once, and its time is noted. -/
  scheduled : c.reconnect.pending = false → d.reconnect.pending = true →
    d.reconnect.beginAttempt.2 = true ∧ d.scheduled = some now
  /-- The time of one that was scheduled before stays. -/
  stands : c.reconnect.pending = true → d.reconnect.pending = true → d.scheduled = c.scheduled

namespace SameTimer

theorem refl (c : Client) : SameTimer c c := ⟨rfl, rfl, rfl, rfl⟩

theorem trans {c' : Client} (h : SameTimer c c') (h' : SameTimer c' d) : SameTimer c d :=
  ⟨h'.1.trans h.1, h'.2.trans h.2, h'.3.trans h.3, h'.4.trans h.4⟩

theorem ticks (h : SameTimer c d) (now : Nat) : Ticks now c d where
  interval := h.interval
  sleeps till hl := .inl (h.loop.symm.trans hl)
  scheduled hc hd := by
    rw [h.reconnect, hc] at hd
    cases hd
  stands _ _ := h.scheduled

theorem withConnector (c : Client) (k : Connector) : SameTimer c { c with connector := k } :=
  ⟨rfl, rfl, rfl, rfl⟩

theorem install (c : Client) (n id : Nat) : SameTimer c (c.install n id) := by
  unfold Client.install
  split <;> exact ⟨rfl, rfl, rfl, rfl⟩

theorem release (c : Client) (id : Nat) : SameTimer c (c.release id).1 := by
  unfold Client.release
  split <;> exact ⟨rfl, rfl, rfl, rfl⟩

theorem dropCurrent (c : Client) : SameTimer c c.dropCurrent := by
  unfold Client.dropCurrent
  split <;> exact ⟨rfl, rfl, rfl, rfl⟩

end SameTimer

namespace Ticks

theorem refl (c : Client) (now : Nat) : Ticks now c c := (SameTimer.refl c).ticks now

/-- What happens to a client with the same timer. -/
theorem of_same {c' : Client} (h : SameTimer c c') (h' : Ticks now c' d) : Ticks now c d where
  interval := h'.interval.trans h.interval
  sleeps := by
    rw [← h.loop, ← h.interval]
    exact h'.sleeps
  scheduled := by
    rw [← h.reconnect]
    exact h'.scheduled
  stands := by
    rw [← h.reconnect, ← h.scheduled]
    exact h'.stands

theorem trans_same {d' : Client} (h : Ticks now c d) (h' : SameTimer d d') : Ticks now c d' where
  interval := h'.interval.trans h.interval
  sleeps := by
    rw [h'.loop]
    exact h.sleeps
  scheduled := by
    rw [h'.reconnect, h'.scheduled]
    exact h.scheduled
  stands := by
    rw [h'.reconnect, h'.scheduled]
    exact h.stands

/-- The loop is left with nothing scheduled. -/
theorem of_idle (hi : d.interval = c.interval)
    (hs : ∀ till, d.loop = .sleeping till → c.loop = .sleeping till ∨ till = now + c.interval)
    (hp : d.reconnect.pending = false) : Ticks now c d where
  interval := hi
  sleeps := hs
  scheduled _ hd := by cases hp.symm.trans hd
  stands _ hd := by cases hp.symm.trans hd

/-- The loop falls asleep. -/
theorem sleep (h : Ticks now c d) :
    Ticks now c { d with loop := .sleeping (now + d.interval) } where
  interval := h.interval
  sleeps _ hl := .inr (h.interval ▸ (Loop.sleeping.inj hl).symm)
  scheduled := h.scheduled
  stands := h.stands

theorem waitInLoop (h : Ticks now c d) : Ticks now c (d.waitInLoop now) := by
  unfold Client.waitInLoop
  split
  · exact ⟨h.interval, h.sleep.sleeps, h.scheduled, h.stands⟩
  · exact ⟨h.interval, fun till hl => (by cases hl), h.scheduled, h.stands⟩

theorem wakeLoop (h : Ticks now c d) : Ticks now c d.wakeLoop := by
  unfold Client.wakeLoop
  split
  · exact ⟨h.interval, fun till hl => (by cases hl), h.scheduled, h.stands⟩
  · exact ⟨h.interval, h.sleeps, h.scheduled, h.stands⟩

theorem settleLoop (h : Ticks now c d) (origin : Origin) :
    Ticks now c (d.settleLoop origin now) := by
  cases origin with
  | asked => exact h
  | loop => exact h.waitInLoop

/-- An attempt is scheduled where none was. -/
theorem scheduling (hp : c.reconnect.pending = false) : Ticks now c (c.scheduling now) where
  interval := rfl
  sleeps _ hl := .inl hl
  scheduled _ hd := ⟨Reconnect.begins_onClosed hp hd, rfl⟩
  stands hc _ := by cases hp.symm.trans hc

theorem scheduleAndWake (c : Client) (now : Nat) : Ticks now c (c.scheduleAndWake now) := by
  unfold Client.scheduleAndWake
  rcases c.schedule_of_free now with ⟨hp, hs⟩ | hs <;> rw [hs]
  · exact (scheduling hp).wakeLoop
  · exact refl c now

theorem giveUp (c : Client) (n now : Nat) (origin : Origin) (f : Fault) :
    Ticks now c (c.giveUp n now origin f) := by
  have hsame : SameTimer c (c.updateAttempt n (.failed f)) := ⟨rfl, rfl, rfl, rfl⟩
  refine of_same hsame ?_
  cases origin with
  | asked => exact scheduleAndWake _ now
  | loop =>
    simp only [Client.giveUp]
    rcases (c.updateAttempt n (.failed f)).schedule_of_free now with ⟨hp, hs⟩ | hs <;> rw [hs]
    · exact (scheduling hp).sleep
    · exact (refl _ now).waitInLoop

theorem request (c : Client) (now : Nat) : Ticks now c c.request := by
  unfold Client.request ensureLoop
  split
  · exact of_idle rfl (fun till hl => by cases hl) rfl
  · exact of_idle rfl (fun till hl => .inl hl) rfl

theorem complete (c : Client) (a : Attempt) (id now : Nat) : Ticks now c (c.complete a id now) := by
  cases hd : c.reconnect.disconnecting with
  | false =>
    rw [complete_of_free hd, approve_of_free hd]
    refine settleLoop ?_ a.origin
    have hsame := SameTimer.install (({ c with
      reconnect := ⟨.connected, false, false⟩ }).updateAttempt a.number (.approved id)) a.number id
    exact of_idle hsame.interval (fun till hl => .inl (hsame.loop ▸ hl))
      (congrArg Reconnect.pending hsame.reconnect)
  | true =>
    rw [complete_of_disconnecting hd, approve_of_disconnecting hd]
    have hsame : SameTimer c ((c.closing id).updateAttempt a.number (.failing .connectionClosed)) :=
      ⟨rfl, rfl, rfl, rfl⟩
    exact of_same hsame (giveUp ..)

/-- **What an event does to the timer.** -/
theorem step (c : Client) (now : Nat) (e : Event) : Ticks now c (c.step now e) := by
  cases e with
  | connect =>
    simp only [Client.step, connect]
    split
    · exact refl c now
    · split
      · exact refl c now
      · exact request c now
  | opened n =>
    simp only [Client.step]
    split
    · have hsame : SameTimer c (c.attach n now) := ⟨rfl, rfl, rfl, rfl⟩
      exact of_same hsame (complete ..)
    · exact refl c now
  | refused n text =>
    simp only [Client.step]
    split
    · exact giveUp ..
    · exact refl c now
  | watcher id =>
    simp only [Client.step]
    have hunwatch : SameTimer c (c.unwatch id) := ⟨rfl, rfl, rfl, rfl⟩
    have hsame := hunwatch.trans (.release (c.unwatch id) id)
    split
    · split
      · next hr =>
        rw [hr] at hsame
        exact of_same hsame (scheduleAndWake _ now)
      · next hr =>
        rw [hr] at hsame
        exact hsame.ticks now
    · exact refl c now
  | loopWakes =>
    simp only [Client.step]
    split
    · exact (refl c now).waitInLoop
    · exact (refl c now).sleep
    · exact refl c now
  | loopRises =>
    simp only [Client.step]
    split
    · split
      · have hpend := c.reconnect.pending_beginAttempt
        split
        · next r hr =>
          rw [hr] at hpend
          exact of_idle rfl (fun till hl => by cases hl) hpend
        · next r hr =>
          rw [hr] at hpend
          have hidle : Ticks now c { c with reconnect := r } :=
            of_idle rfl (fun till hl => .inl hl) hpend
          exact hidle.waitInLoop
      · exact refl c now
    · exact refl c now
  | disconnect =>
    have hreq : Ticks now c c.requestDisconnect :=
      ⟨rfl, fun _ hl => .inl hl, fun hc hd => (by cases hc.symm.trans hd), fun _ _ => rfl⟩
    exact hreq.trans_same (.dropCurrent c.requestDisconnect)
  | stopLoop =>
    exact ⟨rfl, fun till hl => (by cases hl), fun hc hd => (by cases hc.symm.trans hd),
      fun _ _ => rfl⟩
  | close id => exact (SameTimer.withConnector c _).ticks now
  | send id m => exact (SameTimer.withConnector c _).ticks now
  | connection id h => exact (SameTimer.withConnector c _).ticks now

end Ticks

/-! ## Runs -/

@[simp] theorem run_append (c : Client) (es es' : List (Nat × Event)) :
    c.run (es ++ es') = (c.run es).run es' := List.foldl_append

theorem schedules_iff : c.schedules t e = true ↔
    c.reconnect.pending = false ∧ (c.step t e).reconnect.pending = true := by
  simp [schedules]

/-- A mark that is set by the last event, or stands when it is carried out. -/
theorem Stands.concat {between : List (Nat × Event)} (h : c.Stands t e between) {x : Nat × Event}
    (hp : ((c.step t e).run (between ++ [x])).reconnect.pending = true) :
    c.Stands t e (between ++ [x]) where
  scheduled := h.scheduled
  stands early he := by
    rcases List.prefix_concat_iff.1 he with rfl | he
    · exact hp
    · exact h.stands early he
  noted := by
    rw [run_append] at hp ⊢
    exact ((Ticks.step _ x.1 x.2).stands (h.stands between List.prefix_rfl) hp).trans h.noted

/-- An attempt that is scheduled was scheduled by a call whose mark stands. -/
theorem exists_stands (hc : c.reconnect.pending = false) (es : List (Nat × Event))
    (hp : (c.run es).reconnect.pending = true) : ∃ earlier t e between,
      es = earlier ++ (t, e) :: between ∧ (c.run earlier).Stands t e between := by
  induction es using List.reverseRecOn with
  | nil => cases hc.symm.trans hp
  | append_singleton es x ih =>
    cases hes : (c.run es).reconnect.pending with
    | true =>
      obtain ⟨earlier, t, e, between, rfl, hst⟩ := ih hes
      refine ⟨earlier, t, e, between ++ [x], by simp, hst.concat ?_⟩
      rw [run_append, run_append] at hp
      rw [run_append]
      exact hp
    | false =>
      have hlast : ((c.run es).step x.1 x.2).reconnect.pending = true := by
        rw [run_append] at hp
        exact hp
      refine ⟨es, x.1, x.2, [], rfl, schedules_iff.2 ⟨hes, hlast⟩, fun early he => ?_, ?_⟩
      · rw [List.prefix_nil.1 he]
        exact hlast
      · exact ((Ticks.step (c.run es) x.1 x.2).scheduled hes hlast).2

/-- Every attempt that the loop begins serves a call. -/
theorem exists_serves (hc : c.reconnect.pending = false) (es : List (Nat × Event)) (now : Nat)
    (hb : (c.run es).begins now = true) : ∃ earlier t e between,
      es = earlier ++ (t, e) :: between ∧ (c.run earlier).Serves t e between now := by
  obtain ⟨earlier, t, e, between, rfl, hst⟩ := exists_stands hc es (pending_of_begins hb)
  rw [run_append] at hb
  exact ⟨earlier, t, e, between, rfl, hst, hb⟩

/-- A mark that stands was not set again. -/
theorem Stands.not_later {later between : List (Nat × Event)} {x : Nat × Event}
    (h : c.Stands t e (later ++ x :: between))
    (hx : ((c.step t e).run later).schedules x.1 x.2 = true) : False := by
  have hpend := h.stands later (List.prefix_append ..)
  cases (schedules_iff.1 hx).1.symm.trans hpend

/-- No two calls are served by one attempt. -/
theorem Stands.unique {earlier earlier' between between' : List (Nat × Event)} {t' : Nat}
    {e' : Event} (h : (c.run earlier).Stands t e between)
    (h' : (c.run earlier').Stands t' e' between')
    (he : earlier ++ (t, e) :: between = earlier' ++ (t', e') :: between') :
    earlier = earlier' := by
  rcases List.append_eq_append_iff.1 he with ⟨_ | ⟨y, later⟩, rfl, heq⟩ | ⟨_ | ⟨y, later⟩, rfl, heq⟩
  · simp
  · obtain ⟨rfl, rfl⟩ := List.cons.inj heq
    rw [run_append] at h'
    exact (h.not_later (x := (t', e')) h'.scheduled).elim
  · simp
  · obtain ⟨rfl, rfl⟩ := List.cons.inj heq
    rw [run_append] at h
    exact (h'.not_later (x := (t, e)) h.scheduled).elim

theorem interval_run (c : Client) (es : List (Nat × Event)) : (c.run es).interval = c.interval := by
  induction es generalizing c with
  | nil => rfl
  | cons x es ih => exact (ih _).trans (Ticks.step c x.1 x.2).interval

/-- A loop that sleeps long enough at first sleeps long enough after what comes later. -/
theorem sleeps_run {between : List (Nat × Event)}
    (hlater : ∀ x ∈ between, t ≤ x.1) {till : Nat} (hl : (c.run between).loop = .sleeping till) :
    c.loop = .sleeping till ∨ t + c.interval ≤ till := by
  induction between generalizing c with
  | nil => exact .inl hl
  | cons x between ih =>
    have hstep := Ticks.step c x.1 x.2
    have hx := hlater x (by simp)
    rcases ih (fun y hy => hlater y (by simp [hy])) hl with hl | hle
    · rcases hstep.sleeps till hl with hl | rfl
      · exact .inl hl
      · exact .inr (by omega)
    · exact .inr (hstep.interval ▸ hle)

/-- **When the delay is kept**: that of a call which schedules an attempt is kept if and only if the
call does not leave the loop asleep with less than the interval to go. -/
theorem keepsDelay_iff (hs : c.schedules t e = true) : c.KeepsDelay t e ↔
    ∀ till, (c.step t e).loop = .sleeping till → t + c.interval ≤ max t till := by
  obtain ⟨hfree, hpend⟩ := schedules_iff.1 hs
  have hstep := Ticks.step c t e
  obtain ⟨hbegins, hnoted⟩ := hstep.scheduled hfree hpend
  constructor
  · -- if the loop rose as soon as it may, it would begin what was scheduled
    intro hkeeps till hl
    have htimely : IsTimely t [] (max t till) :=
      List.pairwise_pair.2 (Nat.le_max_left t till)
    have hstands : c.Stands t e [] :=
      ⟨hs, fun early he => by rwa [List.prefix_nil.1 he], hnoted⟩
    have hrises : (c.step t e).begins (max t till) = true := by
      rw [begins, hl, hbegins]
      exact (Bool.and_true _).trans (decide_eq_true (Nat.le_max_right t till))
    exact hkeeps [] (max t till) htimely ⟨hstands, hrises⟩
  · intro hlong between now htimely hserves
    obtain ⟨till, hl, hle⟩ := sleeping_of_begins hserves.begins
    rcases sleeps_run htimely.later hl with hl | hlater
    · exact Nat.le_trans (hlong till hl) (Nat.max_le.2 ⟨htimely.le, hle⟩)
    · rw [hstep.interval] at hlater
      exact Nat.le_trans hlater hle

/-- What holds of the delays of a client that carries out events. -/
structure Delays (c : Client) (interval : Nat) (es : List (Nat × Event)) : Prop where
  /-- An attempt that the loop begins serves a call. -/
  served : ∀ now, (c.run es).begins now = true → ∃ earlier t e between,
    es = earlier ++ (t, e) :: between ∧ (c.run earlier).Serves t e between now
  /-- It serves only one. -/
  single : ∀ earlier t e between earlier' t' e' between' now,
    (c.run earlier).Serves t e between now → (c.run earlier').Serves t' e' between' now →
      earlier ++ (t, e) :: between = earlier' ++ (t', e') :: between' → earlier = earlier'
  /-- The delay of a call that schedules an attempt is kept if and only if the call does not leave
  the loop asleep with less than the interval to go. -/
  kept : ∀ t e, (c.run es).schedules t e = true → ((c.run es).KeepsDelay t e ↔
    ∀ till, ((c.run es).step t e).loop = .sleeping till → t + interval ≤ max t till)

/-- **When the delay is kept**: an attempt that the reconnect loop begins, at any moment of any run,
serves one call, and what follows that call begins the interval after it unless the call finds the
loop asleep with less than the interval to go. -/
theorem delay_kept_iff (k : Connector) (interval : Nat) (es : List (Nat × Event)) :
    Delays (new k interval) interval es where
  served := exists_serves rfl es
  single _ _ _ _ _ _ _ _ _ h h' he := h.toStands.unique h'.toStands he
  kept t e hs := by
    have hk := keepsDelay_iff hs
    rwa [interval_run] at hk

/-- The first attempt of a client is refused, and while its loop sleeps a connect takes the place of
the second one. -/
def overtaking : List (Nat × Event) :=
  [(0, .connect), (0, .refused 0 "refused"), (0, .loopWakes), (60, .connect)]

/-- The attempt that was asked for is refused at once, and the next one begins 40 milliseconds
later. -/
theorem delay_cut_short :
    (overtaking.map Prod.fst ++ [60, 100]).Pairwise (· ≤ ·) ∧
      ((new { settings := .default, initialized := true } 100).run overtaking).Serves 60
        (.refused 1 "refused") [] 100 ∧ ¬ 60 + 100 ≤ 100 := by
  refine ⟨by decide, ⟨⟨by decide, fun early he => ?_, by decide⟩, by decide⟩, by decide⟩
  rw [List.prefix_nil.1 he]
  decide

end Client

end Interchange
