import Interchange.Proofs.Connector.Heartbeats
import Interchange.Proofs.Session.InTime

/-!
# Heartbeats in sessions

A session lets the time come to the deadline of each connection that reads, and no further before
its alarm. So whatever is done with a session is a run in time as `Watches` has it, up to the first
heartbeat that is refused (`watched_of_reaches`): what is known of when heartbeats are queued in
such runs is known of sessions.
-/

namespace Interchange

namespace Connector

variable {k k' : Connector} {i now w : Nat} {u : Vigil}

/-- Connection `i` of a sound connector is not due. -/
structure IsAwake (i now : Nat) (k : Connector) : Prop where
  sound : k.Sound
  awake : ∀ c w, k.connection? i = some c → c.reader = .reading → k.window? = some w →
    now < c.activity.deadline w

theorem last_le_recorded (a : Activity) (now : Nat) (m? : Option Mark) :
    a.last ≤ (recorded a now m?).last := by
  unfold recorded
  split
  · exact Nat.le_max_left ..
  · exact Nat.le_refl _

/-- What is recorded, or a fresh connection, does not make a connection due. -/
theorem IsAwake.turn (h : k.IsAwake i now) (t : Turn) : (k.turn now t).IsAwake i now where
  sound := h.sound.advances (advances_turn k now t)
  awake d w hd hr hw := by
    rw [Regular.window?_turn] at hw
    cases hc : k.connection? i with
    | none =>
      obtain ⟨-, -, bound, rfl⟩ := exists_start_of_turn hc hd
      exact Nat.lt_add_of_pos_right (window_pos hw)
    | some c =>
      obtain ⟨d', hd', hrecorded, hstride⟩ := h.sound.exists_turned hc now t
      cases hd.symm.trans hd'
      have hbefore := h.awake c w hc (hstride.reading hr) hw
      have hlast := last_le_recorded c.activity now (k.mark? i now t)
      rw [← hrecorded] at hlast
      exact Nat.lt_of_lt_of_le hbefore (Nat.add_le_add_right hlast w)

/-- **After its alarm, a connection is not due**, unless its heartbeat is refused. -/
theorem isAwake_alarm (hk : k.Sound) (hm : k.mark? i now (.happening i .alarm) ≠ some .refused) :
    (k.step i now .alarm).IsAwake i now where
  sound := hk.advances (advances_step k i now .alarm)
  awake d w hd hr hw := by
    have hwindow : k.window? = some w :=
      (Regular.window?_turn k now (.happening i .alarm)).symm.trans hw
    cases hc : k.connection? i with
    | none => cases ((changes_step k i now .alarm).connection?_eq_none hc).symm.trans hd
    | some c =>
      obtain ⟨d', hd', hrecorded, hstride⟩ := hk.exists_turned hc now (.happening i .alarm)
      cases hd.symm.trans hd'
      have hreading := hstride.reading hr
      have hmark : k.mark? i now (.happening i .alarm) = Happening.alarm.mark? k c now := by
        rw [mark?, if_pos rfl, hc]
        rfl
      by_cases hdue : k.isDue c now = true
      · -- The heartbeat counts as activity.
        have hbeat : k.mark? i now (.happening i .alarm) = some .heartbeat := by
          rw [hmark] at hm ⊢
          simp only [Happening.mark?, hreading, hdue, and_self, ↓reduceIte] at hm ⊢
          split at hm
          · rfl
          · exact absurd rfl hm
        rw [hbeat] at hrecorded
        have hlast : now ≤ d.activity.last := by
          rw [hrecorded]
          exact Nat.le_max_right ..
        have := window_pos hwindow
        rw [Activity.deadline]
        omega
      · have hlast := last_le_recorded c.activity now (k.mark? i now (.happening i .alarm))
        rw [← hrecorded] at hlast
        rw [isDue, hwindow, Option.any_some] at hdue
        have hshort : ¬ w ≤ now - c.activity.last := fun hle => hdue (decide_eq_true hle)
        rw [Activity.deadline]
        omega

/-- Connection `i` is not due, or its alarm is among those that are still to come at this time. -/
structure Expects (i now : Nat) (cs : List Connection) (k : Connector) : Prop where
  sound : k.Sound
  left : (∃ c ∈ cs, c.id = i) ∨ k.IsAwake i now

theorem Expects.turn {cs : List Connection} (h : Expects i now cs k) (t : Turn) :
    Expects i now cs (k.turn now t) where
  sound := h.sound.advances (advances_turn k now t)
  left := h.left.imp_right (·.turn t)

/-- The first of the alarms. -/
theorem Expects.alarm {c : Connection} {cs : List Connection} (h : Expects i now (c :: cs) k)
    (hm : k.mark? i now (.happening c.id .alarm) ≠ some .refused) :
    Expects i now cs (k.turn now (.happening c.id .alarm)) where
  sound := h.sound.advances (advances_turn k now _)
  left := by
    rcases h.left with ⟨d, hd, hi⟩ | hawake
    · rcases List.mem_cons.1 hd with rfl | hd
      · subst hi
        exact .inr (isAwake_alarm h.sound hm)
      · exact .inl ⟨d, hd, hi⟩
    · exact .inr (hawake.turn _)

/-- A run in time leads to a connector of which `P` holds, unless a heartbeat is refused on the
way. -/
def Watched (i : Nat) (u : Vigil) (now : Nat) (P : Connector → Prop) (k : Connector) : Prop :=
  ∃ ms v, Watches i u ms v ∧
    (v.connector = k ∧ v.now = now ∧ P k ∨ ∃ t, (t, .refused) ∈ ms)

namespace Watched

variable {P Q : Connector → Prop}

theorem turn (h : Watched i u now P k) (t : Turn)
    (hQ : P k → k.mark? i now t ≠ some .refused → Q (k.turn now t)) :
    Watched i u now Q (k.turn now t) := by
  obtain ⟨ms, v, hw, ⟨rfl, rfl, hP⟩ | hrefused⟩ := h
  · refine ⟨_, _, hw.turn t, ?_⟩
    by_cases hm : v.connector.mark? i v.now t = some .refused
    · exact .inr ⟨v.now, List.mem_append_right ms (by rw [hm]; exact List.mem_singleton_self _)⟩
    · exact .inl ⟨rfl, rfl, hQ hP hm⟩
  · exact ⟨ms, v, hw, .inr hrefused⟩

theorem mono (h : Watched i u now P k) (hPQ : P k → Q k) : Watched i u now Q k := by
  obtain ⟨ms, v, hw, hv⟩ := h
  exact ⟨ms, v, hw, hv.imp_left fun ⟨hk, hnow, hP⟩ => ⟨hk, hnow, hPQ hP⟩⟩

theorem happens (h : Watched i u now (IsAwake i now) k) (hk : Happens now k k') :
    Watched i u now (IsAwake i now) k' := by
  induction hk with
  | refl => exact h
  | tail _ hstep ih =>
    obtain ⟨id, e, rfl⟩ := hstep
    exact ih.turn (.happening id e) fun hawake _ => hawake.turn _

/-- The alarms of all connections. -/
theorem foldl_alarm {cs : List Connection} (h : Watched i u now (Expects i now cs) k) :
    Watched i u now (IsAwake i now)
      (cs.foldl (fun k c => (k.step c.id now .alarm).step c.id now .gaveUp) k) := by
  induction cs generalizing k with
  | nil =>
    refine h.mono fun hk => ?_
    rcases hk.left with ⟨c, hc, -⟩ | hawake
    · cases hc
    · exact hawake
  | cons c cs ih =>
    have halarm := h.turn (.happening c.id .alarm) fun hk hm => hk.alarm hm
    exact ih (halarm.turn (.happening c.id .gaveUp) fun hk _ => hk.turn _)

/-- Time passes up to the time at which the connection is due. -/
theorem rest (h : Watched i u now (IsAwake i now) k) {later : Nat} (hle : now ≤ later)
    (hlater : ∀ c w, k.connection? i = some c → c.reader = .reading → k.window? = some w →
      now < c.activity.deadline w → later ≤ c.activity.deadline w) : Watched i u later Sound k := by
  obtain ⟨ms, v, hw, ⟨rfl, rfl, hawake⟩ | hrefused⟩ := h
  · by_cases hwaits : ∃ c w, v.connector.connection? i = some c ∧ c.reader = .reading ∧
      v.connector.window? = some w
    · obtain ⟨c, w, hc, hr, hwindow⟩ := hwaits
      refine ⟨ms, _, (hw.arm hc hwindow).rest hle fun d w' hd _ hw' => ?_,
        .inl ⟨rfl, rfl, hawake.sound⟩⟩
      cases hc.symm.trans hd
      cases hwindow.symm.trans hw'
      exact ⟨_, rfl, hlater c w hc hr hwindow (hawake.awake c w hc hr hwindow)⟩
    · refine ⟨ms, _, hw.rest hle fun d w' hd hr hw' => ?_, .inl ⟨rfl, rfl, hawake.sound⟩⟩
      exact absurd ⟨d, w', hd, hr, hw'⟩ hwaits
  · exact ⟨ms, v, hw, .inr hrefused⟩

end Watched

end Connector

namespace Session

open Connector (Vigil Watched IsAwake Expects Sound)

variable {s t : Session} {i : Nat} {u : Vigil}

/-- What is done with a session is a run in time that has come to it, unless a heartbeat is refused
on the way. -/
def IsWatched (i : Nat) (u : Vigil) (s : Session) : Prop :=
  Watched i u s.now (IsAwake i s.now) s.connector

namespace IsWatched

theorem settle (h : s.IsWatched i u) : s.settle.IsWatched i u := by
  unfold IsWatched
  rw [now_settle]
  exact h.happens s.happens_settle

/-- **A tick** that is not later than the next timer lets the time come to the deadline at most. -/
theorem tick (h : s.IsWatched i u) {later : Nat} (hle : s.now ≤ later)
    (ht : ∀ t, s.nextTimer? = some t → later ≤ t) : (s.tick later).IsWatched i u := by
  have hrest : Watched i u later Sound s.connector := by
    refine h.rest hle fun c w hc hr hw hlt => ?_
    have htimer : s.timer? c = some (max (c.activity.deadline w) (s.now + 1)) := by
      rw [timer?, hr, hw]
      rfl
    obtain ⟨t, hnext, hle⟩ := exists_nextTimer?_of_mem (Numbered.mem_of_get? hc) htimer
    have := ht t hnext
    omega
  have hexpects : Watched i u later (Expects i later s.connector.connections) s.connector := by
    refine hrest.mono fun hsound => ⟨hsound, ?_⟩
    cases hc : s.connector.connection? i with
    | none => exact .inr ⟨hsound, fun c w hc' => by cases hc.symm.trans hc'⟩
    | some c => exact .inl ⟨c, Numbered.mem_of_get? hc, Connector.id_of_connection? hc⟩
  have hfire : ({ s with now := later } : Session).fire.IsWatched i u := hexpects.foldl_alarm
  exact hfire.settle

theorem runUntil (h : s.IsWatched i u) (holds : Session → Bool) (target : Nat) :
    (s.runUntil holds target).2.IsWatched i u := by
  fun_induction Session.runUntil holds target s with
  | case1 => exact h
  | case2 s _ hn =>
    refine h.tick (Nat.le_max_right ..) fun t ht => ?_
    cases hn.symm.trans ht
  | case3 s _ t hn _ ih =>
    refine ih (h.tick (Nat.le_of_lt (now_lt_nextTimer? hn)) fun t' ht => ?_)
    cases hn.symm.trans ht
    exact Nat.le_refl t
  | case4 s _ t hn hge =>
    have hnow := now_lt_nextTimer? hn
    refine h.tick (Nat.le_max_right ..) fun t' ht => ?_
    cases hn.symm.trans ht
    omega

theorem turn (h : s.IsWatched i u) (t : Connector.Turn) :
    ({ s with connector := s.connector.turn s.now t } : Session).IsWatched i u :=
  Watched.turn h t fun hawake _ => hawake.turn t

theorem deed (h : s.IsWatched i u) (hd : s.Deed t) : t.IsWatched i u := by
  cases hd with
  | init => exact h.turn .init
  | openConnection => exact h.turn .openConnection
  | ask r => exact h.turn (.ask r)
  | peer id hf => exact h
  | settle => exact h.settle
  | wait holds target => exact h.settle.runUntil holds target

end IsWatched

/-- **Whatever is done with a session is a run in time** of each of its connections, up to the first
heartbeat that is refused. -/
theorem watched_of_reaches (hk : s.connector.IsNew) (h : s.Reaches t) (i : Nat) :
    t.IsWatched i ⟨s.connector, s.now, none⟩ := by
  induction h with
  | refl =>
    refine ⟨[], _, .start, .inl ⟨rfl, rfl, hk.sound, fun c w hc => ?_⟩⟩
    rw [Connector.connection?, hk.1] at hc
    cases hc
  | tail _ hdeed ih => exact ih.deed hdeed

end Session

end Interchange
