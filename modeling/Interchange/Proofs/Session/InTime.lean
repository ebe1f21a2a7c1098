import Interchange.Proofs.Connector.Draining
import Interchange.Session.Time

/-!
# Sessions are runs in time

The clock of a session moves only when nothing can happen without it, and never past the time at
which a connection has waited long enough for its writer. So each connection rests whenever the
clock moves (`rests_of_isSettled`), and everything that is done with a session is a run in time
(`passes_of_reaches`). What is known of runs in time is therefore known of sessions. Here time does
pass: a connection that closes is gone once one has waited longer than it waits for its writer,
whatever its peer does (`isGone_of_closing`).
-/

namespace Interchange

/-- A writer that has no next step has to wait. -/
theorem Writer.canWait_of_next? {σ : Type} {sock : Socket σ} {closing : Bool} {w : Writer} {s : σ}
    (h : (next? sock closing w s).1 = none) : w.canWait closing = true := by
  unfold next? at h
  unfold canWait
  cases hp : w.phase with
  | waiting =>
    simp only [hp] at h
    split at h
    · cases h
    · next hq =>
      split at h
      · cases h
      · next hcl => simp_all
  | gathering ms => simp [hp] at h
  | writing b => rfl
  | ended outcome => rfl
  | abandoned => rfl

namespace Connector

open Connection (drainLimit)

variable {k k' : Connector} {i now : Nat} {c : Connection}

/-! ## What happens at one time -/

/-- Things happen to connections, all at one time. -/
abbrev Happens (now : Nat) : Connector → Connector → Prop :=
  Relation.ReflTransGen fun k k' => ∃ id e, k' = k.step id now e

theorem Happens.changes (h : Happens now k k') : Changes k k' := by
  induction h with
  | refl => exact .refl
  | tail _ hstep ih =>
    obtain ⟨id, e, rfl⟩ := hstep
    exact ih.trans (changes_step _ id now e)

theorem Happens.passes (h : Happens now k k') (i : Nat) : Passes i ⟨k, now⟩ ⟨k', now⟩ := by
  induction h with
  | refl => exact .refl
  | tail _ hstep ih =>
    obtain ⟨id, e, rfl⟩ := hstep
    exact ih.tail (.turn _ now (.happening id e))

/-- By now, connection `i` has not waited long enough for its writer unless the writer has ended. -/
def Patient (now i : Nat) (k : Connector) : Prop :=
  ∀ c since, k.connection? i = some c → c.reader = .draining since → since + drainLimit ≤ now →
    c.writer.isEnded = true

namespace Patient

theorem turn (h : k.Patient now i) (t : Turn) : (k.turn now t).Patient now i := by
  intro d since hd hr hlimit
  cases hc : k.connection? i with
  | none =>
    obtain ⟨-, -, bound, rfl⟩ := exists_start_of_turn hc hd
    cases hr
  | some c =>
    obtain ⟨d', hd', hs⟩ := exists_stride k now t i c hc
    cases hd.symm.trans hd'
    cases hs with
    | stay hdr he _ =>
      have hended := h c since hc (hdr.symm.trans hr) hlimit
      exact (isEnded_congr (he hended)).trans hended
    | windDown _ hdr =>
      -- It waits only from now on.
      cases hdr.symm.trans hr
      have : 0 < drainLimit := by decide
      omega
    | leave _ hdr => cases hdr.symm.trans hr
    | giveUp _ _ hdr => cases hdr.symm.trans hr

theorem happens (h : k.Patient now i) (hk : Happens now k k') : k'.Patient now i := by
  induction hk with
  | refl => exact h
  | tail _ hstep ih =>
    obtain ⟨id, e, rfl⟩ := hstep
    exact ih.turn (.happening id e)

/-- Once it was time to give the writer up, a connection is patient. -/
theorem gaveUp (k : Connector) (now i : Nat) : (k.step i now .gaveUp).Patient now i := by
  intro d since hd hr hlimit
  cases hc : k.connection? i with
  | none =>
    simp only [step, hc] at hd
    cases hd
  | some c =>
    have hid := id_of_connection? hc
    cases hcr : c.reader with
    | reading =>
      simp only [step, hc, hcr, stepReading, Option.some.injEq] at hd
      subst hd
      cases hcr.symm.trans hr
    | draining since' =>
      simp only [step, hc, hcr, stepDraining] at hd
      split at hd
      · obtain ⟨activity, hwrite⟩ := exists_connection?_stepWriter (hid.symm ▸ hc) now .abandon
        rw [connection?_finish, if_pos hid.symm, hwrite, if_pos rfl] at hd
        cases hd
        cases hr
      · next hstays =>
        cases hc.symm.trans hd
        cases hcr.symm.trans hr
        simpa [hlimit] using hstays
    | ended =>
      simp only [step, hc, hcr, Option.some.injEq] at hd
      subst hd
      cases hcr.symm.trans hr

end Patient

end Connector

namespace Session

open Connector (Happens Moment Passes Stage Drains)
open Connection (State drainLimit)

variable {s t : Session} {i : Nat} {c : Connection}

theorem Moves.happens (h : s.Moves t) : Happens s.now s.connector t.connector := by
  obtain ⟨id, k, f, rfl, rfl | ⟨e, rfl⟩, -⟩ := h
  · exact .refl
  · exact .single ⟨id, e, rfl⟩

theorem happens_settle (s : Session) : Happens s.now s.connector s.settle.connector := by
  fun_induction settle s with
  | case1 s h => exact .refl
  | case2 s t h ih =>
    have hmoves := moves_advance? h
    rw [hmoves.now] at ih
    exact hmoves.happens.trans ih

theorem happens_fire (s : Session) : Happens s.now s.connector s.fire.connector := by
  unfold fire
  generalize s.connector.connections = cs
  dsimp only
  generalize s.connector = k
  induction cs generalizing k with
  | nil => exact .refl
  | cons c cs ih => exact .head ⟨c.id, .alarm, rfl⟩ (.head ⟨c.id, .gaveUp, rfl⟩ (ih _))

/-- When the time has brought about what it does, every connection is patient. -/
theorem patient_fire (s : Session) (i : Nat) : s.fire.connector.Patient s.now i := by
  have hfold (cs : List Connection) (k : Connector)
      (h : (∃ c ∈ cs, c.id = i) ∨ k.Patient s.now i) :
      (cs.foldl (fun k c => (k.step c.id s.now .alarm).step c.id s.now .gaveUp) k).Patient
        s.now i := by
    induction cs generalizing k with
    | nil =>
      rcases h with ⟨c, hc, -⟩ | h
      · cases hc
      · exact h
    | cons c cs ih =>
      refine ih _ ?_
      rcases h with ⟨d, hd, hi⟩ | h
      · rcases List.mem_cons.1 hd with rfl | hd
        · subst hi
          exact .inr (.gaveUp _ s.now d.id)
        · exact .inl ⟨d, hd, hi⟩
      · exact .inr ((h.turn (.happening c.id .alarm)).turn (.happening c.id .gaveUp))
  refine hfold s.connector.connections s.connector ?_
  cases hc : s.connector.connection? i with
  | none => exact .inr fun c _ hc' => by cases hc.symm.trans hc'
  | some c => exact .inl ⟨c, Numbered.mem_of_get? hc, Connector.id_of_connection? hc⟩

/-! ## Links -/

/-- Connection `i` has a link if it is there. -/
def Linked (i : Nat) (s : Session) : Prop :=
  s.connector.connection? i ≠ none → s.link? i ≠ none

theorem link?_updateLink (id : Nat) {f : Link → Link} (hf : ∀ l : Link, l.id = id → (f l).id = id)
    (h : s.link? i ≠ none) : (s.updateLink id f).link? i ≠ none := by
  have hmodify : (s.updateLink id f).link? i = if i = id then (s.link? id).map f else s.link? i :=
    Numbered.get?_modify hf s.links
  rw [hmodify]
  split
  · next hi =>
    subst hi
    exact fun hnone => h (Option.map_eq_none_iff.1 hnone)
  · exact h

theorem link?_settle (h : s.link? i ≠ none) : s.settle.link? i ≠ none := by
  fun_induction settle s with
  | case1 => exact h
  | case2 s t ht ih =>
    obtain ⟨id, k, f, rfl, -, hf⟩ := moves_advance? ht
    exact ih (link?_updateLink id hf h)

namespace Linked

/-- What happens to connections makes none. -/
theorem changes (h : s.Linked i) (hk : Connector.Changes s.connector t.connector)
    (hl : s.link? i ≠ none → t.link? i ≠ none) : t.Linked i :=
  fun ht => hl (h fun hnone => ht (hk.connection?_eq_none hnone))

theorem settle (h : s.Linked i) : s.settle.Linked i :=
  h.changes s.happens_settle.changes link?_settle

theorem tick (h : s.Linked i) (t : Nat) : (s.tick t).Linked i := by
  have hfire : ({ s with now := t } : Session).fire.Linked i :=
    changes h (happens_fire { s with now := t }).changes fun hl => hl
  exact hfire.settle

theorem openConnection (h : s.Linked i) : s.openConnection.Linked i := by
  intro hi hnone
  have hlinks : (s.link? i).or
      (Numbered.get? i [{ id := s.connector.nextId, capacity := s.capacity : Link }]) = none :=
    (Numbered.get?_append ..).symm.trans hnone
  obtain ⟨hold, hnew⟩ := Option.or_eq_none_iff.1 hlinks
  have hne : s.connector.nextId ≠ i := Numbered.get?_eq_none.1 hnew _ (List.mem_singleton.2 rfl)
  refine hi ((Connector.connection?_openConnection s.now).trans ?_)
  rw [if_neg hne, Option.or_none]
  by_contra hsome
  exact h hsome hold

end Linked

/-! ## Settled sessions -/

/-- Nothing can happen without time passing. -/
def IsSettled (s : Session) : Prop := s.advance? = none

theorem isSettled_settle (s : Session) : s.settle.IsSettled := by
  fun_induction settle s with
  | case1 s h => exact h
  | case2 s t h ih => exact ih

theorem settle_of_isSettled (h : s.IsSettled) : s.settle = s := by
  unfold settle
  split
  · rfl
  · next ht => cases h.symm.trans ht

theorem settle_of_advance? (h : s.advance? = some t) : s.settle = t.settle := by
  rw [settle]
  split
  · next hn => cases h.symm.trans hn
  · next ht =>
    cases h.symm.trans ht
    rfl

theorem isSettled_tick (s : Session) (t : Nat) : (s.tick t).IsSettled := isSettled_settle _

theorem IsSettled.runUntil (h : s.IsSettled) (holds : Session → Bool) (target : Nat) :
    (s.runUntil holds target).2.IsSettled := by
  fun_induction Session.runUntil holds target s with
  | case1 => exact h
  | case2 s => exact s.isSettled_tick _
  | case3 s _ t _ _ ih => exact ih (s.isSettled_tick t)
  | case4 s => exact s.isSettled_tick _

/-- In a settled session, a connection has nothing to do. -/
theorem IsSettled.idle (h : s.IsSettled) (hl : s.Linked i)
    (hc : s.connector.connection? i = some c) :
    c.writer.canWait c.state.isClosing = true ∧ ∃ l, finding? c l = none := by
  obtain ⟨l, hlink⟩ := Option.ne_none_iff_exists'.1 (hl (by rw [hc]; rintro ⟨⟩))
  have hat : s.advanceAt? i = none := by
    have hall := List.findSome?_eq_none_iff.1 h l (Numbered.mem_of_get? hlink)
    rwa [show l.id = i from Numbered.number_of_get? hlink] at hall
  simp only [advanceAt?, hc, hlink, Option.orElse_eq_or, Option.or_eq_none_iff] at hat
  obtain ⟨⟨hwrites, hreads⟩, -⟩ := hat
  have hnext : (Writer.next? Link.socket c.state.isClosing c.writer l).1 = none := by
    unfold writes? at hwrites
    split at hwrites
    · next hn => rw [hn]
    · cases hwrites
  refine ⟨Writer.canWait_of_next? hnext, l, ?_⟩
  unfold reads? at hreads
  split at hreads
  · cases hreads
  · split at hreads
    · assumption
    · cases hreads

/-- The next timer is not later than that of any connection. -/
theorem exists_nextTimer?_of_mem (hc : c ∈ s.connector.connections) {u : Nat}
    (hu : s.timer? c = some u) : ∃ v, s.nextTimer? = some v ∧ v ≤ u := by
  have hmem : u ∈ s.connector.connections.filterMap s.timer? := List.mem_filterMap.2 ⟨c, hc, hu⟩
  obtain ⟨v, hv⟩ := Option.isSome_iff_exists.1 (List.isSome_min?_of_mem hmem)
  exact ⟨v, hv, (List.min?_eq_some_iff.1 hv).2 u hmem⟩

/-- A connection that goes down has a timer. -/
theorem exists_nextTimer?_le (hc : s.connector.connection? i = some c) {since : Nat}
    (hr : c.reader = .draining since) :
    ∃ t, s.nextTimer? = some t ∧ t ≤ max (since + drainLimit) (s.now + 1) :=
  exists_nextTimer?_of_mem (Numbered.mem_of_get? hc) (by rw [timer?, hr])

/-! ## Sessions that keep time -/

/-- What a session needs for a connection not to miss its time. -/
structure Punctual (i : Nat) (s : Session) : Prop where
  /-- A connection has a link. -/
  linked : s.Linked i
  /-- By now, it has not waited long enough for its writer. -/
  patient : s.connector.Patient s.now i

theorem Punctual.settle (h : s.Punctual i) : s.settle.Punctual i where
  linked := h.linked.settle
  patient := by
    rw [now_settle]
    exact h.patient.happens s.happens_settle

theorem Linked.punctual_tick (h : s.Linked i) (t : Nat) : (s.tick t).Punctual i where
  linked := h.tick t
  patient := by
    rw [now_tick]
    exact (patient_fire { s with now := t } i).happens
      (happens_settle ({ s with now := t } : Session).fire)

/-- In a settled session, a connection that goes down has not waited long enough yet. -/
theorem Punctual.now_lt (h : s.Punctual i) (hs : s.IsSettled)
    (hc : s.connector.connection? i = some c) {since : Nat} (hr : c.reader = .draining since) :
    c.writer.isEnded = false ∧ s.now < since + drainLimit := by
  obtain ⟨-, l, hl⟩ := hs.idle h.linked hc
  have hwaits : c.writer.isEnded = false := by
    simp only [finding?, hr] at hl
    split at hl
    · cases hl
    · next he => exact Bool.eq_false_iff.2 he
  refine ⟨hwaits, ?_⟩
  by_contra hlimit
  have hended := h.patient c since hc hr (Nat.not_lt.1 hlimit)
  cases hwaits.symm.trans hended

/-- **A settled session rests** until its next timer. -/
theorem rests_of_isSettled (hs : s.IsSettled) (h : s.Punctual i) {later : Nat}
    (hle : s.now ≤ later) (ht : ∀ t, s.nextTimer? = some t → later ≤ t) :
    s.connector.Rests i s.now later := by
  refine Connector.rests_of_canWait hle ?_
  cases hc : s.connector.connection? i with
  | none => rfl
  | some c =>
  obtain ⟨hwriter, l, hl⟩ := hs.idle h.linked hc
  rw [Option.all_some, Connection.canWait, hwriter, Bool.true_and]
  cases hr : c.reader with
  | reading =>
    simp only [finding?, hr] at hl
    split at hl
    · cases hl
    · next hcl => simpa using hcl
  | draining since =>
    obtain ⟨hwaits, hnow⟩ := h.now_lt hs hc hr
    obtain ⟨t, hnext, hlimit⟩ := exists_nextTimer?_le hc hr
    have hlater := ht t hnext
    simp only [hwaits, Bool.not_false, Bool.true_and, decide_eq_true_eq]
    omega
  | ended => rfl

/-! ## What is done with a session -/

/-- A session as a moment of its connector. -/
def moment (s : Session) : Moment := ⟨s.connector, s.now⟩

theorem passes_settle (s : Session) (i : Nat) : Passes i s.moment s.settle.moment := by
  rw [moment, moment, now_settle]
  exact s.happens_settle.passes i

theorem passes_tick (hs : s.IsSettled) (h : s.Punctual i) {later : Nat} (hle : s.now ≤ later)
    (ht : ∀ t, s.nextTimer? = some t → later ≤ t) :
    Passes i s.moment (s.tick later).moment := by
  have hfire : Passes i ⟨s.connector, later⟩ ({ s with now := later } : Session).fire.moment :=
    (happens_fire { s with now := later }).passes i
  exact .head (.rest (rests_of_isSettled hs h hle ht)) (hfire.trans (passes_settle _ i))

theorem passes_tick_of_nextTimer? (hs : s.IsSettled) (h : s.Punctual i) {later : Nat}
    (ht : s.nextTimer? = some later) : Passes i s.moment (s.tick later).moment := by
  refine passes_tick hs h (Nat.le_of_lt (now_lt_nextTimer? ht)) fun u hu => ?_
  cases ht.symm.trans hu
  exact Nat.le_refl later

theorem passes_runUntil (hs : s.IsSettled) (h : s.Punctual i) (holds : Session → Bool)
    (target : Nat) : Passes i s.moment (s.runUntil holds target).2.moment ∧
      (s.runUntil holds target).2.Punctual i := by
  fun_induction runUntil holds target s with
  | case1 => exact ⟨.refl, h⟩
  | case2 s _ hn =>
    refine ⟨passes_tick hs h (Nat.le_max_right ..) fun t ht => ?_, h.linked.punctual_tick _⟩
    cases hn.symm.trans ht
  | case3 s _ t hn hlt ih =>
    obtain ⟨hpass, hpunctual⟩ := ih (isSettled_tick s t) (h.linked.punctual_tick t)
    exact ⟨(passes_tick_of_nextTimer? hs h hn).trans hpass, hpunctual⟩
  | case4 s _ t hn hge =>
    have hnow := now_lt_nextTimer? hn
    refine ⟨passes_tick hs h (Nat.le_max_right ..) fun u hu => ?_, h.linked.punctual_tick _⟩
    cases hn.symm.trans hu
    omega

/-- What is done with a session. -/
inductive Deed : Session → Session → Prop
  /-- The connector is initialized. -/
  | init (s : Session) : Deed s { s with connector := s.connector.init.1 }
  /-- A connection is opened. -/
  | openConnection (s : Session) : Deed s s.openConnection
  /-- Somebody sends, closes or changes the chain of listeners. -/
  | ask (s : Session) (r : Request) :
      Deed s { s with connector := (Connector.perform r s.connector).1 }
  /-- A peer does something. -/
  | peer (s : Session) (id : Nat) {f : Link → Link} (hf : ∀ l, (f l).id = l.id) :
      Deed s (s.updateLink id f)
  /-- What can happen without time passing does happen. -/
  | settle (s : Session) : Deed s s.settle
  /-- One waits for something until a given time. -/
  | wait (s : Session) (holds : Session → Bool) (target : Nat) :
      Deed s (s.settle.runUntil holds target).2

/-- One session comes from another by whatever is done with it. -/
abbrev Reaches : Session → Session → Prop := Relation.ReflTransGen Deed

/-- What is done with a session is a run in time, and leaves it on time. -/
theorem Deed.passes (hd : s.Deed t) (h : s.Punctual i) :
    Passes i s.moment t.moment ∧ t.Punctual i := by
  cases hd with
  | init =>
    refine ⟨.single (.turn s.connector s.now .init), fun hi => h.linked ?_, h.patient.turn .init⟩
    rwa [Connector.connection?, Connector.connections_init] at hi
  | openConnection =>
    exact ⟨.single (.turn s.connector s.now .openConnection), h.linked.openConnection,
      h.patient.turn .openConnection⟩
  | ask r =>
    exact ⟨.single (.turn s.connector s.now (.ask r)),
      h.linked.changes (Connector.Meanwhile.perform r s.connector).changes fun hl => hl,
      h.patient.turn (.ask r)⟩
  | peer id hf =>
    exact ⟨.refl, h.linked.changes .refl (link?_updateLink id fun l hl => (hf l).trans hl),
      h.patient⟩
  | settle => exact ⟨passes_settle s i, h.settle⟩
  | wait holds target =>
    obtain ⟨hpass, hpunctual⟩ := passes_runUntil s.isSettled_settle h.settle holds target
    exact ⟨(passes_settle s i).trans hpass, hpunctual⟩

/-- **Sessions are runs in time**: everything that is done with a session is one for each of its
connections. -/
theorem passes_of_reaches (hk : s.connector.IsNew) (h : s.Reaches t) (i : Nat) :
    Passes i s.moment t.moment ∧ t.Punctual i := by
  induction h with
  | refl =>
    have hnone : s.connector.connection? i = none := by
      rw [Connector.connection?, hk.1]
      rfl
    exact ⟨.refl, fun hi => absurd hnone hi, fun c _ hc => by cases hnone.symm.trans hc⟩
  | tail _ hdeed ih =>
    obtain ⟨hpass, hpunctual⟩ := ih
    obtain ⟨hnext, hp⟩ := hdeed.passes hpunctual
    exact ⟨hpass.trans hnext, hp⟩

/-! ## Closing connections -/

/-- **In every session, closing drains**: each connection that is closing or gone began to close at
some moment, and has drained since. -/
theorem exists_drains (hk : s.connector.IsNew) (h : s.Reaches t) {st : State}
    (hs : t.connector.state? i = some st) (hcl : st.isClosing = true) :
    ∃ m₀, Passes i s.moment m₀ ∧ Passes i m₀ t.moment ∧
      Drains s.connector.settings.codec i m₀ t.moment := by
  obtain ⟨hpass, -⟩ := passes_of_reaches hk h i
  obtain ⟨c, hc, rfl⟩ := Option.map_eq_some_iff.1 hs
  obtain ⟨m₀, s₀, hpre, hm₀, hs₀, hscl, hstage⟩ := Connector.exists_beginning hk hpass hc hcl
  exact ⟨m₀, hpre, hm₀, .of_stage hk (Passes.advances hpre) hs₀ hscl hm₀ hc hcl hstage⟩

theorem holds_runUntil {holds : Session → Bool} {target : Nat}
    (h : (s.runUntil holds target).1 = true) : holds (s.runUntil holds target).2 = true := by
  fun_induction runUntil holds target s with
  | case1 s hs => exact hs
  | case2 => cases h
  | case3 s _ t _ _ ih => exact ih h
  | case4 => cases h

/-- One who waits does not go back in time. -/
theorem now_runUntil_le (s : Session) (holds : Session → Bool) (target : Nat) :
    s.now ≤ (s.runUntil holds target).2.now := by
  fun_induction runUntil holds target s with
  | case1 => exact Nat.le_refl _
  | case2 => exact Nat.le_trans (Nat.le_max_right ..) (Nat.le_of_eq (now_tick ..).symm)
  | case3 s _ t hn hlt ih =>
    rw [now_tick] at ih
    exact Nat.le_trans (Nat.le_of_lt (now_lt_nextTimer? hn)) ih
  | case4 => exact Nat.le_trans (Nat.le_max_right ..) (Nat.le_of_eq (now_tick ..).symm)

/-- One who waits for what never holds waits until the given time. -/
theorem now_runUntil {holds : Session → Bool} (hnever : ∀ t, holds t = false) {target : Nat}
    (h : s.now ≤ target) : (s.runUntil holds target).2.now = target := by
  fun_induction runUntil holds target s with
  | case1 s hs => cases (hnever s).symm.trans hs
  | case2 s => exact (now_tick ..).trans (Nat.max_eq_left h)
  | case3 s _ t hn hlt ih =>
    refine ih ?_
    rw [now_tick]
    exact Nat.le_of_lt hlt
  | case4 s => exact (now_tick ..).trans (Nat.max_eq_left h)

/-- In a settled session, a connection that is closing and not gone has a timer, which is not later
than it waits at most. -/
theorem exists_nextTimer?_of_stage (hs : s.IsSettled) (h : s.Punctual i)
    (hsound : s.connector.Sound) {m₀ : Moment} (hc : s.connector.connection? i = some c)
    (hcl : c.state.isClosing = true)
    (hstage : Stage i m₀ s.moment c) (hgone : ¬ s.isGone i = true) :
    ∃ t, s.nextTimer? = some t ∧ t ≤ m₀.now + drainLimit := by
  cases hstage with
  | reading hr =>
    obtain ⟨-, l, hl⟩ := hs.idle h.linked hc
    simp [finding?, hr, hcl] at hl
  | draining hr =>
    obtain ⟨-, hnow⟩ := h.now_lt hs hc hr
    obtain ⟨t, hnext, hlimit⟩ := exists_nextTimer?_le hc hr
    exact ⟨t, hnext, by omega⟩
  | gone hr =>
    have hcourse := hsound.course i
    rw [Connector.face?, hc] at hcourse
    refine absurd ?_ hgone
    simp only [isGone, hc, decide_eq_true_eq]
    exact hcourse.disconnected_iff.2 hr

/-- A connection that is closing is gone when one waits beyond the time that it waits at most. -/
theorem isGone_runUntil (hs : s.IsSettled) (h : s.Punctual i) (hsound : s.connector.Sound)
    {m₀ : Moment} (hpre : Passes i m₀ s.moment) (hc : s.connector.connection? i = some c)
    (hcl : c.state.isClosing = true) (hstage : Stage i m₀ s.moment c) {target : Nat}
    (hlate : m₀.now + drainLimit < target) : (s.runUntil (isGone i) target).1 = true := by
  fun_induction runUntil (isGone i) target s generalizing c with
  | case1 => rfl
  | case2 s hgone hn =>
    obtain ⟨t, ht, -⟩ := exists_nextTimer?_of_stage hs h hsound hc hcl hstage hgone
    cases hn.symm.trans ht
  | case3 s _ t hn hlt ih =>
    have htick := passes_tick_of_nextTimer? hs h hn
    have hadvances := Passes.advances htick
    obtain ⟨d, hd, hdcl, hnext⟩ := hstage.passes hpre htick hc hcl
    exact ih (isSettled_tick s t) (h.linked.punctual_tick t) (hsound.advances hadvances)
      (hpre.trans htick) hd hdcl hnext
  | case4 s hgone t hn hge =>
    obtain ⟨u, hu, hlimit⟩ := exists_nextTimer?_of_stage hs h hsound hc hcl hstage hgone
    cases hn.symm.trans hu
    omega

/-- **Closing connections go**: in every session, a connection that is closing is gone when one has
waited longer than it waits for its writer, whatever its peer does and its listeners did. -/
theorem isGone_of_closing (hk : s.connector.IsNew) (h : s.Reaches t) {st : State}
    (hs : t.connector.state? i = some st) (hcl : st.isClosing = true) {ms : Nat}
    (hms : drainLimit < ms) : (t.settle.runUntil (isGone i) (t.now + ms)).1 = true := by
  obtain ⟨hpass, hpunctual⟩ := passes_of_reaches hk h i
  obtain ⟨c, hc, rfl⟩ := Option.map_eq_some_iff.1 hs
  obtain ⟨m₀, s₀, -, hm₀, -, -, hstage⟩ := Connector.exists_beginning hk hpass hc hcl
  have hsettle := passes_settle t i
  obtain ⟨d, hd, hdcl, hnext⟩ := hstage.passes hm₀ hsettle hc hcl
  have hsound := hk.sound.advances (Passes.advances (hpass.trans hsettle))
  refine isGone_runUntil t.isSettled_settle hpunctual.settle hsound (hm₀.trans hsettle) hd hdcl
    hnext ?_
  have hnow := Passes.now_le hm₀
  have : t.moment.now = t.now := rfl
  omega

/-- **Closing a connection succeeds** when one waits longer than it waits for its writer. -/
theorem exists_closeAndWait (hk : s.connector.IsNew) (h : s.Reaches t) (i : Nat) {ms : Nat}
    (hms : drainLimit < ms) :
    ∃ u, t.closeAndWait i ms = (u, .ok ()) ∧ t.Reaches u ∧ u.isGone i = true := by
  have hclose : t.Deed (t.close i) := .ask t (.close i)
  unfold closeAndWait await
  by_cases hgone : (t.close i).isGone i = true
  · rw [if_pos hgone]
    exact ⟨t.close i, rfl, .single hclose, hgone⟩
  · have hwaits : ¬ ms = 0 := by omega
    rw [if_neg hgone, if_neg hwaits]
    obtain ⟨st, hs⟩ : ∃ st, (t.close i).connector.state? i = some st := by
      cases hc : (t.close i).connector.connection? i with
      | none => exact absurd (by rw [isGone, hc]) hgone
      | some c => exact ⟨c.state, Connector.state?_of_connection? hc⟩
    have hcl : st.isClosing = true := Connector.isClosing_of_state?_close hs
    have htrue := isGone_of_closing hk (h.tail hclose) hs hcl hms
    have hholds := holds_runUntil htrue
    have hwait : (t.close i).Deed _ := .wait (t.close i) (isGone i) ((t.close i).now + ms)
    revert htrue hholds hwait
    generalize (t.close i).settle.runUntil (isGone i) ((t.close i).now + ms) = p
    obtain ⟨b, u⟩ := p
    rintro rfl hholds hwait
    exact ⟨u, rfl, .tail (.single hclose) hwait, hholds⟩

end Session

end Interchange
