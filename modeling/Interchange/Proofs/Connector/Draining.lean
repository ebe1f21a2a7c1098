import Interchange.Proofs.Connector.Outflow
import Interchange.Proofs.Connector.Strides

/-!
# Closing drains

Time passes for a connection only while it `Rests`: there is nothing that brings it down and that it
could do of its own accord. A run in time, `Passes`, is made of turns, which take no time, and of
rests. Nothing else is asked of a run: the peer, the socket and the senders do what they like and
when they like.

`Stage` says how far a connection is on its way down, by the time that has passed since it began to
close. `drains` reads off it when the connection is gone, and what has become by then of the
messages that it had accepted.
-/

namespace Interchange

/-! ## Writers that cannot wait -/

namespace Writer

theorem not_less_self (w : Writer) : ¬ w.Less w := by
  simp [Less, Prod.lex_def]

/-- A socket that never answers. -/
def deafSocket : Socket Unit where
  write _ s := (.blocked, s)
  flush s := (.blocked, s)
  shutdown s := s

/-- A writer of a connection that is closing goes on of its own accord, unless it has ended or waits
for the socket. -/
theorem exists_event_of_closing (c : Codec) {w : Writer} (he : w.isEnded = false)
    (hw : ∀ b, w.phase ≠ .writing b) :
    ∃ e, (e = .wake ∨ e = .closing) ∧ (w.step c e).1 ≠ w := by
  have goes {e : Event} (h : next? deafSocket true w () = (some e, ())) : (w.step c e).1 ≠ w := by
    intro hs
    have hless := step_less_of_next? (c := c) h
    rw [hs] at hless
    exact w.not_less_self hless
  cases hp : w.phase with
  | waiting =>
    by_cases hq : (!w.queue.waiting.isEmpty || !w.queue.attached) = true
    · exact ⟨.wake, .inl rfl, goes (by simp only [next?, hp, hq, ↓reduceIte])⟩
    · exact ⟨.closing, .inr rfl, goes (by simp [next?, hp, hq])⟩
  | gathering ms => exact ⟨.wake, .inl rfl, goes (by simp only [next?, hp])⟩
  | writing b => exact absurd hp (hw b)
  | ended outcome => simp [isEnded, hp] at he
  | abandoned => simp [isEnded, hp] at he

/-- Whether a writer has to wait for a message, for the closing of its connection or for the socket.
-/
def canWait (w : Writer) (closing : Bool) : Bool :=
  match w.phase with
  | .waiting => w.queue.waiting.isEmpty && w.queue.attached && !closing
  | .gathering _ => false
  | _ => true

section

variable {c : Codec} {w : Writer} {closing : Bool}

theorem step_wake_of_canWait (h : w.canWait closing = true) : w.step c .wake = (w, []) := by
  unfold canWait at h
  cases hp : w.phase with
  | waiting =>
    simp only [hp, Bool.and_eq_true] at h
    simp only [step, hp, h.1.1, h.1.2, ↓reduceIte]
  | gathering ms => simp [hp] at h
  | writing b => simp only [step, hp]
  | ended outcome => simp only [step, hp]
  | abandoned => simp only [step, hp]

theorem step_closing_of_canWait (h : w.canWait true = true) : w.step c .closing = (w, []) := by
  unfold canWait at h
  cases hp : w.phase with
  | waiting => simp [hp] at h
  | gathering ms => simp [hp] at h
  | writing b => simp only [step, hp]
  | ended outcome => simp only [step, hp]
  | abandoned => simp only [step, hp]

end

end Writer

/-- Whether a connection has nothing to do of its own accord that brings it down, until a time. -/
def Connection.canWait (c : Connection) (later : Nat) : Bool :=
  c.writer.canWait c.state.isClosing &&
    match c.reader with
    | .reading => !c.state.isClosing
    | .draining since => !c.writer.isEnded && decide (later ≤ since + drainLimit)
    | .ended => true

namespace Connector

open Connection (Reader State drainLimit)
open Outbound (Ends Flushed Resolved)

variable {k k' : Connector} {i : Nat} {c : Connection}

/-! ## Time -/

/-- Whether something brings a connection down that it does of its own accord: its reading side
finds that it is to close, or that the writer it waits for has ended, or that it has waited long
enough, or its writer looks for messages or finds that the connection is closing. -/
def Happening.isDescent : Happening → Bool
  | .sawClosing => true
  | .drained => true
  | .gaveUp => true
  | .writer .wake => true
  | .writer .closing => true
  | _ => false

/-- From one time until another there is nothing that brings a connection down and that it could do
of its own accord. -/
def Rests (i : Nat) (k : Connector) (now later : Nat) : Prop :=
  now ≤ later ∧ ∀ h : Happening, h.isDescent = true → ∀ t, now ≤ t → t < later → k.step i t h = k

/-- A connector at a time. -/
structure Moment where
  /-- The connector. -/
  connector : Connector
  /-- The time. -/
  now : Nat

/-- What happens in a run in time, seen from one connection. -/
inductive Tick (i : Nat) : Moment → Moment → Prop
  /-- A turn takes no time. -/
  | turn (k : Connector) (now : Nat) (t : Turn) : Tick i ⟨k, now⟩ ⟨k.turn now t, now⟩
  /-- Time passes while the connection rests. -/
  | rest {k : Connector} {now later : Nat} (h : k.Rests i now later) : Tick i ⟨k, now⟩ ⟨k, later⟩

/-- A run in time, from one moment to another. -/
abbrev Passes (i : Nat) : Moment → Moment → Prop := Relation.ReflTransGen (Tick i)

/-- What happens in a run in time is a run. -/
theorem Passes.exists_run {m m' : Moment} (h : Passes i m m') :
    ∃ ts, m'.connector = m.connector.run ts := by
  induction h with
  | refl => exact ⟨[], rfl⟩
  | tail _ hstep ih =>
    obtain ⟨ts, hts⟩ := ih
    cases hstep with
    | turn k now t =>
      refine ⟨ts ++ [(now, t)], ?_⟩
      rw [run_append, ← hts]
      rfl
    | rest h => exact ⟨ts, hts⟩

theorem Passes.advances {m m' : Moment} (h : Passes i m m') :
    Advances m.connector m'.connector := by
  obtain ⟨ts, hts⟩ := h.exists_run
  rw [hts]
  exact advances_run m.connector ts

/-- Turns that are all carried out at one time. -/
theorem Passes.run (i : Nat) (k : Connector) (now : Nat) (ts : List Turn) :
    Passes i ⟨k, now⟩ ⟨k.run (ts.map fun t => (now, t)), now⟩ := by
  induction ts generalizing k with
  | nil => exact .refl
  | cons t ts ih => exact .head (.turn k now t) (ih _)

/-- Time does not go back. -/
theorem Passes.now_le {m m' : Moment} (h : Passes i m m') : m.now ≤ m'.now := by
  induction h with
  | refl => exact Nat.le_refl _
  | tail _ hstep ih =>
    cases hstep with
    | turn => exact ih
    | rest h => exact Nat.le_trans ih h.1

/-! ## What it means to rest -/

section

variable {now later : Nat}

/-- A connection that goes down reads no more. -/
theorem exists_windDown (hc : k.connection? i = some c) (now : Nat) :
    ∃ d, (k.windDown i now).connection? i = some d ∧ d.reader ≠ .reading := by
  unfold windDown
  simp only [hc]
  split
  · rw [connection?_finish, if_pos rfl, hc]
    exact ⟨_, rfl, by rintro ⟨⟩⟩
  · rw [connection?_update, if_pos rfl, hc]
    · exact ⟨_, rfl, by rintro ⟨⟩⟩
    · intro d hd
      simp only [Connection.close]
      split <;> exact hd

/-- A connection that is gone reads no more and waits for nothing. -/
theorem exists_finish (hc : k.connection? i = some c) :
    ∃ d, (k.finish i).connection? i = some d ∧ d.reader = .ended := by
  rw [connection?_finish, if_pos rfl, hc]
  exact ⟨_, rfl, rfl⟩

/-- A connection that reads and rests is not closing. -/
theorem Rests.not_closing (h : k.Rests i now later) (hlt : now < later)
    (hc : k.connection? i = some c) (hr : c.reader = .reading) : c.state.isClosing = false := by
  by_contra hcl
  rw [Bool.not_eq_false] at hcl
  obtain ⟨d, hd, hread⟩ := exists_windDown hc now
  have hdown : k.step i now .sawClosing = k.windDown i now := by
    simp only [step, hc, hr, stepReading, hcl, ↓reduceIte, id_of_connection? hc]
  rw [← hdown, h.2 .sawClosing rfl now (Nat.le_refl _) hlt, hc] at hd
  cases hd
  exact hread hr

/-- A connection that waits for its writer and rests has a writer that waits for the socket, and has
not waited long enough yet. -/
theorem Rests.writing (h : k.Rests i now later) (hlt : now < later)
    (hc : k.connection? i = some c) {since : Nat} (hr : c.reader = .draining since)
    (hcl : c.state.isClosing = true) :
    later ≤ since + drainLimit ∧ ∃ b, c.writer.phase = .writing b := by
  have hid := id_of_connection? hc
  have hwaits : c.writer.isEnded = false := by
    by_contra he
    rw [Bool.not_eq_false] at he
    obtain ⟨d, hd, hgone⟩ := exists_finish hc
    have hdrained : k.step i now .drained = k.finish i := by
      simp only [step, hc, hr, stepDraining, he, ↓reduceIte, hid]
    rw [← hdrained, h.2 .drained rfl now (Nat.le_refl _) hlt, hc] at hd
    cases hd
    cases hr.symm.trans hgone
  refine ⟨?_, ?_⟩
  · by_contra hlate
    -- It would have given up at the last of these moments.
    obtain ⟨t, hnow, hlater, hlimit⟩ : ∃ t, now ≤ t ∧ t < later ∧ since + drainLimit ≤ t :=
      ⟨max now (since + drainLimit), by omega, by omega, by omega⟩
    have hc' : k.connection? c.id = some c := hid.symm ▸ hc
    obtain ⟨activity, hwrite⟩ := exists_connection?_stepWriter hc' t .abandon
    obtain ⟨d, hd, hgone⟩ := exists_finish ((hwrite c.id).trans (if_pos rfl))
    have hgave : k.step i t .gaveUp = (k.stepWriter c t .abandon).finish c.id := by
      simp only [step, hc, hr, stepDraining, hlimit, hwaits, decide_true, Bool.not_false,
        Bool.and_self, ↓reduceIte]
    rw [← hgave, h.2 .gaveUp rfl t hnow hlater, hc'] at hd
    cases hd
    cases hr.symm.trans hgone
  · by_contra hw
    obtain ⟨e, he, hgoes⟩ := Writer.exists_event_of_closing k.settings.codec hwaits
      fun b hb => hw ⟨b, hb⟩
    have hc' : k.connection? c.id = some c := hid.symm ▸ hc
    obtain ⟨activity, hwrite⟩ := exists_connection?_stepWriter hc' now e
    have hstep : k.step i now (.writer e) = k.stepWriter c now e := by
      rcases he with rfl | rfl
      · simp only [step, hc]
      · simp only [step, hc, hcl, ↓reduceIte]
    have hsame : k.stepWriter c now e = k := by
      rw [← hstep]
      refine h.2 _ ?_ now (Nat.le_refl _) hlt
      rcases he with rfl | rfl <;> rfl
    have hwriter := (hwrite c.id).trans (if_pos rfl)
    rw [hsame, hc'] at hwriter
    exact hgoes (congrArg Connection.writer (Option.some.inj hwriter)).symm

/-- What does nothing to a writer does nothing to its connector. -/
theorem stepWriter_of_idle (hc : k.connection? c.id = some c) {e : Writer.Event}
    (h : c.writer.step k.settings.codec e = (c.writer, [])) (now : Nat) :
    k.stepWriter c now e = k := by
  unfold stepWriter
  rw [h]
  have hsame :
      (k.update c.id fun d => { d with writer := c.writer, activity := c.activity }) = k := by
    unfold update
    rw [Numbered.modify_of_eq hc rfl]
  simp only [List.any_nil, Bool.false_eq_true, ↓reduceIte, List.flatMap_nil, note, List.append_nil]
  rw [hsame]

/-- A connection that can wait rests. -/
theorem rests_of_canWait (hle : now ≤ later)
    (h : (k.connection? i).all (·.canWait later) = true) : k.Rests i now later := by
  refine ⟨hle, fun e he t hnow hlater => ?_⟩
  cases hc : k.connection? i with
  | none => simp only [step, hc]
  | some c =>
  rw [hc, Option.all_some, Connection.canWait, Bool.and_eq_true] at h
  obtain ⟨hwriter, hreader⟩ := h
  have hc' : k.connection? c.id = some c := (id_of_connection? hc).symm ▸ hc
  cases e with
  | writer e =>
    cases e with
    | wake =>
      simp only [step, hc]
      exact stepWriter_of_idle hc' (Writer.step_wake_of_canWait hwriter) t
    | closing =>
      simp only [step, hc]
      split
      · next hcl =>
        rw [hcl] at hwriter
        exact stepWriter_of_idle hc' (Writer.step_closing_of_canWait hwriter) t
      · rfl
    | wrote n => cases he
    | failed text => cases he
    | flushed => cases he
    | abandon => cases he
  | sawClosing =>
    cases hr : c.reader with
    | reading =>
      simp only [hr, Bool.not_eq_true'] at hreader
      simp only [step, hc, hr, stepReading, hreader, Bool.false_eq_true, ↓reduceIte]
    | draining since => simp only [step, hc, hr, stepDraining]
    | ended => simp only [step, hc, hr]
  | drained =>
    cases hr : c.reader with
    | reading => simp only [step, hc, hr, stepReading]
    | draining since =>
      simp only [hr, Bool.and_eq_true, Bool.not_eq_true'] at hreader
      simp only [step, hc, hr, stepDraining, hreader.1, Bool.false_eq_true, ↓reduceIte]
    | ended => simp only [step, hc, hr]
  | gaveUp =>
    cases hr : c.reader with
    | reading => simp only [step, hc, hr, stepReading]
    | draining since =>
      simp only [hr, Bool.and_eq_true, decide_eq_true_eq] at hreader
      have hearly : ¬ since + drainLimit ≤ t := by omega
      simp only [step, hc, hr, stepDraining, hearly, decide_false, Bool.false_and,
        Bool.false_eq_true, ↓reduceIte]
    | ended => simp only [step, hc, hr]
  | received bytes => cases he
  | inputEnded => cases he
  | inputFailed text => cases he
  | sawWriterEnd => cases he
  | alarm => cases he

end

/-! ## The way down -/

/-- The writer of a connection waits for the socket all the while until the connection has been
going down as long as it waits at most. -/
def Stuck (i : Nat) (m₀ m : Moment) : Prop :=
  ∃ k now c b, Passes i m₀ ⟨k, now⟩ ∧ now < m₀.now + drainLimit ∧
    k.Rests i now (m₀.now + drainLimit) ∧ Passes i ⟨k, m₀.now + drainLimit⟩ m ∧
      k.connection? i = some c ∧ c.writer.phase = .writing b

theorem Stuck.tick {m₀ m m' : Moment} (h : Stuck i m₀ m) (hm : Tick i m m') : Stuck i m₀ m' := by
  obtain ⟨k, now, c, b, hk, hnow, hrests, hpass, hc, hb⟩ := h
  exact ⟨k, now, c, b, hk, hnow, hrests, hpass.tail hm, hc, hb⟩

/-- How far a connection is on its way down that began to close at one moment, at a later one. -/
inductive Stage (i : Nat) (m₀ m : Moment) (c : Connection) : Prop
  /-- It has not found yet that it is to close. No time has passed. -/
  | reading (hr : c.reader = .reading) (ha : c.writer.phase ≠ .abandoned) (ht : m.now = m₀.now)
  /-- It waits for its writer, and has not waited long enough unless the writer is stuck. -/
  | draining (hr : c.reader = .draining m₀.now) (ha : c.writer.phase ≠ .abandoned)
    (ht : m.now < m₀.now + drainLimit ∨ m.now = m₀.now + drainLimit ∧ Stuck i m₀ m)
  /-- It is gone. If it gave its writer up, it had waited long enough, and the writer was stuck. -/
  | gone (hr : c.reader = .ended) (he : c.writer.isEnded = true)
    (ha : c.writer.phase = .abandoned → m₀.now + drainLimit ≤ m.now ∧ Stuck i m₀ m)

namespace Stage

variable {m₀ m : Moment}

/-- Every turn leads from stage to stage. -/
theorem turn {k : Connector} {now : Nat} (h : Stage i m₀ ⟨k, now⟩ c)
    (hc : k.connection? i = some c) (t : Turn) :
    ∃ d, (k.turn now t).connection? i = some d ∧ Stage i m₀ ⟨k.turn now t, now⟩ d := by
  obtain ⟨d, hd, hs⟩ := exists_stride k now t i c hc
  have htick := Tick.turn (i := i) k now t
  refine ⟨d, hd, ?_⟩
  cases h with
  | reading hr ha ht =>
    cases hs with
    | stay hdr _ hda => exact .reading (hdr.trans hr) (fun h => ha (hda h)) ht
    | windDown _ hdr hp _ =>
      refine .draining (ht ▸ hdr) (hp ▸ ha) (.inl ?_)
      rw [ht]
      exact Nat.lt_add_of_pos_right (by decide)
    | leave _ hdr hp he =>
      exact .gone hdr ((isEnded_congr hp).trans he) fun h => absurd (hp.symm.trans h) ha
    | giveUp hcr => cases hr.symm.trans hcr
  | draining hr ha ht =>
    cases hs with
    | stay hdr _ hda =>
      exact .draining (hdr.trans hr) (fun h => ha (hda h))
        (ht.imp_right fun h => ⟨h.1, h.2.tick htick⟩)
    | windDown hcr => cases hr.symm.trans hcr
    | leave _ hdr hp he =>
      exact .gone hdr ((isEnded_congr hp).trans he) fun h => absurd (hp.symm.trans h) ha
    | giveUp hcr hl hdr hp =>
      cases hr.symm.trans hcr
      have hstuck : Stuck i m₀ ⟨k, now⟩ := by
        rcases ht with ht | ht
        · exact absurd hl (Nat.not_le.2 ht)
        · exact ht.2
      refine .gone hdr ?_ fun _ => ⟨hl, hstuck.tick htick⟩
      rw [Writer.isEnded, hp]
  | gone hr he ha =>
    cases hs with
    | stay hdr hp _ =>
      have hp := hp he
      refine .gone (hdr.trans hr) ((isEnded_congr hp).trans he) fun h => ?_
      obtain ⟨hnow, hstuck⟩ := ha (hp.symm.trans h)
      exact ⟨hnow, hstuck.tick htick⟩
    | windDown hcr => cases hr.symm.trans hcr
    | leave hcr => exact absurd hr hcr
    | giveUp hcr => cases hr.symm.trans hcr

/-- Every rest leads from stage to stage. -/
theorem rest {k : Connector} {now later : Nat} (h : Stage i m₀ ⟨k, now⟩ c)
    (hc : k.connection? i = some c) (hcl : c.state.isClosing = true)
    (hm : Passes i m₀ ⟨k, now⟩) (hrests : k.Rests i now later) :
    Stage i m₀ ⟨k, later⟩ c := by
  have htick := Tick.rest hrests
  rcases Nat.eq_or_lt_of_le hrests.1 with rfl | hlt
  · exact h
  cases h with
  | reading hr =>
    have := hrests.not_closing hlt hc hr
    cases this.symm.trans hcl
  | draining hr ha ht =>
    obtain ⟨hlater, b, hb⟩ := hrests.writing hlt hc hr hcl
    refine .draining hr ha ?_
    rcases ht with ht | ⟨ht, -⟩
    · rcases Nat.lt_or_eq_of_le hlater with hlater | rfl
      · exact .inl hlater
      · exact .inr ⟨rfl, k, now, c, b, hm, ht, hrests, .refl, hc, hb⟩
    · simp only at ht
      omega
  | gone hr he ha =>
    refine .gone hr he fun h => ?_
    obtain ⟨hnow, hstuck⟩ := ha h
    exact ⟨Nat.le_trans hnow hrests.1, hstuck.tick htick⟩

end Stage

/-! ## Where it begins -/

/-- A connection gives its writer up only when it goes. -/
def Persists (i : Nat) (k : Connector) : Prop :=
  ∀ c, k.connection? i = some c → c.writer.phase = .abandoned → c.reader = .ended

theorem Persists.turn (h : k.Persists i) (now : Nat) (t : Turn) : (k.turn now t).Persists i := by
  intro d hd hp
  cases hc : k.connection? i with
  | none =>
    obtain ⟨-, -, bound, rfl⟩ := exists_start_of_turn hc hd
    cases hp
  | some c =>
    obtain ⟨d', hd', hs⟩ := exists_stride k now t i c hc
    cases hd.symm.trans hd'
    cases hs with
    | stay hr _ ha => exact hr.trans (h c hc (ha hp))
    | windDown _ _ hdp he =>
      rw [Writer.isEnded, ← hdp, hp] at he
      cases he
    | leave _ hr => exact hr
    | giveUp _ _ hr => exact hr

theorem Persists.run (h : k.Persists i) (ts : List (Nat × Turn)) : (k.run ts).Persists i := by
  induction ts generalizing k with
  | nil => exact h
  | cons t ts ih => exact ih (h.turn t.1 t.2)

end Connector

/-- Only a connection that is gone does nothing any more. -/
theorem Course.disconnected_iff {i : Nat} {r : Connection.Reader} {s : Connection.State}
    {ns : List Notice} (h : Course i (some ⟨r, s⟩) ns) : s = .disconnected ↔ r = .ended := by
  cases h with
  | reading hs => rcases hs with rfl | rfl <;> simp
  | draining => simp
  | ended => simp

namespace Connector

open Connection (Reader State drainLimit)
open Outbound (Ends Flushed Resolved)

variable {k : Connector} {i : Nat}

/-- The way down begins with a turn that makes a connection close. -/
theorem Stage.start (hk : k.IsNew) (ts : List (Nat × Turn)) (now : Nat) (t : Turn)
    (hopen : (k.run ts).state? i = some .connected) :
    ∃ d, ((k.run ts).turn now t).connection? i = some d ∧
      Stage i ⟨(k.run ts).turn now t, now⟩ ⟨(k.run ts).turn now t, now⟩ d := by
  obtain ⟨c, hc, hs⟩ := Option.map_eq_some_iff.1 hopen
  have hreading : c.reader = .reading := by
    have hcourse := (hk.sound.advances (advances_run k ts)).course i
    rw [face?, hc] at hcourse
    exact hcourse.reading_of_not_closing (by rw [hs]; rfl)
  have habandoned : c.writer.phase ≠ .abandoned := by
    intro hp
    have hnew : k.Persists i := by
      intro d hd
      rw [connection?, hk.1] at hd
      cases hd
    cases hreading.symm.trans (hnew.run ts c hc hp)
  obtain ⟨d, hd, hstride⟩ := exists_stride (k.run ts) now t i c hc
  refine ⟨d, hd, ?_⟩
  cases hstride with
  | stay hr _ ha => exact .reading (hr.trans hreading) (fun h => habandoned (ha h)) rfl
  | windDown _ hr hp _ =>
    refine .draining hr (hp ▸ habandoned) (.inl ?_)
    exact Nat.lt_add_of_pos_right (by decide)
  | leave _ hr hp he =>
    exact .gone hr ((isEnded_congr hp).trans he) fun h => absurd (hp.symm.trans h) habandoned
  | giveUp hr => cases hreading.symm.trans hr

/-- A connection that has begun to close stays closing, and goes from stage to stage. -/
theorem Stage.passes {m₀ m m' : Moment} {c : Connection} (hpre : Passes i m₀ m)
    (hm : Passes i m m') (hc : m.connector.connection? i = some c)
    (hcl : c.state.isClosing = true) (h : Stage i m₀ m c) :
    ∃ d, m'.connector.connection? i = some d ∧ d.state.isClosing = true ∧ Stage i m₀ m' d := by
  induction hm with
  | refl => exact ⟨c, hc, hcl, h⟩
  | tail hpass hstep ih =>
    obtain ⟨d, hd, hdcl, hstage⟩ := ih
    cases hstep with
    | turn k now t =>
      obtain ⟨e, he, hnext⟩ := hstage.turn hd t
      refine ⟨e, he, ?_, hnext⟩
      obtain ⟨s, -, hs, hrank, -⟩ := (advances_turn k now t).forward (state?_of_connection? hd)
      cases hs.symm.trans (state?_of_connection? he)
      exact State.isClosing_of_rank_le hdcl hrank
    | rest hrests => exact ⟨d, hd, hdcl, hstage.rest hd hdcl (hpre.trans hpass) hrests⟩

/-- Every connection that is closing has begun to close with a turn. -/
theorem exists_beginning (hk : k.IsNew) {n : Nat} {m : Moment} (h : Passes i ⟨k, n⟩ m)
    {c : Connection} (hc : m.connector.connection? i = some c) (hcl : c.state.isClosing = true) :
    ∃ m₀ s, Passes i ⟨k, n⟩ m₀ ∧ Passes i m₀ m ∧ m₀.connector.state? i = some s ∧
      s.isClosing = true ∧ Stage i m₀ m c := by
  induction h generalizing c with
  | refl =>
    rw [connection?, hk.1] at hc
    cases hc
  | tail hpass hstep ih =>
    cases hstep with
    | turn k' now t =>
      cases hb : k'.connection? i with
      | none =>
        obtain ⟨-, -, bound, rfl⟩ := exists_start_of_turn hb hc
        cases hcl
      | some b =>
        have hstate := state?_of_connection? hb
        by_cases hbcl : b.state.isClosing = true
        · -- It had begun before.
          obtain ⟨m₀, s, hpre, hm₀, hs, hscl, hstage⟩ := ih hb hbcl
          obtain ⟨d, hd, hnext⟩ := hstage.turn hb t
          cases hc.symm.trans hd
          exact ⟨m₀, s, hpre, hm₀.tail (.turn k' now t), hs, hscl, hnext⟩
        · have hopen : k'.state? i = some .connected := by
            by_contra hne
            have hsound := hk.sound.advances (Passes.advances hpass)
            exact hbcl (hsound.isClosing_of_ne_connected hstate fun hb => hne (hb ▸ hstate))
          obtain ⟨ts, hts⟩ := Passes.exists_run hpass
          simp only at hts
          subst hts
          obtain ⟨d, hd, hfirst⟩ := Stage.start hk ts now t hopen
          cases hc.symm.trans hd
          exact ⟨_, c.state, hpass.tail (.turn _ now t), .refl, state?_of_connection? hc, hcl,
            hfirst⟩
    | rest hrests =>
      obtain ⟨m₀, s, hpre, hm₀, hs, hscl, hstage⟩ := ih hc hcl
      exact ⟨m₀, s, hpre, hm₀.tail (.rest hrests), hs, hscl, hstage.rest hc hcl hm₀ hrests⟩

/-! ## What is kept -/

/-- Why a connection that was closing is gone. -/
inductive Cause (c : Codec) (i : Nat) (m₀ m : Moment) : Prop
  /-- Everything was written, and then its side of the socket was shut down. -/
  | flushed (h : Flushed c (m.connector.outbound i))
  /-- The socket failed. Its side of the socket was not shut down. -/
  | broken {text : String}
    (hp : (m.connector.outbound i).writer.phase = .ended (.error (.io text)))
    (hs : .shut ∉ (m.connector.outbound i).signals)
  /-- It gave its writer up, which waited for the socket all the while until the connection had been
  going down as long as it waits at most. Its side of the socket was not shut down. -/
  | givenUp (hp : (m.connector.outbound i).writer.phase = .abandoned)
    (hnow : m₀.now + drainLimit ≤ m.now) (hstuck : Stuck i m₀ m)
    (hs : .shut ∉ (m.connector.outbound i).signals)

/-- How a connection drains that began to close at one moment, as seen at a later one. -/
structure Drains (c : Codec) (i : Nat) (m₀ m : Moment) : Prop where
  /-- It is closing or gone. -/
  state : m.connector.state? i = some .closing ∨ m.connector.state? i = some .disconnected
  /-- It accepts no message any more. -/
  accepted : (m.connector.outbound i).accepted = (m₀.connector.outbound i).accepted
  /-- The socket got a beginning of the frames of the accepted messages, in their order. -/
  sent : (m.connector.outbound i).report.sent <+:
    Writer.frameBytes c (m.connector.outbound i).accepted
  /-- It is never still closing later than it waits at most. -/
  soon : m.connector.state? i = some .closing → m.now ≤ m₀.now + drainLimit
  /-- It is gone only when everything was written, or the socket failed, or its writer was stuck. -/
  cause : m.connector.state? i = some .disconnected → Cause c i m₀ m
  /-- When it is gone, every accepted message has come to something. -/
  resolved : m.connector.state? i = some .disconnected → Resolved c (m.connector.outbound i)

/-- A connection drains all the way down. -/
theorem Drains.of_stage (hk : k.IsNew) {m₀ m : Moment} (hk₀ : Advances k m₀.connector) {s : State}
    (hs : m₀.connector.state? i = some s) (hcl : s.isClosing = true) (hm : Passes i m₀ m)
    {d : Connection} (hd : m.connector.connection? i = some d) (hdcl : d.state.isClosing = true)
    (h : Stage i m₀ m d) : Drains k.settings.codec i m₀ m := by
  have hadvances : Advances k m.connector := hk₀.trans hm.advances
  have hcourse := (hk.sound.advances hadvances).course i
  rw [face?, hd] at hcourse
  have hends := outbound_ends hk hadvances i
  have hwriter := writer_outbound hd
  have hstate := state?_of_connection? hd
  -- What is known of a connection that is gone.
  have gone (hgone : m.connector.state? i = some .disconnected) : d.writer.isEnded = true ∧
      (d.writer.phase = .abandoned → m₀.now + drainLimit ≤ m.now ∧ Stuck i m₀ m) := by
    have hr : d.reader = .ended :=
      hcourse.disconnected_iff.1 (Option.some.inj (hstate.symm.trans hgone))
    cases h with
    | gone _ he ha => exact ⟨he, ha⟩
    | reading hr' => cases hr.symm.trans hr'
    | draining hr' => cases hr.symm.trans hr'
  refine ⟨?_, accepted_of_closing hm.advances hs hcl, hends.sent, fun hclosing => ?_,
    fun hgone => ?_, fun hgone => ?_⟩
  · rw [hstate]
    revert hdcl
    cases d.state with
    | closing => exact fun _ => .inl rfl
    | disconnected => exact fun _ => .inr rfl
    | connecting => rintro ⟨⟩
    | connected => rintro ⟨⟩
  · have hr : d.reader ≠ .ended := by
      intro hr
      have hdis := hcourse.disconnected_iff.2 hr
      cases hdis.symm.trans (Option.some.inj (hstate.symm.trans hclosing))
    cases h with
    | reading _ _ ht => exact Nat.le_trans (Nat.le_of_eq ht) (Nat.le_add_right ..)
    | draining _ _ ht =>
      rcases ht with ht | ⟨ht, -⟩
      · exact Nat.le_of_lt ht
      · exact Nat.le_of_eq ht
    | gone hr' => exact absurd hr' hr
  · obtain ⟨he, ha⟩ := gone hgone
    rw [← hwriter] at he ha
    cases hp : (m.connector.outbound i).writer.phase with
    | ended outcome =>
      cases outcome with
      | ok u => exact .flushed (hends.flushed (by rw [Writer.endedWell, hp]))
      | error f =>
        obtain ⟨text, rfl⟩ := exists_text_of_ended hk hadvances hp
        exact .broken hp (hends.unshut (by rw [Writer.endedWell, hp]))
    | abandoned =>
      obtain ⟨hnow, hstuck⟩ := ha hp
      exact .givenUp hp hnow hstuck (hends.unshut (by rw [Writer.endedWell, hp]))
    | waiting => simp [Writer.isEnded, hp] at he
    | gathering ms => simp [Writer.isEnded, hp] at he
    | writing b => simp [Writer.isEnded, hp] at he
  · exact hends.resolved (hwriter ▸ (gone hgone).1)

end Connector

end Interchange
