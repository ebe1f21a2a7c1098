import Interchange.Proofs.Connector.Strides
import Mathlib.Data.List.Chain

/-!
# When heartbeats are queued

A `Mark` is put down for everything that counts as activity of a connection. A run in time,
`Watches`, is made of turns, which take no time, and of rests. Before it rests, the reading side
sets its alarm for the time at which the connection will have been without activity for the window;
what the writer does meanwhile does not move the alarm, which may therefore come too early, but
never too late.

A heartbeat is marked where an alarm queues an echo request, `Vigil.Queues`, which puts the
acceptance of that request into the history of the connector. `Regular` says how the marks of a
connection lie in time, and `heartbeats` reads off it when heartbeats are queued and when not.
-/

namespace Interchange

/-- What counts for the heartbeats of a connection. -/
inductive Mark where
  /-- It is opened. -/
  | opened
  /-- Bytes are received. -/
  | received
  /-- A batch is written. -/
  | written
  /-- A heartbeat is queued. -/
  | heartbeat
  /-- A heartbeat is refused. -/
  | refused
  deriving DecidableEq, Repr

/-- Whether a mark stands for activity. -/
def Mark.isActivity : Mark → Bool
  | refused => false
  | _ => true

namespace Writer

theorem not_active_refusals (c : Codec) (ms : List Queued) :
    (refusals c ms).any Signal.isActive = false := by
  simp only [List.any_eq_false, refusals, List.mem_filterMap]
  rintro s ⟨q, -, hs⟩
  split at hs <;> cases hs
  intro h
  cases h

/-- A writer that finds its connection closing, or is given up, has written no batch at that moment.
-/
theorem not_active_of_ending (c : Codec) (w : Writer) {e : Event}
    (h : e = .closing ∨ e = .abandon) : (w.step c e).2.any Signal.isActive = false := by
  have drop (ms : List Queued) : (drop ms).any Signal.isActive = false := by
    simp [Writer.drop, Signal.isActive]
  rcases h with rfl | rfl
  · simp only [step]
    split
    · simp only [start]
      split
      · simp [not_active_refusals, farewell, Signal.isActive]
      · exact not_active_refusals ..
    · rfl
  · simp only [step]
    split <;> simp [drop]

end Writer

namespace Connector

open Connection (Reader State)

variable {k k' : Connector} {id i now w : Nat} {c : Connection}

/-! ## Marks -/

/-- Whether a connection has been without activity for the window. -/
def isDue (k : Connector) (c : Connection) (now : Nat) : Bool :=
  k.window?.any (c.activity.isIdle · now)

/-- What something that happens to a connection counts for. -/
def Happening.mark? (k : Connector) (c : Connection) (now : Nat) : Happening → Option Mark
  | .received _ => if c.reader = .reading then some .received else none
  | .alarm =>
    if c.reader = .reading ∧ k.isDue c now then
      match (k.send c.id (.echoRequest k.version)).2 with
      | .ok _ => some .heartbeat
      | .error _ => some .refused
    else none
  | .writer e =>
    if (c.writer.step k.settings.codec e).2.any Signal.isActive then some .written else none
  | _ => none

/-- What a turn counts for at connection `i`. -/
def mark? (k : Connector) (i now : Nat) : Turn → Option Mark
  | .openConnection => if k.nextId = i then some .opened else none
  | .happening id h => if id = i then (k.connection? i).bind fun c => h.mark? k c now else none
  | _ => none

/-- The time at which something last passed over a connection, after what a mark stands for. -/
def recorded (a : Activity) (now : Nat) (m? : Option Mark) : Activity :=
  if m?.any Mark.isActivity then a.record now else a

theorem settled_activity : Settled Connection.activity where
  queue _ _ := rfl
  close c := by
    unfold Connection.close
    split <;> rfl

/-- Connection `i` records the activity that a mark stands for, and no other. -/
def Records (now i : Nat) (m? : Option Mark) (k k' : Connector) : Prop :=
  ∀ x, k.connection? i = some x → ∃ y, k'.connection? i = some y ∧
    y.activity = recorded x.activity now m?

namespace Records

theorem of_retains {m? : Option Mark} (h : Retains Connection.activity i k k')
    (hm : m?.any Mark.isActivity = false) : Records now i m? k k' := by
  intro x hx
  obtain ⟨y, hy, hyx⟩ := h x hx
  exact ⟨y, hy, by rw [recorded, hm]; exact hyx⟩

theorem trans {m? : Option Mark} {k'' : Connector} (h : Records now i m? k k')
    (h' : Retains Connection.activity i k' k'') : Records now i m? k k'' := by
  intro x hx
  obtain ⟨y, hy, hyx⟩ := h x hx
  obtain ⟨z, hz, hzy⟩ := h' y hy
  exact ⟨z, hz, hzy.trans hyx⟩

theorem after {m? : Option Mark} {k'' : Connector} (h : Retains Connection.activity i k k')
    (h' : Records now i m? k' k'') : Records now i m? k k'' := by
  intro x hx
  obtain ⟨y, hy, hyx⟩ := h x hx
  obtain ⟨z, hz, hzy⟩ := h' y hy
  exact ⟨z, hz, hyx ▸ hzy⟩

/-- A change of one connection that records activity. -/
theorem update {f : Connection → Connection} {m : Mark} (hm : m.isActivity = true)
    (hf : ∀ c, c.id = id → (f c).id = id) {c : Connection} (hc : k.connection? id = some c)
    (h : (f c).activity = c.activity.record now) :
    Records now i (if id = i then some m else none) k (k.update id f) := by
  intro x hx
  rw [connection?_update hf]
  by_cases hi : id = i
  · subst hi
    cases hc.symm.trans hx
    rw [if_pos rfl, if_pos rfl, hx]
    exact ⟨f c, rfl, by rw [recorded, Option.any_some, hm]; exact h⟩
  · rw [if_neg (Ne.symm hi), if_neg hi, hx]
    exact ⟨x, rfl, rfl⟩

end Records

theorem retains_finish (k : Connector) (id i : Nat) :
    Retains Connection.activity i k (k.finish id) :=
  Retains.update (k := k) (fun _ h => h) fun _ _ _ => rfl

theorem retains_windDown (k : Connector) (id now i : Nat) :
    Retains Connection.activity i k (k.windDown id now) := by
  unfold windDown
  split
  · exact .refl _ i k
  · split
    · exact retains_finish k id i
    · refine .update (fun c hc => ?_) fun _ c _ => settled_activity.close c
      simp only [Connection.close]
      split <;> exact hc

theorem retains_fail (k : Connector) (id now i : Nat) (f : Fault) :
    Retains Connection.activity i k (k.fail id now f) := by
  have hpublish : Retains Connection.activity i k (k.publish (.failed id f)) :=
    .of_connections_eq rfl
  exact hpublish.trans (retains_windDown _ id now i)

theorem records_receive (hc : k.connection? c.id = some c) (now i : Nat) (bytes : List UInt8) :
    Records now i (if c.id = i then some .received else none) k (k.receive c now bytes) := by
  unfold receive
  cases c.decoder.push k.settings.codec bytes with
  | mk bodies decoder =>
  have htake : Records now i (if c.id = i then some .received else none) k
      (k.update c.id fun c => { c with decoder, activity := c.activity.record now }) :=
    .update (m := .received) rfl (fun _ h => h) hc rfl
  generalize (if c.id = i then some Mark.received else none) = m? at htake ⊢
  cases bodies with
  | error f => exact htake.trans (retains_fail _ c.id now i f)
  | ok bodies =>
    dsimp only
    have hall := htake.trans ((Retains.accompanies settled_activity i c.id).handleAll bodies _)
    split
    · next hl =>
      rw [hl] at hall
      exact hall
    · next f hl =>
      rw [hl] at hall
      exact hall.trans (retains_fail _ c.id now i f)

theorem records_heartbeat (hc : k.connection? c.id = some c) (now i : Nat) :
    Records now i (if c.id = i then
      match (k.send c.id (.echoRequest k.version)).2 with
      | .ok _ => some .heartbeat
      | .error _ => some .refused else none) k (k.heartbeat c now) := by
  have hsend (j : Nat) := Retains.send settled_activity j k c.id (.echoRequest k.version)
  unfold heartbeat
  cases h : k.send c.id (.echoRequest k.version) with
  | mk k' r =>
  rw [h] at hsend
  cases r with
  | ok ticket =>
    obtain ⟨d, hd, hact⟩ := hsend c.id c hc
    exact .after (hsend i) (.update (m := .heartbeat) rfl (fun _ h => h) hd (by rw [hact]))
  | error f =>
    refine .of_retains (hsend i) ?_
    split <;> rfl

theorem records_stepWriter (hc : k.connection? c.id = some c) (now i : Nat) (e : Writer.Event) :
    Records now i (if c.id = i then (Happening.writer e).mark? k c now else none) k
      (k.stepWriter c now e) := by
  intro x hx
  rw [connection?_stepWriter hc]
  by_cases hi : c.id = i
  · subst hi
    cases hc.symm.trans hx
    rw [if_pos rfl, if_pos rfl]
    refine ⟨_, rfl, ?_⟩
    simp only [Happening.mark?]
    split
    · rfl
    · rfl
  · rw [if_neg (Ne.symm hi), if_neg hi]
    exact ⟨x, hx, rfl⟩

theorem records_stepReading (hc : k.connection? c.id = some c) (hr : c.reader = .reading)
    (now i : Nat) (h : Happening) (hw : ∀ e, h ≠ .writer e) :
    Records now i (if c.id = i then h.mark? k c now else none) k (k.stepReading c now h) := by
  -- What is neither bytes nor an alarm only ends the reading side.
  have hends {h : Happening} (hn : h.mark? k c now = none)
      (hret : Retains Connection.activity i k (k.stepReading c now h)) :
      Records now i (if c.id = i then h.mark? k c now else none) k (k.stepReading c now h) := by
    refine .of_retains hret ?_
    rw [hn]
    split <;> rfl
  cases h with
  | received bytes =>
    simp only [Happening.mark?, hr, ↓reduceIte]
    exact records_receive hc now i bytes
  | inputEnded => exact hends rfl (retains_windDown k c.id now i)
  | inputFailed text => exact hends rfl (retains_fail k c.id now i _)
  | sawClosing =>
    refine hends rfl ?_
    simp only [stepReading]
    split
    · exact retains_windDown k c.id now i
    · exact .refl _ i k
  | sawWriterEnd =>
    refine hends rfl ?_
    simp only [stepReading]
    split
    · next f _ => exact retains_fail k c.id now i f
    · split
      · exact retains_windDown k c.id now i
      · exact .refl _ i k
  | alarm =>
    simp only [stepReading, Happening.mark?, hr, isDue, true_and]
    cases k.window? with
    | none => exact .of_retains (.refl _ i k) (by split <;> rfl)
    | some w =>
      by_cases hdue : c.activity.isIdle w now = true
      · simp only [Option.any_some, hdue, ↓reduceIte]
        exact records_heartbeat hc now i
      · simp only [Option.any_some, hdue, Bool.false_eq_true, ↓reduceIte]
        exact .of_retains (.refl _ i k) (by split <;> rfl)
  | drained => exact hends rfl (.refl _ i k)
  | gaveUp => exact hends rfl (.refl _ i k)
  | writer e => exact absurd rfl (hw e)

theorem mark?_happening (hc : k.connection? c.id = some c) (i now : Nat) (h : Happening) :
    k.mark? i now (.happening c.id h) = if c.id = i then h.mark? k c now else none := by
  rw [mark?]
  split
  · next hid =>
    rw [← hid, hc]
    rfl
  · rfl

theorem mark?_of_not_reading (hr : c.reader ≠ .reading) {h : Happening} (hw : ∀ e, h ≠ .writer e) :
    h.mark? k c now = none := by
  cases h with
  | writer e => exact absurd rfl (hw e)
  | _ => simp [Happening.mark?, hr]

theorem retains_stepDraining (hc : k.connection? c.id = some c) (since now i : Nat)
    (h : Happening) :
    Retains Connection.activity i k (k.stepDraining c since now h) := by
  cases h with
  | drained =>
    simp only [stepDraining]
    split
    · exact retains_finish k c.id i
    · exact .refl _ i k
  | gaveUp =>
    simp only [stepDraining]
    split
    · have habandon := records_stepWriter hc now i .abandon
      have hnone := Writer.not_active_of_ending k.settings.codec c.writer (.inr rfl)
      refine .trans (fun x hx => ?_) (retains_finish _ c.id i)
      obtain ⟨y, hy, hyx⟩ := habandon x hx
      refine ⟨y, hy, hyx.trans ?_⟩
      simp [Happening.mark?, hnone, recorded]
    · exact .refl _ i k
  | _ => exact .refl _ i k

/-- **What a turn counts for is what is recorded.** -/
theorem records_turn (hi : k.nextId ≠ i) (now : Nat) (t : Turn) :
    Records now i (k.mark? i now t) k (k.turn now t) := by
  cases t with
  | init => exact .of_retains (.of_connections_eq k.connections_init) rfl
  | openConnection =>
    rw [mark?, if_neg hi]
    exact .of_retains (.openConnection i k now) rfl
  | ask r => exact .of_retains (.perform settled_activity i r k) rfl
  | happening id h =>
    cases hc : k.connection? id with
    | none =>
      simp only [turn, step, hc]
      refine .of_retains (.refl _ i k) ?_
      rw [mark?]
      split
      · next hid =>
        rw [← hid, hc]
        rfl
      · rfl
    | some c =>
      have hid := id_of_connection? hc
      subst hid
      have hmark := mark?_happening hc i now h
      have hquiet (hn : h.mark? k c now = none) :
          (k.mark? i now (.happening c.id h)).any Mark.isActivity = false := by
        rw [hmark, hn]
        split <;> rfl
      simp only [turn, step, hc]
      split
      · split
        · rw [hmark]
          exact records_stepWriter hc now i .closing
        · refine .of_retains (.refl _ i k) (hquiet ?_)
          simp [Happening.mark?, Writer.not_active_of_ending k.settings.codec c.writer (.inl rfl)]
      · refine .of_retains (.refl _ i k) (hquiet ?_)
        simp [Happening.mark?, Writer.not_active_of_ending k.settings.codec c.writer (.inr rfl)]
      · rw [hmark]
        exact records_stepWriter hc now i _
      · next hw₁ hw₂ hw₃ =>
        split
        · next hr =>
          rw [hmark]
          exact records_stepReading hc hr now i h hw₃
        · next hr =>
          exact .of_retains (retains_stepDraining hc _ now i h)
            (hquiet (mark?_of_not_reading (by rw [hr]; intro h; cases h) hw₃))
        · next hr =>
          exact .of_retains (.refl _ i k)
            (hquiet (mark?_of_not_reading (by rw [hr]; intro h; cases h) hw₃))

/-- What is marked as a heartbeat is an alarm of a connection that reads and is due, and whose queue
takes the message. -/
theorem exists_of_mark? {t : Turn} (h : k.mark? i now t = some .heartbeat) :
    t = .happening i .alarm ∧ ∃ c ticket, k.connection? i = some c ∧ c.reader = .reading ∧
      k.isDue c now = true ∧ (k.send i (.echoRequest k.version)).2 = .ok ticket := by
  cases t with
  | init => cases h
  | ask r => cases h
  | openConnection =>
    rw [mark?] at h
    split at h <;> cases h
  | happening id e =>
    rw [mark?] at h
    split at h
    · next hid =>
      subst hid
      obtain ⟨c, hc, hmark⟩ := Option.bind_eq_some_iff.1 h
      clear h
      obtain rfl := id_of_connection? hc
      cases e with
      | alarm =>
        simp only [Happening.mark?] at hmark
        split at hmark
        · next hdue =>
          split at hmark
          · next ticket hsend => exact ⟨rfl, c, ticket, hc, hdue.1, hdue.2, hsend⟩
          · cases hmark
        · cases hmark
      | received bytes =>
        simp only [Happening.mark?] at hmark
        split at hmark <;> cases hmark
      | writer e =>
        simp only [Happening.mark?] at hmark
        split at hmark <;> cases hmark
      | _ => cases hmark
    · cases h

/-- A heartbeat is queued only when the connection has been without activity for the window. -/
theorem isIdle_of_mark? {t : Turn} (hc : k.connection? i = some c) (hw : k.window? = some w)
    (h : k.mark? i now t = some .heartbeat) : c.activity.isIdle w now = true := by
  obtain ⟨-, d, -, hd, -, hdue, -⟩ := exists_of_mark? h
  cases hc.symm.trans hd
  rwa [isDue, hw, Option.any_some] at hdue

theorem history_send (k : Connector) (id : Nat) (m : Message) : (k.send id m).1.history =
    k.history ++ match (k.send id m).2 with
      | .ok ticket => [.accepted id ticket m]
      | .error _ => [] := by
  unfold send
  split
  · exact (List.append_nil _).symm
  · split
    · rfl
    · exact (List.append_nil _).symm

theorem history_heartbeat (k : Connector) (c : Connection) (now : Nat) :
    (k.heartbeat c now).history = (k.send c.id (.echoRequest k.version)).1.history := by
  unfold heartbeat
  split
  · next h => rw [h]; rfl
  · next h => rw [h]

/-- **A heartbeat is marked exactly where an alarm queues an echo request** on the connection. -/
theorem mark?_eq_heartbeat_iff {t : Turn} : k.mark? i now t = some .heartbeat ↔
    t = .happening i .alarm ∧ ∃ ticket,
      (k.turn now t).history = k.history ++ [.accepted i ticket (.echoRequest k.version)] := by
  constructor
  · intro h
    obtain ⟨rfl, c, ticket, hc, hr, hdue, hsend⟩ := exists_of_mark? h
    obtain ⟨w, hw, hidle⟩ : ∃ w, k.window? = some w ∧ c.activity.isIdle w now = true := by
      rwa [isDue, Option.any_eq_true] at hdue
    refine ⟨rfl, ticket, ?_⟩
    simp only [turn, step, hc, hr, stepReading, hw, hidle, ↓reduceIte, history_heartbeat,
      id_of_connection? hc, history_send, hsend]
  · rintro ⟨rfl, ticket, h⟩
    -- An alarm that changes the history is one of a connection that reads and is due.
    have hchanged : (k.step i now .alarm).history ≠ k.history := by
      rw [turn] at h
      rw [h]
      simp
    cases hc : k.connection? i with
    | none => simp [step, hc] at hchanged
    | some c =>
      have hid := id_of_connection? hc
      simp only [step, hc] at hchanged
      split at hchanged
      · next hr =>
        simp only [stepReading] at hchanged
        split at hchanged
        · next w hw =>
          split at hchanged
          · next hidle =>
            rw [history_heartbeat, history_send, hid] at hchanged
            simp only [mark?, ↓reduceIte, hc, Option.bind_some, Happening.mark?, hr, isDue, hw,
              Option.any_some, hidle, and_self, hid]
            split
            · rfl
            · next hsend => simp [hsend] at hchanged
          · exact absurd rfl hchanged
        · exact absurd rfl hchanged
      · exact absurd rfl hchanged
      · exact absurd rfl hchanged

/-! ## Runs in time -/

/-- A connector at a time, and the time for which the reading side of a connection has set its
alarm. -/
structure Vigil where
  /-- The connector. -/
  connector : Connector
  /-- The time. -/
  now : Nat
  /-- The time of the alarm. -/
  alarm? : Option Nat := none

/-- Whether the reading side of a connection has no alarm before a time. It needs none if it does
not read, or if heartbeats are off. -/
def Vigil.RestsTill (i : Nat) (v : Vigil) (later : Nat) : Prop :=
  ∀ c w, v.connector.connection? i = some c → c.reader = .reading → v.connector.window? = some w →
    ∃ d, v.alarm? = some d ∧ later ≤ d

/-- A run in time, seen from one connection, with the marks that are put down for it. -/
inductive Watches (i : Nat) (u : Vigil) : List (Nat × Mark) → Vigil → Prop
  /-- Nothing has happened yet. -/
  | start : Watches i u [] u
  /-- A turn takes no time. -/
  | turn {ms : List (Nat × Mark)} {v : Vigil} (h : Watches i u ms v) (t : Turn) :
    Watches i u (ms ++ ((v.connector.mark? i v.now t).map (v.now, ·)).toList)
      { v with connector := v.connector.turn v.now t }
  /-- The reading side sets its alarm. -/
  | arm {ms : List (Nat × Mark)} {v : Vigil} (h : Watches i u ms v) {c : Connection} {w : Nat}
    (hc : v.connector.connection? i = some c) (hw : v.connector.window? = some w) :
    Watches i u ms { v with alarm? := some (c.activity.deadline w) }
  /-- Time passes, not beyond the alarm. -/
  | rest {ms : List (Nat × Mark)} {v : Vigil} (h : Watches i u ms v) {later : Nat}
    (hle : v.now ≤ later) (hrest : v.RestsTill i later) : Watches i u ms { v with now := later }

/-- What an alarm of the connection makes of a vigil. -/
def Vigil.alarmed (v : Vigil) (i : Nat) : Vigil :=
  { v with connector := v.connector.turn v.now (.happening i .alarm) }

/-- An alarm queues an echo request on the connection: the connection accepts it, and nothing else
becomes known. -/
def Vigil.Queues (v : Vigil) (i ticket : Nat) : Prop :=
  (v.alarmed i).connector.history =
    v.connector.history ++ [.accepted i ticket (.echoRequest v.connector.version)]

namespace Watches

variable {u v x : Vigil} {ms as bs : List (Nat × Mark)} {ticket : Nat}

theorem advances (h : Watches i u ms v) : Advances u.connector v.connector := by
  induction h with
  | start => exact .refl
  | turn _ t ih => exact ih.trans (advances_turn _ _ t)
  | arm _ _ _ ih => exact ih
  | rest _ _ _ ih => exact ih

/-- A run in time goes on. -/
theorem trans (h : Watches i u as x) (h' : Watches i x bs v) : Watches i u (as ++ bs) v := by
  induction h' with
  | start => rwa [List.append_nil]
  | turn _ t ih =>
    rw [← List.append_assoc]
    exact ih.turn t
  | arm _ hc hw ih => exact ih.arm hc hw
  | rest _ hle hrest ih => exact ih.rest hle hrest

/-- An alarm that queues an echo request is marked as a heartbeat. -/
theorem heartbeat (h : Watches i u as x) (hq : x.Queues i ticket) :
    Watches i u (as ++ [(x.now, .heartbeat)]) (x.alarmed i) := by
  have hmark := (mark?_eq_heartbeat_iff (k := x.connector) (i := i)).2 ⟨rfl, ticket, hq⟩
  have hturn := h.turn (.happening i .alarm)
  rwa [hmark] at hturn

/-- **Where a heartbeat is marked** in a run in time, an alarm queued an echo request at that time,
and the run went on from there. -/
theorem exists_queues (h : Watches i u ms v) {t : Nat} (hms : ms = as ++ (t, .heartbeat) :: bs) :
    ∃ x ticket, Watches i u as x ∧ x.now = t ∧ x.Queues i ticket ∧
      Watches i (x.alarmed i) bs v := by
  induction h generalizing bs with
  | start => simp at hms
  | @turn ms v h turn ih =>
    cases hm : v.connector.mark? i v.now turn with
    | none =>
      rw [hm] at hms
      obtain ⟨x, ticket, hx, ht, hq, hon⟩ := ih ((List.append_nil ms).symm.trans hms)
      have hlast := hon.turn turn
      rw [hm] at hlast
      exact ⟨x, ticket, hx, ht, hq, by simpa using hlast⟩
    | some m =>
      rw [hm] at hms
      rcases bs.eq_nil_or_concat with rfl | ⟨bs, b, rfl⟩
      · -- the mark is the last one, and this turn is the alarm
        obtain ⟨rfl, hlast⟩ := List.append_inj' hms rfl
        cases hlast
        obtain ⟨rfl, ticket, hq⟩ := mark?_eq_heartbeat_iff.1 hm
        exact ⟨v, ticket, h, rfl, hq, .start⟩
      · rw [List.concat_eq_append, ← List.cons_append, ← List.append_assoc] at hms
        obtain ⟨rfl, hlast⟩ := List.append_inj' hms rfl
        cases hlast
        obtain ⟨x, ticket, hx, ht, hq, hon⟩ := ih rfl
        have hlast := hon.turn turn
        rw [hm] at hlast
        refine ⟨x, ticket, hx, ht, hq, ?_⟩
        rw [List.concat_eq_append]
        exact hlast
  | arm _ hc hw ih =>
    obtain ⟨x, ticket, hx, ht, hq, hon⟩ := ih hms
    exact ⟨x, ticket, hx, ht, hq, hon.arm hc hw⟩
  | rest _ hle hrest ih =>
    obtain ⟨x, ticket, hx, ht, hq, hon⟩ := ih hms
    exact ⟨x, ticket, hx, ht, hq, hon.rest hle hrest⟩

end Watches

/-! ## How the marks lie in time -/

/-- The marks that stand for activity. -/
def activities (ms : List (Nat × Mark)) : List (Nat × Mark) := ms.filter (·.2.isActivity)

theorem activities_append (ms ns : List (Nat × Mark)) :
    activities (ms ++ ns) = activities ms ++ activities ns :=
  List.filter_append ..

/-- What holds of a connection that is there, of its marks and of its alarm. -/
structure Attends (w : Nat) (ms : List (Nat × Mark)) (v : Vigil) (c : Connection) : Prop where
  /-- The connection remembers the last activity. -/
  last : (activities ms).getLast?.map Prod.fst = some c.activity.last
  /-- No activity was later. -/
  past : ∀ a ∈ activities ms, a.1 ≤ c.activity.last
  /-- No activity is still to come. -/
  last_le : c.activity.last ≤ v.now
  /-- The alarm is set for the time at which the connection is due, or an earlier time. -/
  armed : ∀ d ∈ v.alarm?, d ≤ c.activity.last + w
  /-- As long as the connection reads, it is not overdue. -/
  awake : c.reader = .reading → v.now ≤ c.activity.last + w
  /-- As long as the connection reads, there is never a longer time than the window between one
  activity and the next. -/
  dense : c.reader = .reading → (activities ms).IsChain fun a b => b.1 ≤ a.1 + w

/-- How the marks of a connection lie in time. -/
structure Regular (w i : Nat) (ms : List (Nat × Mark)) (v : Vigil) : Prop where
  /-- The connector is sound. -/
  sound : v.connector.Sound
  /-- Heartbeats are on. -/
  window : v.connector.window? = some w
  /-- Nothing is marked before the connection is opened. -/
  unopened : v.connector.connection? i = none → ms = [] ∧ v.alarm? = none
  /-- Activities follow each other, and each heartbeat is by the window later than all of them. -/
  spaced : (activities ms).Pairwise fun a b => a.1 ≤ b.1 ∧ (b.2 = .heartbeat → a.1 + w ≤ b.1)
  /-- The connection keeps to its alarm. -/
  attends : ∀ c, v.connector.connection? i = some c → Attends w ms v c

/-- Nothing is marked for a connection that is not opened. -/
theorem mark?_of_unopened {t : Turn} (hc : k.connection? i = none)
    (hd : (k.turn now t).connection? i = none) : k.mark? i now t = none := by
  cases t with
  | init => rfl
  | ask r => rfl
  | openConnection =>
    rw [turn, connection?_openConnection, hc, Option.none_or] at hd
    rw [mark?]
    split
    · next hid =>
      rw [if_pos hid] at hd
      cases hd
    · rfl
  | happening id h =>
    rw [mark?, hc]
    split <;> rfl

/-- What a turn makes of a connection: it records what the turn counts for, and makes a stride. -/
theorem Sound.exists_turned (hk : k.Sound) {c : Connection} (hc : k.connection? i = some c)
    (now : Nat)
    (t : Turn) : ∃ d, (k.turn now t).connection? i = some d ∧
      d.activity = recorded c.activity now (k.mark? i now t) ∧ Stride now c d := by
  have hid : k.nextId ≠ i := by
    rintro rfl
    cases (connection?_nextId hk.numbered).symm.trans hc
  obtain ⟨d, hd, hrecorded⟩ := records_turn hid now t c hc
  obtain ⟨d', hd', hstride⟩ := exists_stride k now t i c hc
  cases hd.symm.trans hd'
  exact ⟨d, hd, hrecorded, hstride⟩

namespace Attends

variable {ms ns : List (Nat × Mark)} {u v : Vigil} {c d : Connection}

/-- A connection that has just been opened. -/
theorem start (id bound : Nat) (v : Vigil) (hv : v.alarm? = none) :
    Attends w [(v.now, .opened)] v (.start id bound v.now) where
  last := rfl
  past a ha := by
    rw [List.mem_singleton.1 ha]
    exact Nat.le_refl _
  last_le := Nat.le_refl _
  armed d hd := by
    rw [hv] at hd
    cases hd
  awake _ := Nat.le_add_right ..
  dense _ := List.isChain_singleton _

/-- A turn that counts for nothing. -/
theorem quiet (h : Attends w ms v c) (hns : activities ns = []) (ha : d.activity = c.activity)
    (hr : d.reader = .reading → c.reader = .reading) {k : Connector} :
    Attends w (ms ++ ns) { v with connector := k } d := by
  have hms : activities (ms ++ ns) = activities ms := by
    rw [activities_append, hns, List.append_nil]
  refine ⟨?_, ?_, ?_, ?_, fun hd => ?_, fun hd => ?_⟩
  · rw [hms, ha]
    exact h.last
  · rw [hms, ha]
    exact h.past
  · rw [ha]
    exact h.last_le
  · rw [ha]
    exact h.armed
  · rw [ha]
    exact h.awake (hr hd)
  · rw [hms]
    exact h.dense (hr hd)

/-- A turn that counts as activity. -/
theorem active (h : Attends w ms v c) {m : Mark} (hm : m.isActivity = true)
    (ha : d.activity = c.activity.record v.now) (hr : d.reader = .reading → c.reader = .reading)
    {k : Connector} : Attends w (ms ++ [(v.now, m)]) { v with connector := k } d := by
  have hms : activities (ms ++ [(v.now, m)]) = activities ms ++ [(v.now, m)] := by
    rw [activities_append]
    congr 1
    exact List.filter_cons_of_pos hm
  have hnow : d.activity.last = v.now := by
    rw [ha]
    exact Nat.max_eq_right h.last_le
  refine ⟨?_, fun a hmem => ?_, ?_, fun d' hd' => ?_, fun _ => ?_, fun hd => ?_⟩
  · rw [hms, hnow, List.getLast?_concat]
    rfl
  · rw [hnow]
    rw [hms, List.mem_append, List.mem_singleton] at hmem
    rcases hmem with hmem | rfl
    · exact Nat.le_trans (h.past a hmem) h.last_le
    · exact Nat.le_refl _
  · exact Nat.le_of_eq hnow
  · rw [hnow]
    exact Nat.le_trans (h.armed d' hd') (Nat.add_le_add_right h.last_le w)
  · rw [hnow]
    exact Nat.le_add_right ..
  · rw [hms, List.isChain_append]
    refine ⟨h.dense (hr hd), List.isChain_singleton _, fun a hlast b hb => ?_⟩
    rw [List.head?_cons, Option.mem_some_iff] at hb
    subst hb
    have hlast' := h.last
    rw [hlast, Option.map_some, Option.some.injEq] at hlast'
    rw [hlast']
    exact h.awake (hr hd)

/-- The reading side sets its alarm for the time at which the connection is due. -/
theorem arm (h : Attends w ms v c) :
    Attends w ms { v with alarm? := some (c.activity.deadline w) } c where
  last := h.last
  past := h.past
  last_le := h.last_le
  armed d hd := by
    cases hd
    exact Nat.le_refl _
  awake := h.awake
  dense := h.dense

/-- Time passes, not beyond the alarm. -/
theorem rest (h : Attends w ms v c) {later : Nat} (hle : v.now ≤ later)
    (hrest : c.reader = .reading → ∃ d, v.alarm? = some d ∧ later ≤ d) :
    Attends w ms { v with now := later } c where
  last := h.last
  past := h.past
  last_le := Nat.le_trans h.last_le hle
  armed := h.armed
  awake hr := by
    obtain ⟨d, hd, hlater⟩ := hrest hr
    exact Nat.le_trans hlater (h.armed d hd)
  dense := h.dense

end Attends

namespace Regular

variable {ms : List (Nat × Mark)} {v : Vigil}

theorem window?_turn (k : Connector) (now : Nat) (t : Turn) :
    (k.turn now t).window? = k.window? := by
  rw [window?, (advances_turn k now t).configured.1, window?]

/-- **A turn keeps the marks regular.** -/
theorem turn (h : Regular w i ms v) (t : Turn) :
    Regular w i (ms ++ ((v.connector.mark? i v.now t).map (v.now, ·)).toList)
      { v with connector := v.connector.turn v.now t } := by
  have hsound := h.sound.advances (advances_turn v.connector v.now t)
  have hwindow := (window?_turn v.connector v.now t).trans h.window
  cases hc : v.connector.connection? i with
  | none =>
    obtain ⟨rfl, halarm⟩ := h.unopened hc
    cases hd : (v.connector.turn v.now t).connection? i with
    | none =>
      rw [mark?_of_unopened hc hd]
      refine ⟨hsound, hwindow, fun _ => ⟨rfl, halarm⟩, List.Pairwise.nil, fun c hc => ?_⟩
      cases hd.symm.trans hc
    | some d =>
      obtain ⟨rfl, hid, bound, rfl⟩ := exists_start_of_turn hc hd
      rw [mark?, if_pos hid]
      refine ⟨hsound, hwindow, fun hn => ?_, List.pairwise_singleton .., fun c hc => ?_⟩
      · cases hd.symm.trans hn
      · cases hd.symm.trans hc
        exact .start v.connector.nextId bound
          { v with connector := v.connector.turn v.now .openConnection } halarm
  | some c =>
    obtain ⟨d, hd, hrecorded, hstride⟩ := h.sound.exists_turned hc v.now t
    have hattends := h.attends c hc
    have hunopened : (v.connector.turn v.now t).connection? i ≠ none := by
      rw [hd]
      nofun
    generalize hmark : v.connector.mark? i v.now t = m? at hrecorded ⊢
    rw [recorded] at hrecorded
    split at hrecorded
    · next hactive =>
      obtain ⟨m, rfl, hm⟩ := Option.any_eq_true .. |>.1 hactive
      refine ⟨hsound, hwindow, fun hn => absurd hn hunopened, ?_, fun c' hc' => ?_⟩
      · rw [activities_append, List.pairwise_append]
        refine ⟨h.spaced, List.Pairwise.sublist List.filter_sublist (List.pairwise_singleton ..),
          fun a ha b hb => ?_⟩
        obtain rfl := List.mem_singleton.1 (List.mem_of_mem_filter hb)
        have hpast := hattends.past a ha
        refine ⟨Nat.le_trans hpast hattends.last_le, fun hbeat => ?_⟩
        have hidle := isIdle_of_mark? hc h.window (hmark.trans (congrArg some hbeat))
        have hlast := hattends.last_le
        have hwindow : w ≤ v.now - c.activity.last := of_decide_eq_true hidle
        exact Nat.le_trans (Nat.add_le_add_right hpast w) (Nat.add_le_of_le_sub' hlast hwindow)
      · cases hd.symm.trans hc'
        exact hattends.active hm hrecorded hstride.reading
    · next hquiet =>
      have hnone : activities ((m?.map (v.now, ·)).toList) = [] := by
        cases m? with
        | none => rfl
        | some m => exact List.filter_cons_of_neg hquiet
      refine ⟨hsound, hwindow, fun hn => absurd hn hunopened, ?_, fun c' hc' => ?_⟩
      · rw [activities_append, hnone, List.append_nil]
        exact h.spaced
      · cases hd.symm.trans hc'
        exact hattends.quiet hnone hrecorded hstride.reading

theorem arm (h : Regular w i ms v) {c : Connection} (hc : v.connector.connection? i = some c) :
    Regular w i ms { v with alarm? := some (c.activity.deadline w) } where
  sound := h.sound
  window := h.window
  unopened hn := by cases hc.symm.trans hn
  spaced := h.spaced
  attends d hd := by
    cases hc.symm.trans hd
    exact (h.attends c hc).arm

theorem rest (h : Regular w i ms v) {later : Nat} (hle : v.now ≤ later)
    (hrest : v.RestsTill i later) : Regular w i ms { v with now := later } where
  sound := h.sound
  window := h.window
  unopened := h.unopened
  spaced := h.spaced
  attends c hc := (h.attends c hc).rest hle fun hr => hrest c w hc hr h.window

/-- **In every run in time the marks are regular.** -/
theorem of_watches {u : Vigil} (hu : u.connector.IsNew) (halarm : u.alarm? = none)
    (hw : u.connector.window? = some w) (h : Watches i u ms v) : Regular w i ms v := by
  induction h with
  | start =>
    have hnone : u.connector.connection? i = none := by
      rw [connection?, hu.1]
      rfl
    refine ⟨hu.sound, hw, fun _ => ⟨rfl, halarm⟩, List.Pairwise.nil, fun c hc => ?_⟩
    cases hnone.symm.trans hc
  | turn _ t ih => exact ih.turn t
  | arm _ hc hw' ih =>
    cases ih.window.symm.trans hw'
    exact ih.arm hc
  | rest _ hle hrest ih => exact ih.rest hle hrest

end Regular

/-! ## When heartbeats are queued -/

/-- When heartbeats are queued on a connection, in a run in time that has come to a moment. -/
structure HeartbeatTimes (i : Nat) (u : Vigil) (ms : List (Nat × Mark)) (v : Vigil) : Prop where
  /-- A heartbeat that is marked is an echo request that an alarm queued at that time: the
  connection accepted it, which is in the history from then on. -/
  queued : ∀ as t bs, ms = as ++ (t, .heartbeat) :: bs → ∃ x ticket, Watches i u as x ∧ x.now = t ∧
    x.Queues i ticket ∧ Watches i (x.alarmed i) bs v ∧
      .accepted i ticket (.echoRequest v.connector.version) ∈ v.connector.history
  /-- Every echo request that an alarm queues is marked as a heartbeat. -/
  marked : ∀ as x ticket bs, Watches i u as x → x.Queues i ticket →
    Watches i (x.alarmed i) bs v → Watches i u (as ++ (x.now, .heartbeat) :: bs) v
  /-- None is queued if heartbeats are off. -/
  off : v.connector.window? = none → ∀ t, (t, .heartbeat) ∉ ms
  /-- None is queued until the window has passed since every activity before it. -/
  due : ∀ w, v.connector.window? = some w → ∀ as t bs, ms = as ++ (t, .heartbeat) :: bs →
    ∀ a ∈ as, a.2 ≠ .refused → a.1 + w ≤ t
  /-- If none of the things that are marked happens within the window after an activity, unless
  behind a heartbeat, and the connection stays open, then one heartbeat is queued meanwhile, at the
  end of the window. -/
  once : ∀ w, v.connector.window? = some w → ∀ as a bs, ms = as ++ a :: bs → a.2 ≠ .refused →
    v.connector.state? i = some .connected → a.1 + w < v.now →
    (∀ cs b ds, bs = cs ++ b :: ds → b.1 ≤ a.1 + w → b.2 ≠ .heartbeat →
      ∃ e ∈ cs, e.2 = .heartbeat) →
      bs.filter (fun b => b.2 = .heartbeat ∧ b.1 ≤ a.1 + w) = [(a.1 + w, .heartbeat)]
  /-- Two heartbeats are at least the window apart. -/
  apart : ∀ w, v.connector.window? = some w → ∀ as t bs u cs,
    ms = as ++ (t, .heartbeat) :: (bs ++ (u, .heartbeat) :: cs) → t + w ≤ u

theorem isActivity_iff {m : Mark} : m.isActivity = true ↔ m ≠ .refused := by
  cases m <;> simp [Mark.isActivity]

/-- The window is never empty. -/
theorem window_pos (h : k.window? = some w) : 0 < w := by
  obtain ⟨n, hn, rfl⟩ := Option.map_eq_some_iff.1 h
  unfold Settings.heartbeat? at hn
  split at hn
  · next hon =>
    cases hn
    have hne : k.settings.idleTimeout.toNat ≠ 0 := fun hzero => hon.2 (UInt64.toNat_inj.1 hzero)
    omega
  · cases hn

namespace Regular

variable {ms as bs : List (Nat × Mark)} {a : Nat × Mark} {v : Vigil} {t : Nat}

/-- A heartbeat is queued by the window later than every activity before it. -/
theorem due (h : Regular w i ms v) (hms : ms = as ++ (t, .heartbeat) :: bs) (ha : a ∈ as)
    (hactive : a.2 ≠ .refused) : a.1 + w ≤ t := by
  have hspaced := h.spaced
  rw [hms, activities_append, List.pairwise_append] at hspaced
  refine (hspaced.2.2 a (List.mem_filter.2 ⟨ha, isActivity_iff.2 hactive⟩) (t, .heartbeat) ?_).2 rfl
  exact List.mem_filter.2 ⟨List.mem_cons_self, rfl⟩

/-- Once a connection that stays open has gone beyond the window after an activity, there was
another one within the window. -/
theorem exists_next (h : Regular w i ms v) (hms : ms = as ++ a :: bs) (ha : a.2 ≠ .refused)
    (hopen : v.connector.state? i = some .connected) (hlate : a.1 + w < v.now) :
    ∃ b rest, activities bs = b :: rest ∧ b.1 ≤ a.1 + w := by
  obtain ⟨c, hc, hstate⟩ := Option.map_eq_some_iff.1 hopen
  have hattends := h.attends c hc
  have hreading : c.reader = .reading := by
    have hcourse := h.sound.course i
    rw [face?, hc] at hcourse
    exact hcourse.reading_of_not_closing (by rw [hstate]; rfl)
  have hawake := hattends.awake hreading
  have hacts : activities ms = activities as ++ a :: activities bs := by
    rw [hms, activities_append]
    congr 1
    exact List.filter_cons_of_pos (isActivity_iff.2 ha)
  cases hbs : activities bs with
  | nil =>
    have hlast := hattends.last
    rw [hacts, hbs, List.getLast?_concat, Option.map_some, Option.some.injEq] at hlast
    omega
  | cons b rest =>
    have hdense := hattends.dense hreading
    rw [hacts, hbs, List.isChain_append, List.isChain_cons_cons] at hdense
    exact ⟨b, rest, rfl, hdense.2.1.1⟩

/-- The first of the marks that stand for activity, and what is around it. -/
theorem exists_split {ns rest : List (Nat × Mark)} {b : Nat × Mark}
    (h : activities ns = b :: rest) : ∃ cs ds, ns = cs ++ b :: ds ∧ ∀ e ∈ cs, e.2 = .refused := by
  obtain ⟨cs, ds, rfl, hcs, -, -⟩ := List.filter_eq_cons_iff.1 h
  refine ⟨cs, ds, rfl, fun e he => ?_⟩
  by_contra hne
  exact hcs e he (isActivity_iff.2 hne)

/-- If nothing happens within the window after an activity, one heartbeat is queued at its end. -/
theorem once (h : Regular w i ms v) (hw : 0 < w) (hms : ms = as ++ a :: bs) (ha : a.2 ≠ .refused)
    (hopen : v.connector.state? i = some .connected) (hlate : a.1 + w < v.now)
    (hquiet : ∀ cs b ds, bs = cs ++ b :: ds → b.1 ≤ a.1 + w → b.2 ≠ .heartbeat →
      ∃ e ∈ cs, e.2 = .heartbeat) :
    bs.filter (fun b => b.2 = .heartbeat ∧ b.1 ≤ a.1 + w) = [(a.1 + w, .heartbeat)] := by
  obtain ⟨⟨t, m⟩, rest, hnext, hle⟩ := h.exists_next hms ha hopen hlate
  obtain ⟨cs, ds, rfl, hcs⟩ := exists_split hnext
  -- The next activity is the heartbeat, since nothing else comes before it.
  have hbeat : m = .heartbeat := by
    by_contra hne
    obtain ⟨e, he, hebeat⟩ := hquiet cs (t, m) ds rfl hle hne
    cases (hcs e he).symm.trans hebeat
  subst hbeat
  have hsplit : ms = (as ++ a :: cs) ++ (t, .heartbeat) :: ds := by
    rw [hms, List.append_assoc, List.cons_append]
  have htime : t = a.1 + w := by
    refine Nat.le_antisymm hle (h.due hsplit ?_ ha)
    exact List.mem_append_right _ List.mem_cons_self
  subst htime
  have hbefore : cs.filter (fun b => b.2 = .heartbeat ∧ b.1 ≤ a.1 + w) = [] := by
    refine List.filter_eq_nil_iff.2 fun e he => ?_
    rw [hcs e he]
    simp
  have hbehind : ds.filter (fun b => b.2 = .heartbeat ∧ b.1 ≤ a.1 + w) = [] := by
    refine List.filter_eq_nil_iff.2 fun e he => ?_
    obtain ⟨u, n⟩ := e
    simp only [decide_eq_true_eq, not_and]
    rintro rfl hu
    obtain ⟨es, fs, rfl⟩ := List.append_of_mem he
    have hagain : ms = (as ++ a :: cs ++ (a.1 + w, .heartbeat) :: es) ++ (u, .heartbeat) :: fs := by
      rw [hsplit]
      simp only [List.append_assoc, List.cons_append]
    have := h.due hagain (List.mem_append_right _ List.mem_cons_self) (by nofun)
    omega
  rw [List.filter_append, hbefore, List.filter_cons_of_pos (by simp), hbehind, List.nil_append]

end Regular

/-- Without a window nothing is marked as a heartbeat. -/
theorem not_mem_of_off {i : Nat} {u v : Vigil} {ms : List (Nat × Mark)} (h : Watches i u ms v)
    (hoff : v.connector.window? = none) (t : Nat) : (t, .heartbeat) ∉ ms := by
  induction h with
  | start => exact List.not_mem_nil
  | @turn ms v _ turn ih =>
    rw [Regular.window?_turn] at hoff
    rw [List.mem_append, not_or]
    refine ⟨ih hoff, fun hmem => ?_⟩
    obtain ⟨m, hm, heq⟩ := Option.map_eq_some_iff.1 (Option.mem_toList.1 hmem)
    cases heq
    obtain ⟨-, c, -, -, -, hdue, -⟩ := exists_of_mark? hm
    rw [isDue, hoff] at hdue
    cases hdue
  | arm _ _ _ ih => exact ih hoff
  | rest _ _ _ ih => exact ih hoff

/-- **When heartbeats are queued**, in every run in time of a connection, whatever is received,
written, sent and closed and whenever. -/
theorem heartbeats {u v : Vigil} {ms : List (Nat × Mark)} (hu : u.connector.IsNew)
    (halarm : u.alarm? = none) (h : Watches i u ms v) : HeartbeatTimes i u ms v := by
  have regular (w : Nat) (hw : v.connector.window? = some w) : Regular w i ms v := by
    refine .of_watches hu halarm ?_ h
    rwa [window?, ← h.advances.configured.1]
  constructor
  case queued =>
    intro as t bs hms
    obtain ⟨x, ticket, hx, ht, hq, hon⟩ := h.exists_queues hms
    refine ⟨x, ticket, hx, ht, hq, hon, ?_⟩
    have hversion : v.connector.version = x.connector.version :=
      hon.advances.configured.2.1.trans (advances_turn _ _ _).configured.2.1
    rw [hversion]
    refine hon.advances.history.subset ?_
    rw [hq]
    exact List.mem_append_right _ (List.mem_singleton.2 rfl)
  case marked =>
    intro as x ticket bs hx hq hon
    have hwhole := (hx.heartbeat hq).trans hon
    rwa [List.append_assoc] at hwhole
  case off => exact not_mem_of_off h
  case due =>
    intro w hw as t bs hms a ha hactive
    exact (regular w hw).due hms ha hactive
  case once =>
    intro w hw as a bs hms ha hopen hlate hquiet
    exact (regular w hw).once (window_pos hw) hms ha hopen hlate hquiet
  case apart =>
    intro w hw as t bs t' cs hms
    have hsplit : ms = (as ++ (t, .heartbeat) :: bs) ++ (t', .heartbeat) :: cs := by
      rw [hms, List.append_assoc, List.cons_append]
    exact (regular w hw).due hsplit (List.mem_append_right _ List.mem_cons_self) (by nofun)

/-- A connector with heartbeats after a second. -/
def Vigil.secondly : Vigil where
  connector := { settings := { Settings.default with answerEchoes := true, idleTimeout := 1 } }
  now := 0

/-- The heartbeats of a connection over which nothing passes for one second and a half. -/
theorem heartbeats_of_quiet_connection :
    ∃ v, Watches 1 .secondly [(0, .opened), (1000, .heartbeat)] v ∧ v.now = 1500 ∧
      v.connector.state? 1 = some .connected ∧
      [(1000, Mark.heartbeat)].filter (fun b => b.2 = .heartbeat ∧ b.1 ≤ 0 + 1000) =
        [(0 + 1000, .heartbeat)] ∧
      ∃ ticket, .accepted 1 ticket (.echoRequest v.connector.version) ∈ v.connector.history := by
  let opened : Connector := Vigil.secondly.connector.turn 0 .openConnection
  let beaten : Connector := opened.turn 1000 (.happening 1 .alarm)
  have hwindow : opened.window? = some 1000 := by decide
  have hopened : Watches 1 .secondly [(0, .opened)] ⟨opened, 0, none⟩ :=
    .turn .start .openConnection
  have harmed : Watches 1 .secondly [(0, .opened)] ⟨opened, 0, some 1000⟩ :=
    .arm hopened (c := .start 1 _ 0) rfl hwindow
  have hwaited : Watches 1 .secondly [(0, .opened)] ⟨opened, 1000, some 1000⟩ :=
    .rest harmed (by decide) fun _ _ _ _ _ => ⟨1000, rfl, Nat.le_refl _⟩
  have hmark : opened.mark? 1 1000 (.happening 1 .alarm) = some .heartbeat := by decide
  have hbeaten :
      Watches 1 .secondly [(0, .opened), (1000, .heartbeat)] ⟨beaten, 1000, some 1000⟩ := by
    have hturn := hwaited.turn (.happening 1 .alarm)
    rwa [hmark] at hturn
  have hwindow' : beaten.window? = some 1000 := (Regular.window?_turn ..).trans hwindow
  have hlast' : (beaten.connection? 1).map (·.activity.last) = some 1000 := by decide
  obtain ⟨c, hc, hlast⟩ := Option.map_eq_some_iff.1 hlast'
  have hopen : beaten.state? 1 = some .connected := by decide
  clear_value beaten
  have hagain := hbeaten.arm hc hwindow'
  have hrested : Watches 1 .secondly [(0, .opened), (1000, .heartbeat)]
      ⟨beaten, 1500, some (c.activity.deadline 1000)⟩ := by
    have hlater : 1000 ≤ 1500 := by decide
    refine hagain.rest hlater fun _ _ _ _ _ => ⟨_, rfl, ?_⟩
    rw [Activity.deadline, hlast]
    decide
  have hsooner : 0 + 1000 < 1500 := by decide
  have htimes := heartbeats ⟨rfl, rfl⟩ rfl hrested
  refine ⟨_, hrested, rfl, hopen, ?_, ?_⟩
  · refine htimes.once 1000 hwindow' [] (0, .opened) _ rfl (by nofun) hopen hsooner
      fun cs b ds hbs _ hne => ?_
    cases cs with
    | nil =>
      cases hbs
      exact absurd rfl hne
    | cons e es => simp at hbs
  · obtain ⟨-, ticket, -, -, -, -, hmem⟩ := htimes.queued [(0, .opened)] 1000 [] rfl
    exact ⟨ticket, hmem⟩

end Connector

end Interchange
