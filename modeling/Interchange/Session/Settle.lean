import Interchange.Session.Basic

/-!
# Settling

Everything that happens without time passing brings a session nearer to its end: something is read,
or a reading side goes down, or messages leave a queue, or a writer gets on, or a peer reads.
`settle` lets it happen until everything has to wait.
-/

namespace Interchange

namespace Connector

theorem connections_step_writer {k : Connector} {c : Connection} {e : Writer.Event} (now : Nat)
    (hc : k.connection? c.id = some c) (he : e ≠ .abandon)
    (hclosing : e = .closing → c.state.isClosing) :
    ∃ activity, (k.step c.id now (.writer e)).connections =
      Numbered.modify c.id
        (fun d => { d with writer := (c.writer.step k.settings.codec e).1, activity })
        k.connections := by
  have key : ∃ activity, (k.stepWriter c now e).connections =
      Numbered.modify c.id
        (fun d => { d with writer := (c.writer.step k.settings.codec e).1, activity })
        k.connections := ⟨_, rfl⟩
  cases e with
  | abandon => exact absurd rfl he
  | closing => simpa only [step, hc, hclosing rfl, ↓reduceIte] using key
  | wake => simpa only [step, hc] using key
  | wrote n => simpa only [step, hc] using key
  | failed text => simpa only [step, hc] using key
  | flushed => simpa only [step, hc] using key

theorem connections_windDown {k : Connector} {c : Connection} {id now : Nat}
    (hc : k.connection? id = some c) :
    ∃ f : Connection → Connection,
      (k.windDown id now).connections = Numbered.modify id f k.connections ∧
        (f c).reader.rank < 2 ∧ ∀ d, (f d).writer = d.writer := by
  simp only [windDown, hc]
  split
  · exact ⟨_, rfl, by simp [Connection.Reader.rank], fun _ => rfl⟩
  · refine ⟨_, rfl, by simp [Connection.Reader.rank], fun d => ?_⟩
    simp only [Connection.close]
    split <;> rfl

end Connector

namespace Session

theorem finding?_rank {k : Connector} {c : Connection} {l : Link} {h : Connector.Happening}
    (now : Nat) (hc : k.connection? c.id = some c)
    (hf : finding? c l = some h) :
    ∃ f : Connection → Connection, (k.step c.id now h).connections =
      Numbered.modify c.id f k.connections ∧ (f c).reader.rank < c.reader.rank ∧
      ∀ d, (f d).writer = d.writer := by
  unfold finding? at hf
  split at hf
  · next hr =>
    rw [hr]
    split at hf
    · next hcl =>
      cases hf
      simp only [Connector.step, hc, hr, Connector.stepReading, hcl, ↓reduceIte]
      exact Connector.connections_windDown hc
    · split at hf
      · cases hf
        simp only [Connector.step, hc, hr, Connector.stepReading]
        exact Connector.connections_windDown hc
      · split at hf
        · next he =>
          cases hf
          simp only [Connector.step, hc, hr, Connector.stepReading, he, ↓reduceIte]
          split
          · exact Connector.connections_windDown (k := k.publish _) hc
          · exact Connector.connections_windDown hc
        · cases hf
  · next hr =>
    split at hf
    · next he =>
      cases hf
      simp only [Connector.step, hc, hr, Connector.stepDraining, he, ↓reduceIte]
      exact ⟨_, rfl, by simp [Connection.Reader.rank], fun _ => rfl⟩
    · cases hf
  · cases hf

theorem less_iff {t s : Session} : Less t s ↔
    t.inputLeft < s.inputLeft ∨ t.inputLeft = s.inputLeft ∧
      (t.readersLeft < s.readersLeft ∨ t.readersLeft = s.readersLeft ∧
        (t.waitingLeft < s.waitingLeft ∨ t.waitingLeft = s.waitingLeft ∧
          (t.writingLeft < s.writingLeft ∨ t.writingLeft = s.writingLeft ∧
            t.outputLeft < s.outputLeft))) := by
  simp [Less, left, WellFoundedRelation.rel, Prod.lex_def, InvImage]

theorem inputMeasure_next? (closing : Bool) (w : Writer) (l : Link) :
    (Writer.next? Link.socket closing w l).2.inputMeasure = l.inputMeasure := by
  unfold Writer.next?
  split
  · split
    · rfl
    · split <;> rfl
  · rfl
  · split
    · rfl
    · simp only [Link.socket, Link.write]
      split
      · rfl
      · split <;> rfl
  · rfl

theorem next?_ne_abandon {σ : Type} {sock : Writer.Socket σ} {closing : Bool} {w : Writer}
    {s t : σ} {e : Writer.Event} (h : Writer.next? sock closing w s = (some e, t)) :
    e ≠ .abandon ∧ (e = .closing → closing = true) := by
  unfold Writer.next? at h
  have reply {a : Nat → Writer.Event} (r : Writer.Reply) (hr : r.event? a = some e)
      (ha : ∀ n, a n ≠ .abandon ∧ a n ≠ .closing) : e ≠ .abandon ∧ e ≠ .closing := by
    cases r <;> cases hr
    · exact ha _
    · exact ⟨nofun, nofun⟩
  split at h
  · split at h
    · cases h; exact ⟨nofun, nofun⟩
    · split at h
      · next hc => cases h; exact ⟨nofun, fun _ => hc⟩
      · cases h
  · cases h; exact ⟨nofun, nofun⟩
  · split at h
    · obtain ⟨h1, h2⟩ := reply _ (Prod.mk.inj h).1 fun _ => ⟨nofun, nofun⟩
      exact ⟨h1, fun h => absurd h h2⟩
    · obtain ⟨h1, h2⟩ := reply _ (Prod.mk.inj h).1 fun _ => ⟨nofun, nofun⟩
      exact ⟨h1, fun h => absurd h h2⟩
  · cases h

theorem less_of_writes? {s t : Session} {c : Connection} {l : Link}
    (hc : s.connector.connection? c.id = some c) (hl : s.link? c.id = some l)
    (h : s.writes? c l = some t) : Less t s := by
  unfold writes? at h
  split at h
  · cases h
  · next e l' hn =>
    have ht := (Option.some.inj h).symm
    have hless := Writer.step_less_of_next? (c := s.connector.settings.codec) hn
    obtain ⟨hab, hcl⟩ := next?_ne_abandon hn
    obtain ⟨a, hk⟩ := Connector.connections_step_writer s.now hc hab hcl
    have hm : l'.inputMeasure = l.inputMeasure := by
      have := inputMeasure_next? c.state.isClosing c.writer l
      rwa [hn] at this
    have hin : t.inputLeft + l.inputMeasure = s.inputLeft + l.inputMeasure := by
      rw [ht]
      refine (Numbered.total_modify Link.inputMeasure _ hl).trans ?_
      congr 1
      split <;> exact hm
    have hd : t.readersLeft + c.reader.rank = s.readersLeft + c.reader.rank := by
      rw [ht, readersLeft, hk]
      exact Numbered.total_modify (fun d : Connection => d.reader.rank) _ hc
    have hw : t.waitingLeft + c.writer.backlog = s.waitingLeft +
        (c.writer.step s.connector.settings.codec e).1.backlog := by
      rw [ht, waitingLeft, hk]
      exact Numbered.total_modify (fun d : Connection => d.writer.backlog) _ hc
    have hr : t.writingLeft + Writer.rank c.writer.phase = s.writingLeft +
        Writer.rank (c.writer.step s.connector.settings.codec e).1.phase := by
      rw [ht, writingLeft, hk]
      exact Numbered.total_modify (fun d : Connection => Writer.rank d.writer.phase) _ hc
    simp only [Writer.Less, Prod.lex_def] at hless
    rw [less_iff]
    omega

theorem less_of_reads? {s t : Session} {c : Connection} {l : Link}
    (hc : s.connector.connection? c.id = some c) (hl : s.link? c.id = some l)
    (h : s.reads? c l = some t) : Less t s := by
  unfold reads? at h
  split at h
  · next hr =>
    have ht := (Option.some.inj h).symm
    have hne : 0 < l.incoming.length := by
      simp only [Bool.and_eq_true, Bool.not_eq_true', List.isEmpty_eq_false_iff] at hr
      exact List.length_pos_iff.2 hr.2
    have hin : t.inputLeft + l.inputMeasure = s.inputLeft + l.dropChunk.inputMeasure := by
      rw [ht]
      exact Numbered.total_modify Link.inputMeasure (fun _ => l.dropChunk) hl
    have : l.dropChunk.inputMeasure < l.inputMeasure := by
      simp only [Link.inputMeasure, Link.dropChunk, Link.readLimit, List.length_drop]
      omega
    exact less_iff.2 (.inl (by omega))
  · split at h
    · cases h
    · next hap hf =>
      have ht := (Option.some.inj h).symm
      obtain ⟨f, hk, hrank, -⟩ := finding?_rank s.now hc hf
      have hd : t.readersLeft + c.reader.rank = s.readersLeft + (f c).reader.rank := by
        rw [ht, readersLeft, hk]
        exact Numbered.total_modify (fun d : Connection => d.reader.rank) f hc
      have hin : t.inputLeft = s.inputLeft := by rw [ht]; rfl
      exact less_iff.2 (.inr ⟨hin, .inl (by omega)⟩)

theorem less_of_peerReads? {s t : Session} {c : Connection} {l : Link}
    (hl : s.link? c.id = some l) (h : s.peerReads? c l = some t) : Less t s := by
  unfold peerReads? at h
  split at h
  · cases h
  · split at h
    · next ho =>
      have ht := (Option.some.inj h).symm
      have hne : 0 < l.outgoing.length := by
        simp only [Bool.not_eq_true', List.isEmpty_eq_false_iff] at ho
        exact List.length_pos_iff.2 ho
      have hin : t.inputLeft + l.inputMeasure = s.inputLeft + l.inputMeasure := by
        rw [ht]
        exact Numbered.total_modify Link.inputMeasure (fun _ => l.peerRead l.outgoing.length) hl
      have hout : t.outputLeft + l.outputMeasure =
          s.outputLeft + (l.peerRead l.outgoing.length).outputMeasure := by
        rw [ht]
        exact Numbered.total_modify Link.outputMeasure (fun _ => l.peerRead l.outgoing.length) hl
      have : (l.peerRead l.outgoing.length).outputMeasure < l.outputMeasure := by
        refine Nat.add_lt_add_right (m := l.outgoing.length) ?_ _
        simp only [Link.peerRead, List.length_drop]
        omega
      have hk : t.connector = s.connector := by rw [ht]; rfl
      exact less_iff.2 (.inr ⟨by omega, .inr ⟨by rw [readersLeft, hk, readersLeft],
        .inr ⟨by rw [waitingLeft, hk, waitingLeft], .inr ⟨by rw [writingLeft, hk, writingLeft],
          by omega⟩⟩⟩⟩)
    · split at h
      · next hs =>
        have ht := (Option.some.inj h).symm
        have he : l.endSeen = false := by simp at hs; exact hs.2
        have hin : t.inputLeft + l.inputMeasure = s.inputLeft + l.inputMeasure := by
          rw [ht]
          exact Numbered.total_modify Link.inputMeasure (fun _ => { l with endSeen := true }) hl
        have hout : t.outputLeft + l.outputMeasure =
            s.outputLeft + ({ l with endSeen := true } : Link).outputMeasure := by
          rw [ht]
          exact Numbered.total_modify Link.outputMeasure (fun _ => { l with endSeen := true }) hl
        have : ({ l with endSeen := true } : Link).outputMeasure < l.outputMeasure := by
          simp [Link.outputMeasure, he]
        have hk : t.connector = s.connector := by rw [ht]; rfl
        exact less_iff.2 (.inr ⟨by omega, .inr ⟨by rw [readersLeft, hk, readersLeft],
          .inr ⟨by rw [waitingLeft, hk, waitingLeft], .inr ⟨by rw [writingLeft, hk, writingLeft],
            by omega⟩⟩⟩⟩)
      · cases h

theorem less_of_peerWrites? {s t : Session} {c : Connection} {l : Link}
    (hl : s.link? c.id = some l) (h : s.peerWrites? c l = some t) : Less t s := by
  unfold peerWrites? at h
  split at h
  · cases h
  · next hn =>
    have ht := (Option.some.inj h).symm
    simp only [Bool.or_eq_true, decide_eq_true_eq, List.isEmpty_iff, not_or] at hn
    obtain ⟨⟨-, ho⟩, hr⟩ := hn
    have hne : 0 < l.outbox.length := List.length_pos_iff.2 ho
    have hin : t.inputLeft + l.inputMeasure = s.inputLeft + l.deliver.inputMeasure := by
      rw [ht]
      exact Numbered.total_modify Link.inputMeasure (fun _ => l.deliver) hl
    have : l.deliver.inputMeasure < l.inputMeasure := by
      simp only [Link.inputMeasure, Link.deliver, List.length_drop, List.length_append,
        List.length_take]
      omega
    exact less_iff.2 (.inl (by omega))

theorem less_of_advance? {s t : Session} (h : s.advance? = some t) : Less t s := by
  obtain ⟨l, -, h⟩ := List.exists_of_findSome?_eq_some h
  unfold advanceAt? at h
  split at h
  · next c l' hc hl =>
    have hid : c.id = l.id := Numbered.number_of_get? hc
    rw [← hid] at hc hl
    simp only [Option.orElse_eq_or, Option.or_eq_some_iff] at h
    rcases h with (h | ⟨-, h⟩) | ⟨-, h⟩
    · exact less_of_writes? hc hl h
    · exact less_of_reads? hc hl h
    · rcases h with h | ⟨-, h⟩
      · exact less_of_peerReads? hl h
      · exact less_of_peerWrites? hl h
  · cases h

/-- Let everything happen that can happen without time passing. -/
def settle (s : Session) : Session :=
  match _h : s.advance? with
  | none => s
  | some t => settle t
termination_by s.left
decreasing_by exact less_of_advance? _h

end Session

end Interchange
