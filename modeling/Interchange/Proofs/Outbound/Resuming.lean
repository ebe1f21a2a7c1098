import Interchange.Proofs.Outbound.Traffic

/-!
# Writing a batch, write by write

A batch is written by as many writes as the socket makes of it. `Socket.recorded` keeps what a
socket is asked and how it answers, and `Transfer` is the writing of one batch so far, against a
socket that may change in any way from one request to the next while others use the queue.

* `Ask` says what one request can be and where it leads; `exists_ask` that the writer makes no
  other.
* `Underway` is the invariant of a batch that is not done: what was asked so far are writes, each of
  which accepted something, and the batch stands where their bytes end.
* `writes_resume` says what follows for a whole transfer, of the slices, of the number of writes, of
  the flush and of the end, and that the writing does end against a socket that always answers.
-/

namespace Interchange

namespace Writer

/-! ## What is asked of a socket -/

/-- What a socket was asked, and its answer. -/
inductive Asked where
  | write (slices : List (List UInt8)) (reply : Reply)
  | flush (reply : Reply)

namespace Asked

/-- The bytes that were accepted. -/
def accepted : Asked → List UInt8
  | .write slices (.accepted n) => slices.flatten.take n
  | _ => []

/-- Whether it is a write. -/
def isWrite : Asked → Bool
  | .write _ _ => true
  | .flush _ => false

/-- Why it ends the writing of a batch with a fault, if it does. -/
def fault? : Asked → Option String
  | .write _ (.accepted 0) => some "write zero"
  | .write _ (.failed text) => some text
  | .flush (.failed text) => some text
  | _ => none

theorem fault?_write_accepted (slices : List (List UInt8)) {n : Nat} (hn : 0 < n) :
    (write slices (.accepted n)).fault? = none := by
  cases n with
  | zero => exact absurd hn (Nat.lt_irrefl 0)
  | succ n => rfl

theorem accepted_of_fault? {a : Asked} {text : String} (h : a.fault? = some text) :
    a.accepted = [] := by
  unfold fault? at h
  split at h
  · simp [accepted]
  · rfl
  · rfl
  · cases h

end Asked

/-- The bytes that were accepted, taken together. -/
def accepted (asked : List Asked) : List UInt8 := asked.flatMap Asked.accepted

/-- How often a flush was asked for. -/
def flushes (asked : List Asked) : Nat := asked.countP fun a => !a.isWrite

@[simp] theorem accepted_append (xs ys : List Asked) :
    accepted (xs ++ ys) = accepted xs ++ accepted ys :=
  List.flatMap_append

@[simp] theorem accepted_singleton (a : Asked) : accepted [a] = a.accepted := by simp [accepted]

@[simp] theorem flushes_append (xs ys : List Asked) :
    flushes (xs ++ ys) = flushes xs + flushes ys :=
  List.countP_append

namespace Socket

variable {σ : Type}

/-- A socket that keeps what it was asked, with its answers. -/
def recorded (sock : Socket σ) : Socket (σ × List Asked) where
  write slices s :=
    ((sock.write slices s.1).1,
      ((sock.write slices s.1).2, s.2 ++ [.write slices (sock.write slices s.1).1]))
  flush s := ((sock.flush s.1).1, ((sock.flush s.1).2, s.2 ++ [.flush (sock.flush s.1).1]))
  shutdown s := (sock.shutdown s.1, s.2)

/-- A socket that answers whatever it is asked. -/
structure Prompt (sock : Socket σ) : Prop where
  write : ∀ slices s, (sock.write slices s).1 ≠ .blocked
  flush : ∀ s, (sock.flush s).1 ≠ .blocked

theorem Prompt.recorded {sock : Socket σ} (h : sock.Prompt) : sock.recorded.Prompt :=
  ⟨fun slices s => h.write slices s.1, fun s => h.flush s.1⟩

/-- A socket that accepts as many bytes of each write as a list says, and none when the list is at
its end. -/
def counting : Socket (List Nat) where
  write _ ns := (.accepted (ns.headD 0), ns.tail)
  flush ns := (.accepted 0, ns)
  shutdown := id

theorem prompt_counting : counting.Prompt where
  write _ _ h := by cases h
  flush _ h := by cases h

end Socket

/-! ## The writing of a batch -/

/-- The writer with a batch to write. Without frames it is done at once. -/
def withBatch (w : Writer) (b : Batch) : Writer :=
  if b.entries.isEmpty then w.release b.releases b.last else { w with phase := .writing b }

/-- That is how a writer starts to write messages. -/
theorem fst_start (c : Codec) (w : Writer) (ms : List Queued) (last : Bool) :
    (start c w ms last).1 = w.withBatch ⟨framed c ms, 0, ms.length, last⟩ := by
  simp only [start, withBatch]
  split <;> rfl

/-- The writing of a batch so far: where the writer stands, and what it has asked. -/
inductive Transfer (c : Codec) (w : Writer) (b : Batch) : Writer → List Asked → Prop
  /-- Nothing is asked yet. -/
  | start : Transfer c w b (w.withBatch b) []
  /-- Others use the queue. -/
  | queue {v : Writer} {asked : List Asked} (h : Transfer c w b v asked) (q : Queue) :
    Transfer c w b { v with queue := q } asked
  /-- The writer takes its next step against some socket. -/
  | ask {σ : Type} {sock : Socket σ} {closing : Bool} {v v' : Writer} {b' : Batch} {s s' : σ}
    {asked asked' : List Asked} {signals : List Signal} (h : Transfer c w b v asked)
    (hv : v.phase = .writing b')
    (hs : advance? c sock.recorded closing v (s, asked) = some (v', (s', asked'), signals)) :
    Transfer c w b v' asked'

/-- A writer that goes on comes by a place, from where it goes on in the same way. -/
def Passes {σ : Type} (c : Codec) (sock : Socket σ) (closing : Bool) (w : Writer) (s : σ)
    (v : Writer) (t : σ) : Prop :=
  ∃ signals, run c sock closing w s =
    ((run c sock closing v t).1, (run c sock closing v t).2.1,
      signals ++ (run c sock closing v t).2.2)

section

variable {σ : Type} {c : Codec} {sock : Socket σ} {closing : Bool} {w u v : Writer} {s t r : σ}
  {ss : List Signal}

theorem Passes.refl : Passes c sock closing w s w s := ⟨[], rfl⟩

theorem Passes.of_advance? (h : Passes c sock closing u t v r)
    (hs : advance? c sock closing w s = some (u, t, ss)) : Passes c sock closing w s v r := by
  obtain ⟨signals, he⟩ := h
  exact ⟨ss ++ signals, by rw [run_of_some hs, he, List.append_assoc]⟩

end

/-- What the writing of a batch came to, once it is over. -/
def Phase.result? : Phase → Option (Except Fault Unit)
  | .waiting => some (.ok ())
  | .ended outcome => some outcome
  | _ => none

/-! ## One request -/

/-- The event that an answer makes. -/
def Asked.event? : Asked → Option Event
  | .write _ reply => reply.event? .wrote
  | .flush reply => reply.event? fun _ => .flushed

/-- What is asked of a socket for a batch, and the socket after it. -/
def request {σ : Type} (sock : Socket σ) (b : Batch) (s : σ) : Asked × σ :=
  if b.slices.isEmpty then (.flush (sock.flush s).1, (sock.flush s).2)
  else (.write b.slices (sock.write b.slices s).1, (sock.write b.slices s).2)

/-- What is asked for a batch, and where the answer leads. -/
inductive Ask (b : Batch) : Asked → Phase → Prop
  /-- A write accepts something. -/
  | accept {n : Nat} (hs : b.slices ≠ []) (hn : 0 < n) :
    Ask b (.write b.slices (.accepted n))
      (.writing (b.accept (b.slices.flatten.take n).length))
  /-- A write accepts nothing or fails. -/
  | refuse {reply : Reply} {text : String} (hs : b.slices ≠ [])
    (ha : (Asked.write b.slices reply).fault? = some text) :
    Ask b (.write b.slices reply) (.ended (.error (.io text)))
  /-- The batch is flushed. -/
  | flush {n : Nat} (hs : b.slices = []) :
    Ask b (.flush (.accepted n)) (if b.last then .ended (.ok ()) else .waiting)
  /-- The flush fails. -/
  | flushFails {text : String} (hs : b.slices = []) :
    Ask b (.flush (.failed text)) (.ended (.error (.io text)))

section

variable {σ : Type} {c : Codec} {sock : Socket σ} {closing : Bool} {v : Writer} {b : Batch} {s : σ}
  {asked : List Asked}

theorem next?_of_writing (hv : v.phase = .writing b) :
    next? sock closing v s = ((request sock b s).1.event?, (request sock b s).2) := by
  simp only [next?, hv, request]
  split <;> rfl

/-- The answer is the same with the record, which grows by it. -/
theorem request_recorded :
    request sock.recorded b (s, asked) =
      ((request sock b s).1, ((request sock b s).2, asked ++ [(request sock b s).1])) := by
  unfold request
  split <;> rfl

/-- Where an answer leads. -/
theorem ask_of_event? {e : Event} (hv : v.phase = .writing b)
    (he : (request sock b s).1.event? = some e) :
    Ask b (request sock b s).1 (v.step c e).1.phase := by
  unfold request at he ⊢
  split at he
  · next hs =>
    have hs' : b.slices = [] := List.isEmpty_iff.1 hs
    simp only [hs, ↓reduceIte]
    cases hr : (sock.flush s).1 with
    | accepted n =>
      cases hr ▸ he
      simp only [step, hv, hs, ↓reduceIte]
      exact .flush hs'
    | failed text =>
      cases hr ▸ he
      simp only [step, hv]
      exact .flushFails hs'
    | blocked => cases hr ▸ he
  · next hs =>
    have hs' : b.slices ≠ [] := fun h => hs (List.isEmpty_iff.2 h)
    simp only [hs, Bool.false_eq_true, ↓reduceIte]
    cases hr : (sock.write b.slices s).1 with
    | accepted n =>
      cases hr ▸ he
      simp only [step, hv]
      split
      · next hn => exact .refuse hs' (by rw [hn]; rfl)
      · next hn => exact .accept hs' (Nat.pos_of_ne_zero hn)
    | failed text =>
      cases hr ▸ he
      simp only [step, hv]
      exact .refuse hs' rfl
    | blocked => cases hr ▸ he

/-- **Everything that the writer can do with a batch**: it asks one thing, and the record grows by
it. -/
theorem exists_ask {v' : Writer} {r : σ × List Asked} {signals : List Signal}
    (hv : v.phase = .writing b)
    (h : advance? c sock.recorded closing v (s, asked) = some (v', r, signals)) :
    ∃ a, r.2 = asked ++ [a] ∧ Ask b a v'.phase := by
  unfold advance? at h
  rw [next?_of_writing hv, request_recorded] at h
  cases he : (request sock b s).1.event? with
  | none => simp [he] at h
  | some e =>
    simp only [he, Option.some.injEq, Prod.mk.injEq] at h
    obtain ⟨rfl, rfl, -⟩ := h
    exact ⟨_, by split <;> rfl, ask_of_event? hv he⟩

/-- Against a socket that always answers, a writer with a batch takes a step. -/
theorem advance?_ne_none (hp : sock.Prompt) (hv : v.phase = .writing b) :
    advance? c sock closing v s ≠ none := by
  have answers {r : Reply} {f : Nat → Event} (hr : r ≠ .blocked) : r.event? f ≠ none := by
    intro h
    cases r with
    | accepted n => cases h
    | failed text => cases h
    | blocked => exact hr rfl
  have he : (request sock b s).1.event? ≠ none := by
    unfold request
    split
    · exact answers (hp.flush s)
    · exact answers (hp.write b.slices s)
  unfold advance?
  rw [next?_of_writing hv]
  split
  · next h => exact fun _ => he (congrArg Prod.fst h)
  · intro h
    cases h

end

/-! ## The course of a batch -/

/-- What was asked for a batch, one request after the other, and where that led. -/
inductive Course (b : Batch) : Phase → List Asked → Prop
  | start : Course b (.writing b) []
  | ask {b' : Batch} {a : Asked} {p : Phase} {asked : List Asked}
    (h : Course b (.writing b') asked) (ha : Ask b' a p) : Course b p (asked ++ [a])

/-- A batch that is not done: only writes were asked, each accepted something, and what is left
begins where the accepted bytes end. -/
structure Underway (b b' : Batch) (asked : List Asked) : Prop where
  batch : b' = { b with written := (accepted asked).length }
  isPrefix : accepted asked <+: b.bytes
  length_le : asked.length ≤ (accepted asked).length
  writes : ∀ a ∈ asked, a.isWrite ∧ a.fault? = none

namespace Underway

variable {b b' : Batch} {asked : List Asked}

theorem flatten_slices (h : Underway b b' asked) :
    b'.slices.flatten = b.bytes.drop (accepted asked).length := by
  rw [h.batch]
  exact Batch.flatten_slices _

theorem accepted_eq (h : Underway b b' asked) (hs : b'.slices = []) : accepted asked = b.bytes := by
  have hd := h.flatten_slices
  rw [hs, List.flatten_nil, eq_comm, List.drop_eq_nil_iff] at hd
  exact h.isPrefix.eq_of_length_le hd

theorem length_lt (h : Underway b b' asked) (hs : b'.slices ≠ []) :
    asked.length < b.bytes.length := by
  have hr := Batch.remaining_pos hs
  rw [← Batch.length_flatten_slices, h.flatten_slices, List.length_drop] at hr
  have := h.length_le
  omega

theorem flushes_eq (h : Underway b b' asked) : flushes asked = 0 :=
  List.countP_eq_zero.2 fun a ha => by simp [(h.writes a ha).1]

/-- Nothing is asked yet. -/
theorem start (h0 : b.written = 0) : Underway b b [] where
  batch := by
    cases b
    cases h0
    rfl
  isPrefix := List.nil_prefix
  length_le := Nat.le_refl 0
  writes a ha := absurd ha List.not_mem_nil

/-- A write that accepts something leaves a batch underway. -/
theorem accept {n : Nat} (h : Underway b b' asked) (hs : b'.slices ≠ []) (hn : 0 < n) :
    Underway b (b'.accept (b'.slices.flatten.take n).length)
      (asked ++ [.write b'.slices (.accepted n)]) where
  batch := by
    obtain rfl := h.batch
    simp [Batch.accept, Asked.accepted]
  isPrefix := by
    -- what is accepted now begins where the bytes accepted before end
    rw [accepted_append, accepted_singleton, Asked.accepted, h.flatten_slices]
    obtain ⟨rest, hr⟩ := h.isPrefix
    rw [← hr, List.drop_left, List.prefix_append_right_inj]
    exact List.take_prefix ..
  length_le := by
    have hr := Batch.remaining_pos hs
    have := h.length_le
    simp only [accepted_append, accepted_singleton, Asked.accepted, List.length_append,
      List.length_take, List.length_singleton, Batch.length_flatten_slices]
    omega
  writes a ha := by
    rcases List.mem_append.1 ha with ha | ha
    · exact h.writes a ha
    · cases List.mem_singleton.1 ha
      exact ⟨rfl, Asked.fault?_write_accepted _ hn⟩

end Underway

namespace Ask

variable {b : Batch} {a : Asked} {p : Phase}

theorem slices_of_write {slices : List (List UInt8)} {reply : Reply}
    (h : Ask b (.write slices reply) p) : slices = b.slices ∧ b.slices ≠ [] := by
  cases h with
  | accept hs hn => exact ⟨rfl, hs⟩
  | refuse hs ha => exact ⟨rfl, hs⟩

theorem slices_of_flush {reply : Reply} (h : Ask b (.flush reply) p) : b.slices = [] := by
  cases h with
  | flush hs => exact hs
  | flushFails hs => exact hs

theorem phase_of_fault {text : String} (h : Ask b a p) (ha : a.fault? = some text) :
    p = .ended (.error (.io text)) := by
  cases h with
  | accept hs hn =>
    rw [Asked.fault?_write_accepted _ hn] at ha
    cases ha
  | refuse hs hr => rw [Option.some.inj (hr.symm.trans ha)]
  | flush hs => cases ha
  | flushFails hs => cases ha; rfl

/-- Only a write that accepts something is followed by another request. -/
theorem accepted_of_writing {b' : Batch} (h : Ask b a (.writing b')) :
    b.slices ≠ [] ∧ ∃ n, 0 < n ∧ a = .write b.slices (.accepted n) ∧
      b' = b.accept (b.slices.flatten.take n).length := by
  generalize hp : Phase.writing b' = p at h
  cases h with
  | accept hs hn =>
    cases hp
    exact ⟨hs, _, hn, rfl, rfl⟩
  | refuse hs ha => cases hp
  | flush hs => split at hp <;> cases hp
  | flushFails hs => cases hp

/-- The others end the writing of a batch. -/
theorem result?_ne_none (h : Ask b a p) (hp : ∀ b', p ≠ .writing b') : p.result? ≠ none := by
  intro hnone
  cases h with
  | accept hs hn => exact hp _ rfl
  | refuse hs ha => cases hnone
  | flush hs => split at hnone <;> cases hnone
  | flushFails hs => cases hnone

/-- Their answers accept no bytes. -/
theorem accepted_eq_nil (h : Ask b a p) (hp : ∀ b', p ≠ .writing b') : a.accepted = [] := by
  cases h with
  | accept hs hn => exact absurd rfl (hp _)
  | refuse hs ha => exact Asked.accepted_of_fault? ha
  | flush hs => rfl
  | flushFails hs => rfl

end Ask

namespace Course

variable {b b' : Batch} {p : Phase} {asked : List Asked}

theorem underway (h0 : b.written = 0) (h : Course b (.writing b') asked) :
    Underway b b' asked := by
  generalize hp : Phase.writing b' = p at h
  induction h generalizing b' with
  | start =>
    cases hp
    exact .start h0
  | ask _ ha ih =>
    cases hp
    obtain ⟨hs, n, hn, rfl, rfl⟩ := ha.accepted_of_writing
    exact (ih rfl).accept hs hn

/-- Each request was made for the batch as the requests before it left it, and only a write that
accepted something was not the last. -/
theorem split {before after : List Asked} {a : Asked} (h : Course b p (before ++ a :: after)) :
    ∃ b' q, Course b (.writing b') before ∧ Ask b' a q ∧
      (after = [] ∧ q = p ∨ ∃ b'', q = .writing b'') := by
  generalize hx : before ++ a :: after = xs at h
  induction h generalizing after with
  | start => simp at hx
  | ask h ha ih =>
    rcases after.eq_nil_or_concat with rfl | ⟨after', y, rfl⟩
    · obtain ⟨rfl, hy⟩ := List.append_inj' hx rfl
      cases hy
      exact ⟨_, _, h, ha, .inl ⟨rfl, rfl⟩⟩
    · rw [List.concat_eq_append, ← List.cons_append, ← List.append_assoc] at hx
      obtain ⟨hxs, -⟩ := List.append_inj' hx rfl
      obtain ⟨b', q, hb, hq, ⟨-, rfl⟩ | hw⟩ := ih hxs
      · exact ⟨b', _, hb, hq, .inr ⟨_, rfl⟩⟩
      · exact ⟨b', q, hb, hq, .inr hw⟩

/-- A batch is underway, or one request after it was underway ended its writing. -/
theorem underway_or_over (h0 : b.written = 0) (h : Course b p asked) :
    (∃ b', p = .writing b' ∧ Underway b b' asked) ∨
      ∃ b' before a, asked = before ++ [a] ∧ Underway b b' before ∧ Ask b' a p ∧
        ∀ b'', p ≠ .writing b'' := by
  by_cases hp : ∃ b', p = .writing b'
  · obtain ⟨b', rfl⟩ := hp
    exact .inl ⟨b', rfl, h.underway h0⟩
  · have hp' : ∀ b', p ≠ .writing b' := fun b' hb => hp ⟨b', hb⟩
    cases h with
    | start => exact absurd rfl (hp' b)
    | ask h ha => exact .inr ⟨_, _, _, rfl, h.underway h0, ha, hp'⟩

end Course

/-! ## Whole transfers -/

/-- What is true of the writing of a batch at any time. -/
structure Resumes (b : Batch) (p : Phase) (asked : List Asked) : Prop where
  /-- Nothing is asked for a batch without frames. -/
  idle : b.entries = [] → asked = []
  /-- Each write is offered just what was not accepted before it, and no slice is empty. -/
  offers : ∀ before slices reply after, asked = before ++ .write slices reply :: after →
    slices.flatten = b.bytes.drop (accepted before).length ∧ slices ≠ [] ∧ ∀ s ∈ slices, s ≠ []
  /-- What was accepted is how the batch begins. -/
  isPrefix : accepted asked <+: b.bytes
  /-- There are no more writes than bytes. -/
  writes_le : asked.countP Asked.isWrite ≤ b.bytes.length
  /-- A flush is the last request, after all bytes are accepted. -/
  flushed : ∀ before reply after, asked = before ++ .flush reply :: after →
    after = [] ∧ accepted before = b.bytes
  /-- A write that accepts nothing or fails is the last request, as is a flush that fails, and makes
  the writer end with a fault; no flush comes before. -/
  breaks : ∀ before a after text, asked = before ++ a :: after → a.fault? = some text →
    after = [] ∧ flushes before = 0 ∧ p = .ended (.error (.io text))
  /-- While the batch is underway it is not flushed. -/
  underway : p.result? = none → flushes asked = 0
  /-- It succeeds with everything accepted and, unless it has no frames, flushed once. -/
  succeeds : p.result? = some (.ok ()) →
    accepted asked = b.bytes ∧ (b.entries ≠ [] → flushes asked = 1)
  /-- It comes to a fault by its last request only. -/
  fails : ∀ f, p.result? = some (.error f) →
    ∃ before a text, asked = before ++ [a] ∧ a.fault? = some text ∧ f = .io text

section

variable {b : Batch} {p : Phase} {asked : List Asked}

/-- A batch without frames is done at once. -/
theorem resumes_of_isEmpty (he : b.entries = []) :
    Resumes b (if b.last then .ended (.ok ()) else .waiting) [] where
  idle _ := rfl
  offers _ _ _ _ h := by simp at h
  isPrefix := List.nil_prefix
  writes_le := Nat.zero_le _
  flushed _ _ _ h := by simp at h
  breaks _ _ _ _ h := by simp at h
  underway _ := rfl
  succeeds _ := ⟨by simp [Batch.bytes, Batch.frames, Batch.parts, he, accepted], absurd he⟩
  fails f h := by split at h <;> cases h

theorem Course.isPrefix (h0 : b.written = 0) (h : Course b p asked) :
    accepted asked <+: b.bytes := by
  obtain ⟨b', -, hu⟩ | ⟨b', before, a, rfl, hu, ha, hp⟩ := h.underway_or_over h0
  · exact hu.isPrefix
  · simpa [ha.accepted_eq_nil hp] using hu.isPrefix

theorem Course.writes_le (h0 : b.written = 0) (h : Course b p asked) :
    asked.countP Asked.isWrite ≤ b.bytes.length := by
  have le {b' : Batch} {xs : List Asked} (hu : Underway b b' xs) :
      xs.countP Asked.isWrite ≤ b.bytes.length :=
    Nat.le_trans List.countP_le_length (Nat.le_trans hu.length_le hu.isPrefix.length_le)
  obtain ⟨b', -, hu⟩ | ⟨b', before, a, rfl, hu, ha, hp⟩ := h.underway_or_over h0
  · exact le hu
  · rw [List.countP_append]
    cases a with
    | write slices reply =>
      -- something was left to write, so fewer writes than bytes came before
      have hlt := hu.length_lt ha.slices_of_write.2
      have := List.countP_le_length (p := Asked.isWrite) (l := before)
      simp only [List.countP_singleton, Asked.isWrite, ↓reduceIte]
      omega
    | flush reply => simpa [List.countP_singleton, Asked.isWrite] using le hu

/-- **What a course of requests comes to.** -/
theorem Course.resumes (h0 : b.written = 0) (he : b.entries ≠ []) (h : Course b p asked) :
    Resumes b p asked where
  idle h' := absurd h' he
  offers before slices reply after hx := by
    subst hx
    obtain ⟨b', q, hb, ha, -⟩ := h.split
    obtain ⟨rfl, hs⟩ := ha.slices_of_write
    exact ⟨(hb.underway h0).flatten_slices, hs, fun s => Batch.ne_nil_of_mem_slices⟩
  isPrefix := h.isPrefix h0
  writes_le := h.writes_le h0
  flushed before reply after hx := by
    subst hx
    obtain ⟨b', q, hb, ha, ⟨rfl, -⟩ | ⟨b'', rfl⟩⟩ := h.split
    · exact ⟨rfl, (hb.underway h0).accepted_eq ha.slices_of_flush⟩
    · exact absurd ha.slices_of_flush ha.accepted_of_writing.1
  breaks before a after text hx hf := by
    subst hx
    obtain ⟨b', q, hb, ha, hq⟩ := h.split
    have hq' := ha.phase_of_fault hf
    rcases hq with ⟨rfl, rfl⟩ | ⟨b'', rfl⟩
    · exact ⟨rfl, (hb.underway h0).flushes_eq, hq'⟩
    · cases hq'
  underway hp := by
    obtain ⟨b', -, hu⟩ | ⟨b', before, a, rfl, hu, ha, hw⟩ := h.underway_or_over h0
    · exact hu.flushes_eq
    · exact absurd hp (ha.result?_ne_none hw)
  succeeds hp := by
    obtain ⟨b', rfl, hu⟩ | ⟨b', before, a, rfl, hu, ha, hw⟩ := h.underway_or_over h0
    · cases hp
    · cases ha with
      | accept hs hn => cases hp
      | refuse hs ha => cases hp
      | flush hs =>
        refine ⟨by simpa [Asked.accepted] using hu.accepted_eq hs, fun _ => ?_⟩
        rw [flushes_append, hu.flushes_eq]
        rfl
      | flushFails hs => cases hp
  fails f hp := by
    obtain ⟨b', rfl, hu⟩ | ⟨b', before, a, rfl, hu, ha, hw⟩ := h.underway_or_over h0
    · cases hp
    · cases ha with
      | accept hs hn => cases hp
      | refuse hs ha => cases hp; exact ⟨_, _, _, rfl, ha, rfl⟩
      | flush hs => split at hp <;> cases hp
      | flushFails hs => cases hp; exact ⟨_, _, _, rfl, rfl, rfl⟩

end

section

variable {c : Codec} {w v : Writer} {b : Batch} {asked : List Asked}

/-- A transfer is a course of requests, unless there is nothing to write. -/
theorem Transfer.course (h : Transfer c w b v asked) :
    b.entries = [] ∧ asked = [] ∧ v.phase = (if b.last then .ended (.ok ()) else .waiting) ∨
      b.entries ≠ [] ∧ Course b v.phase asked := by
  induction h with
  | start =>
    by_cases he : b.entries = []
    · exact .inl ⟨he, rfl, by simp [withBatch, he, release]⟩
    · exact .inr ⟨he, by simpa [withBatch, he] using Course.start⟩
  | queue h q ih => exact ih
  | ask h hv hs ih =>
    obtain ⟨a, ha, hask⟩ := exists_ask hv hs
    rcases ih with ⟨-, -, hp⟩ | ⟨he, hc⟩
    · rw [hv] at hp
      split at hp <;> cases hp
    · cases ha
      exact .inr ⟨he, .ask (hv ▸ hc) hask⟩

theorem Transfer.writing_or_over (h0 : b.written = 0) (h : Transfer c w b v asked) :
    (∃ b', v.phase = .writing b') ∨ v.phase.result? ≠ none := by
  rcases h.course with ⟨-, -, hp⟩ | ⟨-, hc⟩
  · refine .inr fun hnone => ?_
    rw [hp] at hnone
    split at hnone <;> cases hnone
  · obtain ⟨b', hp, -⟩ | ⟨_, _, _, -, -, ha, hp⟩ := hc.underway_or_over h0
    · exact .inl ⟨b', hp⟩
    · exact .inr (ha.result?_ne_none hp)

/-- Against a socket that always answers, a writer that goes on comes to the end of its batch. -/
theorem Transfer.exists_passes {σ : Type} {sock : Socket σ} {closing : Bool} {r : σ × List Asked}
    (h0 : b.written = 0) (hp : sock.Prompt) (h : Transfer c w b v r.2) :
    ∃ v' r', Transfer c w b v' r'.2 ∧ v'.phase.result? ≠ none ∧
      Passes c sock.recorded closing v r v' r' := by
  induction v, r using Writer.run.induct c sock.recorded closing with
  | case1 v r hn =>
    rcases h.writing_or_over h0 with ⟨b', hv⟩ | hv
    · exact absurd hn (advance?_ne_none hp.recorded hv)
    · exact ⟨v, r, h, hv, .refl⟩
  | case2 v r u r₁ ss hs v' t' more hrun ih =>
    rcases h.writing_or_over h0 with ⟨b', hv⟩ | hv
    · obtain ⟨v₁, r₂, h₁, hv₁, hpass⟩ := ih (.ask h hv hs)
      exact ⟨v₁, r₂, h₁, hv₁, hpass.of_advance? hs⟩
    · exact ⟨v, r, h, hv, .refl⟩

/-- A socket can accept any number of the bytes that are left. -/
theorem Transfer.write {b' : Batch} {n : Nat} (h : Transfer c w b v asked)
    (hv : v.phase = .writing b') (hs : b'.slices ≠ []) (hn : 0 < n) :
    Transfer c w b { v with phase := .writing (b'.accept (b'.slices.flatten.take n).length) }
      (asked ++ [.write b'.slices (.accepted n)]) := by
  have ha : advance? c Socket.counting.recorded false v ([n], asked) =
      some ({ v with phase := .writing (b'.accept (b'.slices.flatten.take n).length) },
        ([], asked ++ [.write b'.slices (.accepted n)]),
        [.sent (b'.slices.flatten.take n)]) := by
    have hn' : n ≠ 0 := Nat.pos_iff_ne_zero.1 hn
    unfold advance?
    rw [next?_of_writing hv, request_recorded]
    simp [request, hs, Socket.counting, Asked.event?, Reply.event?, step, hv, hn', endedWell]
  exact h.ask hv ha

/-- A socket can be flushed once nothing is left. -/
theorem Transfer.flush {b' : Batch} (h : Transfer c w b v asked) (hv : v.phase = .writing b')
    (hs : b'.slices = []) :
    Transfer c w b (v.complete b').1 (asked ++ [.flush (.accepted 0)]) := by
  have ha : advance? c Socket.counting.recorded false v ([], asked) =
      some ((v.complete b').1, ([], asked ++ [.flush (.accepted 0)]), (v.complete b').2) := by
    unfold advance?
    rw [next?_of_writing hv, request_recorded]
    simp [request, hs, Socket.counting, Socket.recorded, Asked.event?, Reply.event?, step, hv]
  exact h.ask hv ha

end

/-- **Vectored writes resume.** Whatever the frames of a batch, and however the socket answers, each
write is offered just what is left, without empty slices; there are no more writes than bytes; a
batch with frames is flushed once, when all of it is accepted; and a write that accepts nothing or
fails is the last request, with a prefix of the batch accepted. Against a socket that always
answers, the writing ends. -/
theorem writes_resume (c : Codec) (w : Writer) (es : List (Queued × Frame)) (releases : Nat)
    (last : Bool) :
    (∀ v asked, Transfer c w ⟨es, 0, releases, last⟩ v asked →
      Resumes ⟨es, 0, releases, last⟩ v.phase asked) ∧
    ∀ {σ : Type} (sock : Socket σ) (closing : Bool) (s : σ), sock.Prompt →
      ∃ v t asked, Transfer c w ⟨es, 0, releases, last⟩ v asked ∧ v.phase.result? ≠ none ∧
        Passes c sock.recorded closing (w.withBatch ⟨es, 0, releases, last⟩) (s, []) v
          (t, asked) := by
  refine ⟨fun v asked h => ?_, fun sock closing s hp => ?_⟩
  · rcases h.course with ⟨he, rfl, hv⟩ | ⟨he, hc⟩
    · rw [hv]
      exact resumes_of_isEmpty he
    · exact hc.resumes rfl he
  · have h0 : (⟨es, 0, releases, last⟩ : Batch).written = 0 := rfl
    obtain ⟨v, ⟨t, asked⟩, h⟩ := Transfer.exists_passes (r := (s, [])) h0 hp .start
    exact ⟨v, t, asked, h⟩

/-- Two frames, one without a prefix and one without a body, of which the socket accepts two bytes,
then three. -/
theorem writes_resume_across_frames :
    let b : Batch :=
      ⟨[(⟨0, .new 512⟩, ⟨[], [1, 2, 3]⟩), (⟨1, .new 512⟩, ⟨[4, 5], []⟩)], 0, 2, false⟩
    let asked : List Asked := [.write [[1, 2, 3], [4, 5]] (.accepted 2),
      .write [[3], [4, 5]] (.accepted 3), .flush (.accepted 0)]
    (∃ v, Transfer ⟨.raw, 64⟩ (new 4) b v asked ∧ Resumes b v.phase asked) ∧
    ∃ v t asked, v.phase.result? ≠ none ∧
      Passes ⟨.raw, 64⟩ Socket.counting.recorded false ((new 4).withBatch b) ([2, 3], []) v
        (t, asked) := by
  intro b asked
  have first : Transfer ⟨.raw, 64⟩ (new 4) b _ _ :=
    .write .start rfl (List.cons_ne_nil _ _) (n := 2) (by decide)
  have second := first.write rfl (List.cons_ne_nil _ _) (n := 3) (by decide)
  have third := second.flush rfl rfl
  obtain ⟨v, t, asked', -, hv, hpass⟩ :=
    (writes_resume ⟨.raw, 64⟩ (new 4) b.entries 2 false).2 Socket.counting false [2, 3]
      Socket.prompt_counting
  exact ⟨⟨_, third, (writes_resume _ _ _ _ _).1 _ _ third⟩, v, t, asked', hv, hpass⟩

end Writer

end Interchange
