import Interchange.Proofs.Outbound.Traffic

/-!
# What messages come to

Where the socket does not fail, a message comes to its `verdict`: success where it can be framed,
and its own fault elsewhere. `refused` are those that cannot be framed, `frameBytes` the bytes of
the others. The signals of a writer are read in these terms here, once for all.
-/

namespace Interchange

namespace Writer

/-! ## Messages and their frames -/

/-- What a message comes to where the socket does not fail. -/
def verdict (c : Codec) (q : Queued) : Except Fault Unit := (frame c q.message).map fun _ => ()

/-- Whether a message can be framed. -/
def isFramable (c : Codec) (q : Queued) : Bool :=
  match frame c q.message with
  | .ok _ => true
  | .error _ => false

/-- The messages that can be framed. -/
def framable (c : Codec) (ms : List Queued) : List Queued := ms.filter (isFramable c)

/-- The frames of messages, one after the other. -/
def frameBytes (c : Codec) (ms : List Queued) : List UInt8 :=
  (framed c ms).flatMap (·.2.bytes)

/-- What becomes of the messages that cannot be framed. -/
def refused (c : Codec) (ms : List Queued) : List (Nat × Except Fault Unit) :=
  ms.filterMap fun q =>
    match frame c q.message with
    | .ok _ => none
    | .error f => some (q.ticket, .error f)

/-- What messages come to where the socket does not fail. -/
def verdicts (c : Codec) (ms : List Queued) : List (Nat × Except Fault Unit) :=
  ms.map fun q => (q.ticket, verdict c q)

/-- What is made known when frames are written and flushed. -/
def successes (es : List (Queued × Frame)) : List Signal :=
  es.flatMap fun e => [.logged e.1.message, .resolved e.1.ticket (.ok ())]

/-- Messages that all come to the same. -/
def allTo (r : Except Fault Unit) (ms : List Queued) : List (Nat × Except Fault Unit) :=
  ms.map fun q => (q.ticket, r)

section

variable {c : Codec} {q : Queued} {f : Frame} {e : Fault} {ms ns : List Queued}

theorem framed_append : framed c (ms ++ ns) = framed c ms ++ framed c ns := List.filterMap_append ..

theorem framed_cons_ok (h : frame c q.message = .ok f) :
    framed c (q :: ms) = (q, f) :: framed c ms := by
  simp [framed, h]

theorem framed_cons_error (h : frame c q.message = .error e) :
    framed c (q :: ms) = framed c ms := by
  simp [framed, h]

theorem isFramable_ok (h : frame c q.message = .ok f) : isFramable c q = true := by
  simp [isFramable, h]

theorem isFramable_error (h : frame c q.message = .error e) : isFramable c q = false := by
  simp [isFramable, h]

theorem exists_frame (h : isFramable c q = true) : ∃ f, frame c q.message = .ok f := by
  unfold isFramable at h
  split at h
  · next f hf => exact ⟨f, hf⟩
  · cases h

theorem map_framed (c : Codec) (ms : List Queued) : (framed c ms).map (·.1) = framable c ms := by
  induction ms with
  | nil => rfl
  | cons q ms ih =>
    cases h : frame c q.message with
    | ok f => simp [framable, framed_cons_ok h, isFramable_ok h, ih]
    | error e => simp [framable, framed_cons_error h, isFramable_error h, ih]

@[simp] theorem framable_nil : framable c [] = [] := rfl

@[simp] theorem frameBytes_nil : frameBytes c [] = [] := rfl

@[simp] theorem refused_nil : refused c [] = [] := rfl

@[simp] theorem allTo_nil (r : Except Fault Unit) : allTo r [] = [] := rfl

@[simp] theorem verdicts_append : verdicts c (ms ++ ns) = verdicts c ms ++ verdicts c ns :=
  List.map_append ..

@[simp] theorem framable_append : framable c (ms ++ ns) = framable c ms ++ framable c ns :=
  List.filter_append ..

@[simp] theorem frameBytes_append :
    frameBytes c (ms ++ ns) = frameBytes c ms ++ frameBytes c ns := by
  simp [frameBytes, framed_append]

theorem refused_cons_ok (h : frame c q.message = .ok f) : refused c (q :: ms) = refused c ms := by
  simp [refused, h]

theorem refused_cons_error (h : frame c q.message = .error e) :
    refused c (q :: ms) = (q.ticket, .error e) :: refused c ms := by
  simp [refused, h]

theorem verdict_ok (h : frame c q.message = .ok f) : verdict c q = .ok () := by
  simp [verdict, h, Except.map]

theorem verdict_error (h : frame c q.message = .error e) : verdict c q = .error e := by
  simp [verdict, h, Except.map]

/-- Messages come to their verdicts: refusal where there is no frame, and success elsewhere. -/
theorem perm_verdicts (c : Codec) (ms : List Queued) :
    (refused c ms ++ allTo (.ok ()) (framable c ms)).Perm (verdicts c ms) := by
  induction ms with
  | nil => exact .nil
  | cons q ms ih =>
    cases h : frame c q.message with
    | ok f =>
      simp only [refused_cons_ok h, framable, List.filter_cons_of_pos (isFramable_ok h),
        List.map_cons, verdicts, verdict_ok h, allTo]
      exact List.perm_middle.trans (.cons _ ih)
    | error e =>
      have hq : ¬ isFramable c q = true := by simp [isFramable_error h]
      simp only [refused_cons_error h, framable, List.filter_cons_of_neg hq, List.map_cons,
        verdicts, verdict_error h, List.cons_append]
      exact .cons _ ih

theorem mem_refused {t : Nat} {r : Except Fault Unit} (h : (t, r) ∈ refused c ms) :
    ∃ q ∈ ms, ∃ e, q.ticket = t ∧ r = .error e ∧ frame c q.message = .error e := by
  induction ms with
  | nil => simp at h
  | cons q ms ih =>
    cases hf : frame c q.message with
    | ok f =>
      obtain ⟨p, hp, e, hpe⟩ := ih (by rwa [refused_cons_ok hf] at h)
      exact ⟨p, .tail _ hp, e, hpe⟩
    | error e =>
      rw [refused_cons_error hf, List.mem_cons] at h
      rcases h with h | h
      · cases h
        exact ⟨q, .head _, e, rfl, rfl, hf⟩
      · obtain ⟨p, hp, e, hpe⟩ := ih h
        exact ⟨p, .tail _ hp, e, hpe⟩

theorem mem_refused_of_error (hq : q ∈ ms) (h : frame c q.message = .error e) :
    (q.ticket, .error e) ∈ refused c ms := by
  induction hq with
  | head ms =>
    rw [refused_cons_error h]
    exact .head _
  | @tail p ms _ ih =>
    cases hp : frame c p.message with
    | ok f => rwa [refused_cons_ok hp]
    | error e =>
      rw [refused_cons_error hp]
      exact .tail _ ih

/-- The bytes of a batch are the frames of the messages that it writes. -/
theorem bytes_of_entries {b : Batch} (h : b.entries = framed c ms) : b.bytes = frameBytes c ms := by
  have hparts : ∀ es : List (Queued × Frame),
      (Batch.parts (es.map (·.2))).flatten = es.flatMap (·.2.bytes) := by
    intro es
    induction es with
    | nil => rfl
    | cons e es ih => simpa [Batch.parts, Frame.bytes] using ih
  rw [Batch.bytes, Batch.frames, hparts, h, frameBytes]

end

/-! ## What is made known -/

section

open Signal

variable (c : Codec) (ms : List Queued)

@[simp] theorem reports_refusals : reports (refusals c ms) = { outcomes := refused c ms } := by
  induction ms with
  | nil => rfl
  | cons q ms ih =>
    cases h : frame c q.message with
    | ok f =>
      have hq : refusals c (q :: ms) = refusals c ms := by simp [refusals, h]
      rw [hq, ih, refused_cons_ok h]
    | error e =>
      have hq : refusals c (q :: ms) = .resolved q.ticket (.error e) :: refusals c ms := by
        simp [refusals, h]
      rw [hq, reports_cons, ih, refused_cons_error h]
      rfl

@[simp] theorem reports_drop :
    reports (drop ms) = { outcomes := allTo (.error .connectionClosed) ms } := by
  induction ms with
  | nil => rfl
  | cons q ms ih =>
    rw [drop, List.map_cons, reports_cons, ← drop, ih]
    rfl

@[simp] theorem reports_successes : reports (successes (framed c ms)) =
    { outcomes := allTo (.ok ()) (framable c ms), logged := (framable c ms).map (·.message) } := by
  rw [← map_framed]
  induction framed c ms with
  | nil => rfl
  | cons e es ih =>
    rw [successes, List.flatMap_cons, reports_append, ← successes, ih]
    rfl

@[simp] theorem completed_refused :
    Report.completed { outcomes := refused c ms } = [] := by
  rw [Report.completed, List.filterMap_eq_nil_iff]
  rintro ⟨t, r⟩ ht
  obtain ⟨_, _, e, _, rfl, _⟩ := mem_refused ht
  rfl

@[simp] theorem completed_allTo_error (e : Fault) :
    Report.completed { outcomes := allTo (.error e) ms } = [] := by
  rw [Report.completed, List.filterMap_eq_nil_iff]
  intro p hp
  obtain ⟨q, _, rfl⟩ := List.mem_map.1 hp
  rfl

@[simp] theorem completed_allTo_ok (ls : List Message) :
    Report.completed ⟨[], allTo (.ok ()) ms, ls⟩ = ms.map (·.ticket) := by
  rw [Report.completed, allTo, List.filterMap_map, ← List.filterMap_eq_map]
  rfl

@[simp] theorem reports_farewell (last : Bool) : reports (farewell last) = {} := by
  cases last <;> rfl

end

end Writer

end Interchange
