import Interchange.Proofs.Frame.Reading
import Interchange.Proofs.Outbound.Accounting
import Interchange.Proofs.Pack.RoundTrip

/-!
# Messages without framing

Without framing nothing in the stream says where a message ends. The transport is to keep the
boundaries: it accepts each write as a whole, and the write arrives as one piece. What it keeps are
the boundaries of writes, though, and a writer puts all the messages that it has gathered into one
write. `boundaries_kept_iff` says when that is enough: the receiver gets each message by itself if
and only if every write carried one message. `boundary_lost` shows two messages that arrive as one.

`loads` are the messages that each write carries. `Carried` is the invariant that ties them to the
account of the writer (`Account`) and to what the socket got, and `Move.carried` is its step.
-/

namespace Interchange

/-! ## What a receiver makes of unframed pieces -/

namespace Decoder

variable {c : Codec} (hc : c.geometry.isFramed = false)

/-- The bodies that pushes give. -/
def emitted (rs : List (Except Fault (List (List UInt8)))) : List (List UInt8) :=
  rs.flatMap fun r =>
    match r with
    | .ok bodies => bodies
    | .error _ => []

theorem emitted_map_ok (bodies : List (List UInt8)) :
    emitted (bodies.map fun b => .ok [b]) = bodies := by
  simp [emitted, List.flatMap_map]

include hc in
theorem push_raw (d : Decoder) (piece : List UInt8) :
    d.push c piece = takeRaw c { d with buffer := d.buffer ++ piece } := by
  unfold push
  rw [dif_neg (by simp [hc])]

include hc in
/-- A push without framing gives one body at most. -/
theorem length_emitted_push_le (d : Decoder) (piece : List UInt8) :
    (emitted [(d.push c piece).1]).length ≤ 1 := by
  rw [push_raw hc]
  unfold takeRaw
  split
  · simp [emitted]
  · split
    · simp [emitted]
    · simp [emitted]

include hc in
theorem length_emitted_le (d : Decoder) (pieces : List (List UInt8)) :
    (emitted (pushAll c d pieces).1).length ≤ pieces.length := by
  induction pieces generalizing d with
  | nil => simp [pushAll, emitted]
  | cons p pieces ih =>
    have hfirst := length_emitted_push_le hc d p
    have hrest := ih (d.push c p).2
    simp only [emitted, pushAll, List.flatMap_cons, List.flatMap_nil, List.append_nil,
      List.length_append, List.length_cons] at hfirst hrest ⊢
    omega

include hc in
/-- Pieces that are neither empty nor too long are bodies. -/
theorem pushAll_raw {pieces : List (List UInt8)}
    (hp : ∀ p ∈ pieces, p ≠ [] ∧ p.length ≤ c.maxLength) :
    (pushAll c empty pieces).1 = pieces.map fun p => .ok [p] := by
  induction pieces with
  | nil => rfl
  | cons p pieces ih =>
    obtain ⟨hne, hle⟩ := hp p (by simp)
    have hpush : empty.push c p = (.ok [p], empty) := by
      rw [push_raw hc]
      simp [takeRaw, empty, hne, Nat.not_lt.2 hle]
    simp only [pushAll, hpush, List.map_cons]
    rw [ih fun q hq => hp q (by simp [hq])]

end Decoder

/-! ## What each write carries -/

namespace Signal

/-- The bytes of each write. -/
def pieces (ss : List Signal) : List (List UInt8) :=
  ss.filterMap fun s =>
    match s with
    | .sent bytes => some bytes
    | _ => none

@[simp] theorem pieces_active (ss : List Signal) : pieces (.active :: ss) = pieces ss := rfl

@[simp] theorem pieces_append (ss ts : List Signal) : pieces (ss ++ ts) = pieces ss ++ pieces ts :=
  List.filterMap_append ..

end Signal

namespace Writer

variable {c : Codec}

/-- The messages that a write carries. -/
def load (w : Writer) : Event → List (List Queued)
  | .wrote _ =>
    match w.phase with
    | .writing b => [b.entries.map (·.1)]
    | _ => []
  | _ => []

/-- Whether a socket that accepts bytes accepts all that it is offered. -/
def acceptsAll (w : Writer) : Event → Bool
  | .wrote n =>
    match w.phase with
    | .writing b => !b.slices.isEmpty && n == b.slices.flatten.length
    | _ => false
  | _ => true

theorem exists_batch_of_acceptsAll {w : Writer} {n : Nat} (h : w.acceptsAll (.wrote n) = true) :
    ∃ b, w.phase = .writing b ∧ b.slices ≠ [] ∧ n = b.slices.flatten.length := by
  simp only [acceptsAll] at h
  split at h
  · next b hb =>
    rw [Bool.and_eq_true] at h
    exact ⟨b, hb, by simpa using h.1, by simpa using h.2⟩
  · cases h

/-- The body of a message. -/
def body (q : Queued) : List UInt8 := Pack.serialize q.message

@[simp] theorem pieces_refusals (ms : List Queued) : Signal.pieces (refusals c ms) = [] := by
  rw [Signal.pieces, refusals, List.filterMap_filterMap, List.filterMap_eq_nil_iff]
  intro q _
  cases frame c q.message <;> rfl

@[simp] theorem pieces_drop (ms : List Queued) : Signal.pieces (drop ms) = [] := by
  rw [Signal.pieces, drop, List.filterMap_map, List.filterMap_eq_nil_iff]
  exact fun _ _ => rfl

@[simp] theorem pieces_farewell (last : Bool) : Signal.pieces (farewell last) = [] := by
  cases last <;> rfl

@[simp] theorem pieces_successes (es : List (Queued × Frame)) :
    Signal.pieces (successes es) = [] := by
  induction es with
  | nil => rfl
  | cons e es ih => exact ih

/-! ### Frames without a prefix -/

theorem frameBytes_framable (ms : List Queued) :
    frameBytes c (framable c ms) = frameBytes c ms := by
  induction ms with
  | nil => rfl
  | cons q ms ih =>
    cases h : frame c q.message with
    | ok f =>
      rw [framable, List.filter_cons_of_pos (isFramable_ok h), frameBytes, framed_cons_ok h,
        frameBytes, framed_cons_ok h, List.flatMap_cons, List.flatMap_cons]
      exact congrArg _ ih
    | error e =>
      rw [framable, List.filter_cons_of_neg (by simp [isFramable_error h]), frameBytes, frameBytes,
        framed_cons_error h]
      exact ih

variable (hc : c.geometry.isFramed = false)

include hc in
/-- Without framing a frame is the body of its message. -/
theorem bytes_of_frame_raw {q : Queued} {f : Frame} (h : frame c q.message = .ok f) :
    f.bytes = body q ∧ (body q).length ≤ c.maxLength := by
  unfold frame Codec.encode at h
  split at h
  · cases h
  · next hmax =>
    simp only [Geometry.encodePrefix, hc, Bool.false_eq_true, ↓reduceIte] at h
    cases h
    exact ⟨rfl, Nat.le_of_not_lt hmax⟩

include hc in
theorem frameBytes_raw (ms : List Queued) : frameBytes c ms = (framable c ms).flatMap body := by
  induction ms with
  | nil => rfl
  | cons q ms ih =>
    cases h : frame c q.message with
    | ok f =>
      rw [framable, List.filter_cons_of_pos (isFramable_ok h), frameBytes, framed_cons_ok h,
        List.flatMap_cons, List.flatMap_cons, (bytes_of_frame_raw hc h).1]
      exact congrArg _ ih
    | error e =>
      rw [framable, List.filter_cons_of_neg (by simp [isFramable_error h]), frameBytes,
        framed_cons_error h]
      exact ih

include hc in
/-- Messages without bytes are none. -/
theorem framable_eq_nil_iff (ms : List Queued) : framable c ms = [] ↔ frameBytes c ms = [] := by
  rw [frameBytes_raw hc, List.flatMap_eq_nil_iff]
  constructor
  · intro h q hq
    rw [h] at hq
    cases hq
  · intro h
    rw [List.eq_nil_iff_forall_not_mem]
    intro q hq
    have hpos := Pack.length_serialize_pos q.message
    rw [show Pack.serialize q.message = [] from h q hq] at hpos
    cases hpos

end Writer

/-! ## From writes to accounts -/

namespace Account

open Writer

/-- Of a batch, all bytes or none are written. -/
def IsWhole (c : Codec) (a : Account) : Prop :=
  a.offset = 0 ∨ a.offset = (frameBytes c a.flight).length

/-- The messages that writes have carried. -/
def carried (c : Codec) (a : Account) : List Queued :=
  framable c (if a.offset = 0 then a.done else a.done ++ a.flight)

theorem carried_prefix (c : Codec) (a : Account) : a.carried c <+: framable c a.messages := by
  unfold carried messages
  split
  · rw [List.append_assoc, framable_append]
    exact List.prefix_append ..
  · exact ⟨framable c a.held, framable_append.symm⟩

end Account

namespace Move

open Writer

variable {c : Codec} {a a' : Account} {e : Event} {ss : List Signal}

/-- What a move other than a write does to what writes have carried: nothing. -/
theorem carried (hc : c.geometry.isFramed = false) (h : Move c a e ss a') (hw : a.IsWhole c)
    (he : ∀ n, e ≠ .wrote n) :
    Signal.pieces ss = [] ∧ a'.IsWhole c ∧ a'.carried c = a.carried c := by
  cases h with
  | idle last => exact ⟨pieces_farewell last, hw, rfl⟩
  | start => exact ⟨pieces_refusals _, .inl rfl, rfl⟩
  | @skip done ms rest _ last hn =>
    have hms : framable c ms = [] := by rw [← map_framed, hn, List.map_nil]
    exact ⟨by simp, .inl rfl, by simp [Account.carried, hms]⟩
  | @accept _ _ _ _ n => exact absurd rfl (he n)
  | @complete done flight held offset last hb =>
    refine ⟨by simp, .inl rfl, ?_⟩
    simp only [Account.carried, ↓reduceIte, framable_append]
    split
    · next h0 =>
      have hnil : frameBytes c flight = [] := List.eq_nil_of_length_eq_zero (by omega)
      rw [(framable_eq_nil_iff hc flight).2 hnil, List.append_nil]
    · exact (framable_append ..).symm
  | lose => exact ⟨pieces_drop _, hw, rfl⟩

/-- Bytes get to the socket when it accepts them of a batch. -/
theorem of_pieces (h : Move c a e ss a') {bytes : List UInt8} (hs : Signal.pieces ss = [bytes]) :
    a' = { a with offset := a.offset + bytes.length } := by
  cases h with
  | idle last => simp at hs
  | start => simp at hs
  | skip hn => simp at hs
  | accept =>
    cases hs
    rfl
  | complete hb => simp at hs
  | lose => simp at hs

end Move

/-! ## Runs -/

namespace Outbound

open Writer

/-- The bytes of each write. -/
def pieces (o : Outbound) : List (List UInt8) := Signal.pieces o.signals

/-- The messages that the write of a step carries. -/
def load (o : Outbound) : Action → List (List Queued)
  | .writer e => o.writer.load e
  | _ => []

/-- The messages that each write of a run carries. -/
def loads (c : Codec) (o : Outbound) : List Action → List (List Queued)
  | [] => []
  | x :: xs => o.load x ++ loads c (o.step c x) xs

/-- Whether a socket that accepts bytes in a step accepts all that it is offered. -/
def acceptsAll (o : Outbound) : Action → Bool
  | .writer e => o.writer.acceptsAll e
  | _ => true

/-- Whether every write of a run is accepted as a whole. -/
def writesWhole (c : Codec) (o : Outbound) : List Action → Bool
  | [] => true
  | x :: xs => o.acceptsAll x && writesWhole c (o.step c x) xs

/-- What writes have carried, in terms of the account and of what the socket got. -/
structure Carried (c : Codec) (o : Outbound) (a : Account) (ls : List (List Queued)) : Prop where
  balanced : Balanced c o a
  whole : a.IsWhole c
  flatten : ls.flatten = a.carried c
  pieces : o.pieces = ls.map (frameBytes c)
  nonempty : ∀ l ∈ ls, l ≠ []

theorem pieces_step (c : Codec) (o : Outbound) (x : Action) :
    (o.step c x).pieces = o.pieces ++ Signal.pieces (o.emitted c x) := by
  rw [pieces, signals_step, Signal.pieces_append]
  rfl

namespace Carried

variable {c : Codec} {o : Outbound} {a : Account} {ls : List (List Queued)}

theorem new (c : Codec) (bound : Nat) : Carried c (new bound) {} [] :=
  ⟨.new c bound, .inl rfl, rfl, rfl, fun _ h => by cases h⟩

theorem withQueue (h : Carried c o a ls) {q : Queue} (hw : q.waiting = o.writer.queue.waiting)
    (hq : q.closed = o.writer.queue.closed) (ha : q.accepted = o.writer.queue.accepted) :
    Carried c (o.withQueue q) a ls :=
  ⟨h.balanced.withQueue hw hq ha, h.whole, h.flatten, h.pieces, h.nonempty⟩

/-- A message that is held is in no write. -/
theorem enqueue (h : Carried c o a ls) (m : Message) :
    ∃ a', Carried c (o.step c (.enqueue m)) a' ls := by
  obtain ⟨ms, ha⟩ := h.balanced.enqueue m
  refine ⟨_, ha, h.whole, h.flatten, ?_, h.nonempty⟩
  rw [pieces_step, h.pieces]
  exact List.append_nil _

/-- A write carries the batch: it is the first of the batch, since it is accepted as a whole. -/
theorem wrote (h : Carried c o a ls) {n : Nat} (hx : o.writer.acceptsAll (.wrote n) = true) :
    ∃ a', Carried c (o.step c (.writer (.wrote n))) a' (ls ++ o.writer.load (.wrote n)) := by
  obtain ⟨b, hb, hs, rfl⟩ := exists_batch_of_acceptsAll hx
  obtain ⟨hentries, hoffset⟩ : b.entries = framed c a.flight ∧ a.offset = b.written := by
    have hstands := h.balanced.stands
    generalize o.writer = w at hb hstands
    cases hstands with
    | writing he => cases hb; exact ⟨he, rfl⟩
    | waiting => cases hb
    | gathering => cases hb
    | ended => cases hb
    | failed => cases hb
    | abandoned => cases hb
  have hbytes : b.bytes = frameBytes c a.flight := bytes_of_entries hentries
  have hpos : 0 < b.remaining := Batch.remaining_pos hs
  have hzero : a.offset = 0 := by
    have hwhole := h.whole
    unfold Account.IsWhole at hwhole
    unfold Batch.remaining at hpos
    rw [hbytes] at hpos
    omega
  have hslices : b.slices.flatten = frameBytes c a.flight := by
    rw [Batch.flatten_slices, ← hoffset, hzero, List.drop_zero, hbytes]
  rw [← Batch.length_flatten_slices, hslices] at hpos
  rw [hslices]
  have hemitted : Signal.pieces (o.emitted c (.writer (.wrote (frameBytes c a.flight).length))) =
      [frameBytes c a.flight] := by
    simp only [emitted, Writer.step, hb]
    rw [if_neg (by omega), hslices, List.take_of_length_le (Nat.le_refl _)]
    rfl
  have hload : o.writer.load (.wrote (frameBytes c a.flight).length) = [framable c a.flight] := by
    simp only [Writer.load, hb]
    rw [hentries, map_framed]
  obtain ⟨a', ha, hm⟩ := h.balanced.exists_move (.wrote (frameBytes c a.flight).length)
  cases hm.of_pieces hemitted
  refine ⟨_, ha, .inr ?_, ?_, ?_, ?_⟩
  · simp only [hzero, Nat.zero_add]
  · rw [hload, List.flatten_append, h.flatten]
    have hne : 0 + (frameBytes c a.flight).length ≠ 0 := by omega
    simp only [Account.carried, hzero, ↓reduceIte, hne, framable_append, List.flatten_cons,
      List.flatten_nil, List.append_nil]
  · rw [pieces_step, h.pieces, hemitted, hload, List.map_append, List.map_cons, List.map_nil,
      frameBytes_framable]
  · rw [hload]
    intro l hl
    rcases List.mem_append.1 hl with hl | hl
    · exact h.nonempty l hl
    · rintro rfl
      rw [List.mem_singleton] at hl
      rw [← frameBytes_framable, ← hl] at hpos
      cases hpos

variable (hc : c.geometry.isFramed = false)

include hc in
theorem step (h : Carried c o a ls) {x : Action} (hx : o.acceptsAll x = true) :
    ∃ a', Carried c (o.step c x) a' (ls ++ o.load x) := by
  have other {o' : Outbound} (h : ∃ a', Carried c o' a' ls) : ∃ a', Carried c o' a' (ls ++ []) := by
    rwa [List.append_nil]
  cases x with
  | raise => exact other ⟨a, h.withQueue rfl rfl rfl⟩
  | enqueue m => exact other (h.enqueue m)
  | lower => exact other ⟨a, h.withQueue rfl rfl rfl⟩
  | detach => exact other ⟨a, h.withQueue rfl rfl rfl⟩
  | writer e =>
    by_cases he : ∃ n, e = .wrote n
    · obtain ⟨n, rfl⟩ := he
      exact h.wrote hx
    · have he : ∀ n, e ≠ .wrote n := fun n hn => he ⟨n, hn⟩
      have hload : o.load (.writer e) = [] := by
        cases e with
        | wrote n => exact absurd rfl (he n)
        | _ => rfl
      obtain ⟨a', ha, hm⟩ := h.balanced.exists_move e
      obtain ⟨hp, hwhole, hcarried⟩ := hm.carried hc h.whole he
      rw [hload]
      refine other ⟨a', ha, hwhole, h.flatten.trans hcarried.symm, ?_, h.nonempty⟩
      rw [pieces_step, hp, List.append_nil, h.pieces]

include hc in
theorem run (h : Carried c o a ls) {xs : List Action}
    (hx : o.writesWhole c xs = true) :
    ∃ a', Carried c (o.run c xs) a' (ls ++ o.loads c xs) := by
  induction xs generalizing o a ls with
  | nil => exact ⟨a, by rwa [loads, List.append_nil]⟩
  | cons x xs ih =>
    rw [writesWhole, Bool.and_eq_true] at hx
    obtain ⟨a', ha⟩ := h.step hc hx.1
    rw [loads, ← List.append_assoc]
    exact ih ha hx.2

/-- When the writer has nothing to do, every message that can be framed was carried. -/
theorem settled (h : Carried c o a ls) (he : o.writer.isSettled = true) :
    ls.flatten = framable c o.accepted := by
  rw [h.flatten, h.balanced.messages, Account.messages]
  have hstands := h.balanced.stands
  generalize o.writer = w at hstands he
  cases hstands with
  | @waiting q =>
    have hw : q.waiting = [] := List.isEmpty_iff.1 he
    simp [Account.carried, hw]
  | ended => simp [Account.carried]
  | gathering => cases he
  | writing => cases he
  | failed => cases he
  | abandoned => cases he

/-- What writes have carried can be framed. -/
theorem framable_load (h : Carried c o a ls) {l : List Queued} (hl : l ∈ ls) :
    framable c l = l := by
  rw [framable, List.filter_eq_self]
  intro q hq
  have hmem : q ∈ a.carried c := h.flatten ▸ List.mem_flatten.2 ⟨l, hl, hq⟩
  exact (List.mem_filter.1 hmem).2

end Carried

theorem length_le_length_flatten {α : Type} {ls : List (List α)} (hne : ∀ l ∈ ls, l ≠ []) :
    ls.length ≤ ls.flatten.length := by
  induction ls with
  | nil => exact Nat.le_refl _
  | cons l ls ih =>
    have hl := List.length_pos_iff.2 (hne l (by simp))
    have hls := ih fun l hl => hne l (by simp [hl])
    simp only [List.flatten_cons, List.length_append, List.length_cons]
    omega

/-- Lists of which none is empty each have one member if there are no more members than lists. -/
theorem length_eq_one_of_flatten {α : Type} {ls : List (List α)} (hne : ∀ l ∈ ls, l ≠ [])
    (h : ls.flatten.length ≤ ls.length) : ∀ l ∈ ls, l.length = 1 := by
  intro l hl
  obtain ⟨before, after, rfl⟩ := List.append_of_mem hl
  have hl := List.length_pos_iff.2 (hne l hl)
  have hbefore : before.length ≤ before.flatten.length :=
    length_le_length_flatten fun l hl => hne l (by simp [hl])
  have hafter : after.length ≤ after.flatten.length :=
    length_le_length_flatten fun l hl => hne l (by simp [hl])
  simp only [List.flatten_append, List.flatten_cons, List.length_append, List.length_cons] at h
  omega

theorem map_flatMap_of_length_eq_one {α β : Type} (f : α → List β) {ls : List (List α)}
    (h : ∀ l ∈ ls, l.length = 1) : ls.map (·.flatMap f) = ls.flatten.map f := by
  induction ls with
  | nil => rfl
  | cons l ls ih =>
    obtain ⟨x, rfl⟩ := List.length_eq_one_iff.1 (h l (by simp))
    simp [ih fun l hl => h l (by simp [hl])]

/-- **When writes keep the boundaries of messages.** Without framing, and if every write is accepted
as a whole and arrives as one piece, writes carry a beginning of the messages that were accepted and
can be framed, and all of them when the writer has nothing left to do. The receiver gets each of
them by itself, in their order, if and only if every write carried one message; and in any case what
a write carried arrives as one body, unless that is too long. -/
theorem boundaries_kept_iff {c : Codec} (hc : c.geometry.isFramed = false) (bound : Nat)
    {xs : List Action} (hx : (new bound).writesWhole c xs = true) :
    let o := (new bound).run c xs
    let ls := (new bound).loads c xs
    let results := (Decoder.pushAll c .empty o.pieces).1
    ls.flatten <+: framable c o.accepted ∧
      (o.writer.isSettled = true → ls.flatten = framable c o.accepted) ∧
      (Decoder.emitted results = ls.flatten.map body ↔ ∀ l ∈ ls, l.length = 1) ∧
      ((∀ l ∈ ls, (l.flatMap body).length ≤ c.maxLength) →
        results = ls.map fun l => .ok [l.flatMap body]) := by
  intro o ls results
  obtain ⟨a, ha⟩ := (Carried.new c bound).run hc hx
  rw [List.nil_append] at ha
  change Carried c o a ls at ha
  have hpieces : o.pieces = ls.map (·.flatMap body) := by
    rw [ha.pieces]
    refine List.map_congr_left fun l hl => ?_
    rw [frameBytes_raw hc, ha.framable_load hl]
  have hbodies (hmax : ∀ l ∈ ls, (l.flatMap body).length ≤ c.maxLength) :
      results = ls.map fun l => .ok [l.flatMap body] := by
    have hp : ∀ p ∈ o.pieces, p ≠ [] ∧ p.length ≤ c.maxLength := by
      rw [hpieces]
      intro p hp
      obtain ⟨l, hl, rfl⟩ := List.mem_map.1 hp
      refine ⟨?_, hmax l hl⟩
      rw [← ha.framable_load hl, ← frameBytes_raw hc, Ne, ← framable_eq_nil_iff hc,
        ha.framable_load hl]
      exact ha.nonempty l hl
    rw [show results = _ from Decoder.pushAll_raw hc hp, hpieces, List.map_map]
    rfl
  refine ⟨?_, ha.settled, ⟨?_, ?_⟩, hbodies⟩
  · rw [ha.flatten, ha.balanced.messages]
    exact a.carried_prefix c
  · intro h
    have hle := Decoder.length_emitted_le hc .empty o.pieces
    rw [show Decoder.emitted (Decoder.pushAll c .empty o.pieces).1 = _ from h, hpieces,
      List.length_map, List.length_map] at hle
    exact length_eq_one_of_flatten ha.nonempty hle
  · intro hone
    have hmax : ∀ l ∈ ls, (l.flatMap body).length ≤ c.maxLength := by
      intro l hl
      obtain ⟨q, rfl⟩ := List.length_eq_one_iff.1 (hone l hl)
      have hq : q ∈ framable c [q] := by rw [ha.framable_load hl]; exact .head _
      obtain ⟨f, hf⟩ := exists_frame (List.mem_filter.1 hq).2
      simpa using (bytes_of_frame_raw hc hf).2
    rw [hbodies hmax, ← map_flatMap_of_length_eq_one body hone]
    have := Decoder.emitted_map_ok (ls.map (·.flatMap body))
    rwa [List.map_map] at this

theorem boundaries_kept_of_turns :
    let c : Codec := ⟨.raw, 64⟩
    let send : List Action := [.raise, .enqueue (.new 0x0800), .writer .wake, .writer .wake,
      .writer (.wrote 16), .writer .flushed]
    let o := (new 1).run c (send ++ send)
    (new 1).writesWhole c (send ++ send) = true ∧
      Decoder.emitted (Decoder.pushAll c .empty o.pieces).1 =
        [Pack.serialize (.new 0x0800), Pack.serialize (.new 0x0800)] := by
  intro c send o
  have hx : (new 1).writesWhole c (send ++ send) = true := by decide
  obtain ⟨-, -, hiff, -⟩ := boundaries_kept_iff (c := c) rfl 1 hx
  have hloads : (new 1).loads c (send ++ send) =
      [[⟨0, .new 0x0800⟩], [⟨1, .new 0x0800⟩]] := by decide
  rw [hloads] at hiff
  exact ⟨hx, hiff.2 (by decide)⟩

/-- **A boundary is lost** when two messages wait: one write carries both, and the receiver gets
them as one body. -/
theorem boundary_lost :
    let c : Codec := ⟨.raw, 64⟩
    let xs : List Action := [.raise, .enqueue (.new 0x0800), .raise, .enqueue (.new 0x0800),
      .writer .wake, .writer .wake, .writer .wake, .writer (.wrote 32), .writer .flushed]
    let o := (new 2).run c xs
    (new 2).writesWhole c xs = true ∧ o.writer.isSettled = true ∧
      (∀ q ∈ o.accepted, body q ≠ [] ∧ (body q).length ≤ c.maxLength) ∧
      Decoder.emitted (Decoder.pushAll c .empty o.pieces).1 =
        [Pack.serialize (.new 0x0800) ++ Pack.serialize (.new 0x0800)] ∧
      Decoder.emitted (Decoder.pushAll c .empty o.pieces).1 ≠ o.accepted.map body := by
  intro c xs o
  have haccepted : o.accepted = [⟨0, .new 0x0800⟩, ⟨1, .new 0x0800⟩] := by decide
  have hemitted : Decoder.emitted (Decoder.pushAll c .empty o.pieces).1 =
      [Pack.serialize (.new 0x0800) ++ Pack.serialize (.new 0x0800)] := by decide
  refine ⟨by decide, by decide, ?_, hemitted, ?_⟩
  · rw [haccepted]
    decide
  · rw [haccepted, hemitted]
    decide

end Outbound

end Interchange
