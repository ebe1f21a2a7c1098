import Interchange.Proofs.Frame.Reading

/-!
# The life of a decoder

A decoder is pushed pieces and cleared, in any order. `failed_until_cleared` says that a push that
fails is followed by failures only, until the decoder is cleared: with framing it is the same fault
every time, and no byte is lost or given out. `held_lt` says that a push that succeeds leaves a
decoder that holds less than a prefix or less than a body, whatever has happened before.

Both are said of one step first: `next_of_stuck` of a decoder that stands before a bad length field,
`Bounded.step` of the length of the body that has started. The loop of a push, and then everything
that is done to a decoder, keeps what a step keeps.
-/

namespace Interchange

namespace Decoder

variable {c : Codec}

/-! ## What is done to a decoder -/

/-- What is done to a decoder. -/
inductive Act where
  /-- It is pushed a piece. -/
  | push (piece : List UInt8)
  /-- It is cleared. -/
  | clear

/-- What an act gives, and the decoder after it. To clear the decoder gives nothing. -/
def act (c : Codec) (d : Decoder) : Act → Option (Except Fault (List (List UInt8))) × Decoder
  | .push piece => (some (d.push c piece).1, (d.push c piece).2)
  | .clear => (none, d.clear)

/-- What acts give one after the other, and the decoder after them. -/
def acts (c : Codec) (d : Decoder) :
    List Act → List (Option (Except Fault (List (List UInt8)))) × Decoder
  | [] => ([], d)
  | u :: us => ((d.act c u).1 :: (acts c (d.act c u).2 us).1, (acts c (d.act c u).2 us).2)

/-- What every act keeps, acts keep. -/
theorem acts_preserves {P : Decoder → Prop} (h : ∀ d u, P d → P (d.act c u).2) {d : Decoder}
    (hd : P d) (us : List Act) : P (d.acts c us).2 := by
  induction us generalizing d with
  | nil => exact hd
  | cons u us ih => exact ih (h d u hd)

/-! ## Failed decoders -/

section Framed

variable (hc : c.geometry.isFramed)

/-- A reading that stopped at a fault stands before the bad length field. -/
theorem next_of_stuck {d : Decoder} {f : Fault} (hd : AtRest hc d)
    (h : (readFrom hc d).fault? = some f) : next c d = .fault f d := by
  have hbodies := hd.1
  rw [readFrom_eq] at h hbodies
  cases hn : next c d with
  | body b rest => simp [hn, Outcome.reading] at hbodies
  | more d' => simp [hn, Outcome.reading] at h
  | fault g d' =>
    rw [eq_of_next_fault hn]
    have hg : g = f := by simpa [hn, Outcome.reading] using h
    rw [hg]

include hc in
/-- A decoder before a bad length field keeps it, whatever it is pushed. -/
theorem push_of_stuck {d : Decoder} {f : Fault} (h : next c d = .fault f d) (x : List UInt8) :
    d.push c x = (.error f, d.feed x) := by
  rw [push_eq_drain hc, drain_step, next_feed, h]

include hc in
theorem pushAll_of_next_fault {d : Decoder} {f : Fault} (h : next c d = .fault f d)
    (xs : List (List UInt8)) :
    pushAll c d xs = (List.replicate xs.length (.error f), d.feed xs.flatten) := by
  induction xs generalizing d with
  | nil => simp [pushAll]
  | cons x xs ih =>
    have hx : next c (d.feed x) = .fault f (d.feed x) := by rw [next_feed, h]
    simp only [pushAll, push_of_stuck hc h, ih hx, feed_feed]
    rfl

include hc in
/-- A push that fails leaves the decoder before the bad length field. -/
theorem next_of_push_error {d d' : Decoder} {x : List UInt8} {f : Fault}
    (h : d.push c x = (.error f, d')) : next c d' = .fault f d' := by
  rw [push_eq hc, Prod.mk.injEq] at h
  obtain ⟨hresult, rfl⟩ := h
  have hfault : (readFrom hc (d.feed x)).fault? = some f := by
    unfold Reading.result at hresult
    split at hresult
    · cases hresult
    · next g hg =>
      cases hresult
      exact hg
  exact next_of_stuck hc (atRest_decoder hc _) ((fault?_decoder hc _).trans hfault)

end Framed

section Raw

variable (hc : c.geometry.isFramed = false)

include hc

theorem push_eq_takeRaw (d : Decoder) (x : List UInt8) : d.push c x = takeRaw c (d.feed x) := by
  simp only [push, hc, Bool.false_eq_true, ↓reduceDIte, feed]

/-- What is too long for a body stays so. -/
theorem push_of_long {d : Decoder} (h : c.maxLength < d.size) (x : List UInt8) :
    d.push c x = (.error (.frameTooLarge (d.feed x).size c.maxLength), d.feed x) := by
  have hlong : c.maxLength < (d.feed x).buffer.length := by
    simp only [feed, List.length_append]
    exact Nat.lt_add_right _ h
  have hne : (d.feed x).buffer.isEmpty = false := by
    rw [List.isEmpty_eq_false_iff]
    rintro hnil
    simp [hnil] at hlong
  rw [push_eq_takeRaw hc, takeRaw, hne, if_neg Bool.false_ne_true, if_pos hlong]
  rfl

/-- A push that fails without framing leaves what is too long for a body. -/
theorem long_of_push_error {d d' : Decoder} {x : List UInt8} {f : Fault}
    (h : d.push c x = (.error f, d')) : c.maxLength < d'.size := by
  rw [push_eq_takeRaw hc, takeRaw] at h
  split at h
  · cases h
  · split at h
    · next hlong =>
      cases h
      exact hlong
    · cases h

theorem pushAll_of_long {d : Decoder} (h : c.maxLength < d.size) (xs : List (List UInt8)) :
    (pushAll c d xs).2 = d.feed xs.flatten ∧ ∀ r ∈ (pushAll c d xs).1, ∃ g, r = .error g := by
  induction xs generalizing d with
  | nil => simp [pushAll]
  | cons x xs ih =>
    have hx : c.maxLength < (d.feed x).size := by
      simp only [size, feed, List.length_append]
      exact Nat.lt_add_right _ h
    obtain ⟨hlast, hall⟩ := ih hx
    simp only [pushAll, push_of_long hc h]
    refine ⟨hlast.trans (feed_feed ..), fun r hr => ?_⟩
    rcases List.mem_cons.1 hr with rfl | hr
    · exact ⟨_, rfl⟩
    · exact hall r hr

end Raw

/-- What a decoder does behind a push that failed with `f`. -/
structure Failed (c : Codec) (f : Fault) (d : Decoder) : Prop where
  /-- Every later push fails, so that none gives a body. -/
  fails : ∀ xs, ∀ r ∈ (pushAll c d xs).1, ∃ g, r = .error g
  /-- With framing the fault is always the same. -/
  same : c.geometry.isFramed → ∀ xs, (pushAll c d xs).1 = List.replicate xs.length (.error f)
  /-- Without framing it says how many bytes there are by then. -/
  counts : c.geometry.isFramed = false → ∀ xs x, ((pushAll c d xs).2.push c x).1 =
    .error (.frameTooLarge (d.size + (xs.flatten ++ x).length) c.maxLength)
  /-- What is pushed comes behind the other bytes, and no byte is taken. -/
  keeps : ∀ xs, (pushAll c d xs).2 = d.feed xs.flatten
  /-- Once it is cleared, all that is done to it gives what it gives on a new decoder. -/
  cleared : ∀ xs us, (pushAll c d xs).2.acts c (.clear :: us) =
    (none :: (empty.acts c us).1, (empty.acts c us).2)

/-- **A decoder that has failed fails until it is cleared**, whatever was done to it before and
whatever it is pushed then. -/
theorem failed_until_cleared (c : Codec) (before : List Act) {x : List UInt8} {f : Fault}
    {d : Decoder} (h : (empty.acts c before).2.push c x = (.error f, d)) : Failed c f d := by
  cases hc : c.geometry.isFramed with
  | true =>
    have hall := pushAll_of_next_fault hc (next_of_push_error hc h)
    refine ⟨fun xs r hr => ⟨f, ?_⟩, fun _ xs => ?_, fun hraw => ?_, fun xs => ?_, fun _ _ => rfl⟩
    · rw [hall] at hr
      exact List.eq_of_mem_replicate hr
    · rw [hall]
    · rw [hc] at hraw
      cases hraw
    · rw [hall]
  | false =>
    have hlong := long_of_push_error hc h
    refine ⟨fun xs => (pushAll_of_long hc hlong xs).2, fun hframed => ?_, fun _ xs x => ?_,
      fun xs => (pushAll_of_long hc hlong xs).1, fun _ _ => rfl⟩
    · rw [hc] at hframed
      cases hframed
    · have hmore : c.maxLength < (d.feed xs.flatten).size := by
        simp only [size, feed, List.length_append]
        exact Nat.lt_add_right _ hlong
      rw [(pushAll_of_long hc hlong xs).1, push_of_long hc hmore, feed_feed]
      simp [size, feed]

/-- A body, a cleared decoder, and then a push with a body in front of a bad length field. -/
theorem failed_until_cleared_behind_body :
    (empty.acts ⟨.binary 1, 4⟩ [.push [1, 0x61], .push [9], .clear]).2.push ⟨.binary 1, 4⟩
        [1, 0x62, 0xFF, 3] = (.error (.frameTooLarge 255 4), ⟨[0xFF, 3], none⟩) ∧
      Failed ⟨.binary 1, 4⟩ (.frameTooLarge 255 4) ⟨[0xFF, 3], none⟩ := by
  have h : (empty.acts ⟨.binary 1, 4⟩ [.push [1, 0x61], .push [9], .clear]).2.push ⟨.binary 1, 4⟩
      [1, 0x62, 0xFF, 3] = (.error (.frameTooLarge 255 4), ⟨[0xFF, 3], none⟩) := by
    have hc : (Codec.mk (.binary 1) 4).geometry.isFramed := rfl
    have hcleared :
        (empty.acts ⟨.binary 1, 4⟩ [.push [1, 0x61], .push [9], .clear]).2 = empty := rfl
    have hbody : next ⟨.binary 1, 4⟩ (empty.feed [1, 0x62, 0xFF, 3]) =
        .body [0x62] ⟨[0xFF, 3], none⟩ := rfl
    have hbad : next ⟨.binary 1, 4⟩ ⟨[0xFF, 3], none⟩ =
        .fault (.frameTooLarge 255 4) ⟨[0xFF, 3], none⟩ := rfl
    simp only [hcleared, push_eq_drain hc, drain_step hc, hbody, hbad]
    rfl
  exact ⟨h, failed_until_cleared _ _ h⟩

/-! ## What a decoder holds -/

/-- The body that has started is not longer than the maximum. -/
def Bounded (c : Codec) (d : Decoder) : Prop := ∀ n, d.awaiting = some n → n ≤ c.maxLength

/-- What a decoder holds when it needs more bytes: less than a prefix, or less than a body that is
not longer than the maximum. -/
structure Waiting (c : Codec) (d : Decoder) : Prop where
  /-- The body that has started is not longer than the maximum. -/
  bounded : d.Bounded c
  /-- The bytes are fewer than those of a prefix or of a longest body. -/
  size_lt : d.size < max c.geometry.prefixLength c.maxLength

theorem bounded_of_none {s : List UInt8} : Bounded c ⟨s, none⟩ := fun _ h => by cases h

/-- A prefix that is let through announces no more than the maximum. -/
theorem le_of_nextLength {s : List UInt8} {n : Nat} (h : nextLength c s = .ok (some n)) :
    n ≤ c.maxLength := by
  by_cases hs : s.length < c.geometry.prefixLength
  · rw [nextLength_of_short hs] at h
    cases h
  · rw [nextLength_of_le (Nat.le_of_not_lt hs)] at h
    unfold Codec.announced at h
    cases hb : c.geometry.bodyLength s with
    | error f => simp [hb, bind, Except.bind, Except.map] at h
    | ok m =>
      simp only [hb, bind, Except.bind] at h
      split at h
      · cases h
      · next hle =>
        cases h
        exact Nat.le_of_not_lt hle

/-- What a step comes to is within bounds. -/
def Outcome.IsBounded (c : Codec) : Outcome → Prop
  | .body b rest => b.length ≤ c.maxLength ∧ rest.Bounded c
  | .more d => d.Waiting c
  | .fault _ d => d.Bounded c

theorem isBounded_takeBody {s : List UInt8} {n : Nat} (hn : n ≤ c.maxLength) :
    (takeBody s n).IsBounded c := by
  by_cases hs : s.length < n
  · rw [takeBody_of_short hs]
    refine ⟨fun m hm => ?_, ?_⟩
    · cases hm
      exact hn
    · show s.length < max _ _
      omega
  · rw [takeBody_of_le (Nat.le_of_not_lt hs)]
    exact ⟨Nat.le_trans (List.length_take_le n s) hn, bounded_of_none⟩

/-- **One step keeps the bounds.** -/
theorem Bounded.step {d : Decoder} (h : d.Bounded c) : (next c d).IsBounded c := by
  obtain ⟨s, awaiting⟩ := d
  unfold next
  cases awaiting with
  | some n => exact isBounded_takeBody (h n rfl)
  | none =>
    dsimp only
    split
    · exact h
    · next hn =>
      -- A complete prefix is either a fault or announces a length.
      have hshort : s.length < c.geometry.prefixLength := by
        refine Nat.lt_of_not_le fun hle => ?_
        rw [nextLength_of_le hle] at hn
        cases ha : c.announced s <;> simp [ha, Except.map] at hn
      refine ⟨h, ?_⟩
      show s.length < max _ _
      omega
    · next n hn => exact isBounded_takeBody (le_of_nextLength hn)

/-- What a push comes to is within bounds. -/
structure Held (c : Codec) (r : Except Fault (List (List UInt8)) × Decoder) : Prop where
  /-- The body that has started is not longer than the maximum, also behind a fault. -/
  bounded : r.2.Bounded c
  /-- No body that is given out is longer than the maximum. -/
  bodies : ∀ bs, r.1 = .ok bs → ∀ b ∈ bs, b.length ≤ c.maxLength

/-- **The loop of a push keeps the bounds.** -/
theorem Loop.held {d : Decoder} {r : Except Fault (List (List UInt8)) × Decoder}
    (h : Loop c d r) (hd : d.Bounded c) :
    Held c r ∧ ∀ bs, r.1 = .ok bs → r.2.Waiting c := by
  induction h with
  | @more d d' h =>
    have hnext := hd.step
    rw [h] at hnext
    refine ⟨⟨hnext.bounded, fun bs hbs b hb => ?_⟩, fun _ _ => hnext⟩
    cases hbs
    cases hb
  | @fault d d' f h =>
    have hnext := hd.step
    rw [h] at hnext
    exact ⟨⟨hnext, fun bs hbs => by cases hbs⟩, fun bs hbs => by cases hbs⟩
  | @body d rest b r h _ ih =>
    have hnext := hd.step
    rw [h] at hnext
    obtain ⟨hlength, hrest⟩ := hnext
    obtain ⟨hheld, hwaits⟩ := ih hrest
    obtain ⟨result, d'⟩ := r
    -- A fault further on takes the place of this body too.
    cases result with
    | error f => exact ⟨⟨hheld.bounded, fun bs hbs => by cases hbs⟩, fun bs hbs => by cases hbs⟩
    | ok later =>
      refine ⟨⟨hheld.bounded, fun bs hbs x hx => ?_⟩, fun _ _ => hwaits later rfl⟩
      cases hbs
      rcases List.mem_cons.1 hx with rfl | hx
      · exact hlength
      · exact hheld.bodies later rfl x hx

/-- Without framing nothing is held behind a push that succeeds. -/
theorem held_takeRaw {d : Decoder} (hd : d.Bounded c) :
    Held c (takeRaw c d) ∧ ∀ bs, (takeRaw c d).1 = .ok bs → (takeRaw c d).2.size = 0 := by
  unfold takeRaw
  split
  · next hempty =>
    refine ⟨⟨hd, fun bs hbs b hb => ?_⟩, fun _ _ => ?_⟩
    · cases hbs
      cases hb
    · simpa [size] using hempty
  · split
    · exact ⟨⟨hd, fun bs hbs => by cases hbs⟩, fun bs hbs => by cases hbs⟩
    · next hle =>
      refine ⟨⟨hd, fun bs hbs b hb => ?_⟩, fun _ _ => rfl⟩
      cases hbs
      cases List.mem_singleton.1 hb
      exact Nat.le_of_not_lt hle

theorem Bounded.push {d : Decoder} (hd : d.Bounded c) (x : List UInt8) :
    Held c (d.push c x) ∧ ∀ bs, (d.push c x).1 = .ok bs →
      (c.geometry.isFramed → (d.push c x).2.Waiting c) ∧
      (c.geometry.isFramed = false → (d.push c x).2.size = 0) := by
  have hfed : (d.feed x).Bounded c := hd
  cases hc : c.geometry.isFramed with
  | true =>
    rw [push_eq_drain hc]
    obtain ⟨hheld, hwaits⟩ := (loop_drain hc (d.feed x)).held hfed
    exact ⟨hheld, fun bs hbs => ⟨fun _ => hwaits bs hbs, fun h => by cases h⟩⟩
  | false =>
    rw [push_eq_takeRaw hc]
    obtain ⟨hheld, hempty⟩ := held_takeRaw hfed
    exact ⟨hheld, fun bs hbs => ⟨fun h => (by cases h), fun _ => hempty bs hbs⟩⟩

theorem Bounded.act {d : Decoder} (hd : d.Bounded c) (u : Act) : (d.act c u).2.Bounded c := by
  cases u with
  | push x => exact (hd.push x).1.bounded
  | clear => exact bounded_of_none

/-- **What a decoder holds is bounded**, whatever is done to it. The body that has started is never
longer than the maximum. A push that succeeds gives out no longer body, and leaves fewer bytes than
those of a prefix or of a longest body; without framing it leaves none. -/
theorem held_lt {c : Codec} (hmax : 1 ≤ c.maxLength) (us : List Act) :
    (∀ n, (empty.acts c us).2.awaiting = some n → n ≤ c.maxLength) ∧
    ∀ x bs d, (empty.acts c us).2.push c x = (.ok bs, d) →
      (∀ b ∈ bs, b.length ≤ c.maxLength) ∧
      (∀ n, d.awaiting = some n → n ≤ c.maxLength) ∧
      d.size < max c.geometry.prefixLength c.maxLength ∧
      (c.geometry.isFramed = false → d.size = 0) := by
  have hbounded : (empty.acts c us).2.Bounded c :=
    acts_preserves (fun _ u hd => hd.act u) bounded_of_none us
  refine ⟨hbounded, fun x bs d h => ?_⟩
  obtain ⟨hheld, hleft⟩ := hbounded.push x
  rw [h] at hheld hleft
  obtain ⟨hwaits, hempty⟩ := hleft bs rfl
  refine ⟨hheld.bodies bs rfl, hheld.bounded, ?_, hempty⟩
  cases hc : c.geometry.isFramed with
  | true => exact (hwaits hc).size_lt
  | false =>
    have hsize : d.size = 0 := hempty hc
    omega

/-- An offset that is longer than a longest body, and a body without bytes. -/
theorem held_lt_behind_offset :
    let c : Codec := ⟨⟨1, 3, 0, false⟩, 1⟩
    let us : List Act := [.push [0, 0, 0, 0, 0], .push [0]]
    1 ≤ c.maxLength ∧ (empty.acts c us).2.push c [0, 1, 0x61, 7, 7, 7] =
        (.ok [[0x61]], ⟨[7, 7, 7], none⟩) ∧
      (∀ b ∈ [([0x61] : List UInt8)], b.length ≤ c.maxLength) ∧
      (Decoder.mk [7, 7, 7] none).size < max c.geometry.prefixLength c.maxLength := by
  intro c us
  have h : (empty.acts c us).2.push c [0, 1, 0x61, 7, 7, 7] =
      (.ok [[0x61]], ⟨[7, 7, 7], none⟩) := by
    have hc : c.geometry.isFramed := rfl
    have hempty : next c (empty.feed [0, 0, 0, 0, 0]) = .body [] ⟨[0], none⟩ := rfl
    have hzero : next c ⟨[0], none⟩ = .more ⟨[0], none⟩ := rfl
    have hzeros : next c (feed ⟨[0], none⟩ [0]) = .more ⟨[0, 0], none⟩ := rfl
    have hbody : next c (feed ⟨[0, 0], none⟩ [0, 1, 0x61, 7, 7, 7]) =
        .body [0x61] ⟨[7, 7, 7], none⟩ := rfl
    have hrest : next c ⟨[7, 7, 7], none⟩ = .more ⟨[7, 7, 7], none⟩ := rfl
    simp only [us, acts, act, push_eq_drain hc, drain_step hc, hempty, hzero, hzeros, hbody, hrest]
    rfl
  obtain ⟨hbodies, -, hsize, -⟩ := (held_lt (Nat.le_refl 1) us).2 _ _ _ h
  exact ⟨Nat.le_refl 1, h, hbodies, hsize⟩

end Decoder

end Interchange
