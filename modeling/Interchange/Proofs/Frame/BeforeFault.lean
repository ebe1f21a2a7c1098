import Interchange.Proofs.Frame.RoundTrip

/-!
# Bodies in front of a bad length field

A stream holds frames that a codec takes and then a bad length field. Whether the bodies in front of
the field are given out hangs on the pieces in which the stream arrives: a push that meets the
field gives its fault and nothing else, so the bodies that only this push completes are lost.

`bodies_before_fault` says which are given out: those of the frames that end in an earlier push. All
of them are exactly when the push that completes the bad field starts behind the last frame.
-/

namespace Interchange

namespace Decoder

variable {c : Codec} (hc : c.geometry.isFramed)

theorem length_pushAll (d : Decoder) (xs : List (List UInt8)) :
    (pushAll c d xs).1.length = xs.length := by
  induction xs generalizing d with
  | nil => rfl
  | cons x xs ih => simp [pushAll, ih]

/-- What starts with a bad length field is its fault. -/
theorem read_bad {bad : List UInt8} {e : Fault} (hbad : bad.length = c.geometry.prefixLength)
    (he : c.announced bad = .error e) (s : List UInt8) :
    c.read hc (bad ++ s) = ⟨[], some e, bad ++ s, none⟩ := by
  rw [Codec.read, dif_neg (by simp only [List.length_append]; omega), c.announced_take,
    c.announced_append (by omega), he]

/-- More bytes leave the bodies that were read in front. -/
theorem bodies_read_append (s t : List UInt8) :
    (c.read hc s).bodies <+: (c.read hc (s ++ t)).bodies := by
  rw [← readFrom_feed_empty hc s, ← readFrom_feed_empty hc (s ++ t), ← feed_feed,
    readFrom_feed hc (empty.feed s), Reading.bodies_after]
  exact List.prefix_append ..

/-- More bytes leave a fault as it is. -/
theorem fault?_read_append {s : List UInt8} {f : Fault} (h : (c.read hc s).fault? = some f)
    (t : List UInt8) : (c.read hc (s ++ t)).fault? = some f := by
  rw [← readFrom_feed_empty] at h ⊢
  rw [← feed_feed]
  exact fault?_feed hc h t

/-- How the pushes of frames and a bad length field come out: `before` are the pushes that succeed
and give out the bodies `bss`, `x` is the push that completes the field. -/
structure CutAt (c : Codec) (fs : List Frame) (bad : List UInt8) (e : Fault)
    (before : List (List UInt8)) (x : List UInt8) (later : List (List UInt8))
    (bss : List (List (List UInt8))) : Prop where
  /-- The field is not complete before the push. -/
  incomplete : before.flatten.length < (fs.flatMap Frame.bytes ++ bad).length
  /-- The field is complete with the push. -/
  complete : (fs.flatMap Frame.bytes ++ bad).length ≤ (before.flatten ++ x).length
  /-- The pushes before it succeed, and from it on every push gives the fault of the field. -/
  results : (pushAll c empty (before ++ x :: later)).1 =
    bss.map .ok ++ List.replicate (later.length + 1) (.error e)
  /-- The bodies come from the pushes before it. -/
  pushes : bss.length = before.length
  /-- They are a beginning of the bodies in front of the field. -/
  bodies : bss.flatten <+: fs.map (·.body)
  /-- The first bodies are among them exactly when the pushes before it hold their frames. -/
  firsts : ∀ j, (fs.take j).map (·.body) <+: bss.flatten ↔
    ((fs.take j).flatMap Frame.bytes).length ≤ before.flatten.length
  /-- All bodies are given out exactly when the pushes before it hold every frame. -/
  all : bss.flatten = fs.map (·.body) ↔
    (fs.flatMap Frame.bytes).length ≤ before.flatten.length

/-- Frames take their prefixes and their bodies. -/
theorem length_flatMap_bytes {fs : List Frame} (hfs : ∀ f ∈ fs, c.Takes f) :
    (fs.flatMap Frame.bytes).length =
      Numbered.total (fun f => c.geometry.prefixLength + f.body.length) fs := by
  induction fs with
  | nil => rfl
  | cons f fs ih =>
    have hf := (hfs f (by simp)).lead
    have hrest := ih fun g hg => hfs g (by simp [hg])
    rw [List.flatMap_cons, List.length_append, Frame.bytes, List.length_append, hf, hrest,
      Numbered.total_cons]

section Stream

variable {fs : List Frame} (hfs : ∀ f ∈ fs, c.Takes f)

include hc hfs

/-- What a stream of frames comes to as long as its next prefix is not complete. -/
theorem fault?_read_of_lt {s bad : List UInt8} (hs : s <+: fs.flatMap Frame.bytes ++ bad)
    (hlt : s.length < (fs.flatMap Frame.bytes).length + c.geometry.prefixLength) :
    (c.read hc s).fault? = none := by
  have sound {y : List UInt8} (hy : y.length < c.geometry.prefixLength) :
      (c.read hc (fs.flatMap Frame.bytes ++ y)).fault? = none := by
    rw [Codec.read_frames hc hfs, Codec.read, dif_pos hy]
    rfl
  rcases Nat.le_total s.length (fs.flatMap Frame.bytes).length with hle | hle
  · obtain ⟨t, ht⟩ := List.prefix_of_prefix_length_le hs (List.prefix_append ..) hle
    cases hf : (c.read hc s).fault? with
    | none => rfl
    | some f =>
      have h := fault?_read_append hc hf t
      rw [ht, ← List.append_nil (fs.flatMap _), sound (y := []) (Codec.prefixLength_pos hc)] at h
      cases h
  · obtain ⟨y, rfl⟩ := List.prefix_of_prefix_length_le (List.prefix_append ..) hs hle
    refine sound ?_
    simp only [List.length_append] at hlt
    omega

/-- **The frames whose bodies are read are those that have arrived whole.** -/
theorem prefix_bodies_iff {s t : List UInt8} (hs : s <+: fs.flatMap Frame.bytes ++ t) (j : Nat) :
    (fs.take j).map (·.body) <+: (c.read hc s).bodies ↔
      ((fs.take j).flatMap Frame.bytes).length ≤ s.length := by
  have htake : ∀ f ∈ fs.take j, c.Takes f := fun f hf => hfs f (List.mem_of_mem_take hf)
  constructor
  · rintro ⟨r, hr⟩
    have hsum := Codec.length_bodies_read hc s
    have hlen := length_flatMap_bytes htake
    rw [← hr, Numbered.total_append, Numbered.total_map] at hsum
    omega
  · intro hle
    have hpre : (fs.take j).flatMap Frame.bytes <+: fs.flatMap Frame.bytes ++ t := by
      conv => rhs; rw [← List.take_append_drop j fs, List.flatMap_append, List.append_assoc]
      exact List.prefix_append ..
    obtain ⟨y, rfl⟩ := List.prefix_of_prefix_length_le hpre hs hle
    rw [Codec.read_frames hc htake, Reading.bodies_after]
    exact List.prefix_append ..

/-- **The bodies that are given out before the fault of a bad length field.** One push completes the
field. What the pushes before it gave out is a beginning of the bodies in front of the field, and it
is all of them exactly when these pushes hold every frame. -/
theorem bodies_before_fault {bad : List UInt8} {e : Fault}
    (hbad : bad.length = c.geometry.prefixLength) (he : c.announced bad = .error e)
    (tail : List UInt8) {xs : List (List UInt8)}
    (hxs : xs.flatten = fs.flatMap Frame.bytes ++ (bad ++ tail)) :
    ∃ before x later bss, xs = before ++ x :: later ∧ CutAt c fs bad e before x later bss := by
  have hread : c.read hc xs.flatten = ⟨fs.map (·.body), some e, bad ++ tail, none⟩ := by
    rw [hxs, Codec.read_frames hc hfs, read_bad hc hbad he]
    simp [Reading.after]
  have hfault : (readFrom hc (empty.feed xs.flatten)).fault? = some e := by
    rw [readFrom_feed_empty, hread]
  obtain ⟨before, x, later, bss, rfl, hb, hx, hbss, hr⟩ :=
    pushAll_of_fault hc (atRest_empty hc) (fault?_empty hc) hfault
  rw [readFrom_feed_empty] at hb hx hbss
  have hwhole : before.flatten ++ (x ++ later.flatten) =
      fs.flatMap Frame.bytes ++ (bad ++ tail) := by
    rw [← hxs]
    simp
  have hbefore : before.flatten <+: fs.flatMap Frame.bytes ++ (bad ++ tail) :=
    hwhole ▸ List.prefix_append ..
  have hbx : before.flatten ++ x <+: fs.flatMap Frame.bytes ++ (bad ++ tail) := by
    rw [← hwhole, ← List.append_assoc]
    exact List.prefix_append ..
  have hfield : (fs.flatMap Frame.bytes ++ bad).length =
      (fs.flatMap Frame.bytes).length + c.geometry.prefixLength := by
    rw [List.length_append, hbad]
  have hbodies : bss.flatten <+: fs.map (·.body) := by
    have h := bodies_read_append hc before.flatten (x ++ later.flatten)
    rw [hbss]
    rwa [hwhole, ← hxs, hread] at h
  have hj (j : Nat) : (fs.take j).map (·.body) <+: bss.flatten ↔
      ((fs.take j).flatMap Frame.bytes).length ≤ before.flatten.length := by
    rw [hbss]
    exact prefix_bodies_iff hc hfs hbefore j
  refine ⟨before, x, later, bss, rfl, ⟨?_, ?_, hr, ?_, hbodies, hj, ?_⟩⟩
  · -- a complete bad field would have been the fault of an earlier push
    refine Nat.lt_of_not_le fun hle => ?_
    have hbad' : fs.flatMap Frame.bytes ++ bad <+: fs.flatMap Frame.bytes ++ (bad ++ tail) := by
      rw [← List.append_assoc]
      exact List.prefix_append ..
    obtain ⟨y, hy⟩ := List.prefix_of_prefix_length_le hbad' hbefore hle
    rw [← hy, List.append_assoc, Codec.read_frames hc hfs, read_bad hc hbad he] at hb
    cases hb
  · -- and without it this push would have no fault
    refine Nat.le_of_not_lt fun hlt => ?_
    rw [hfield] at hlt
    rw [fault?_read_of_lt hc hfs hbx hlt] at hx
    cases hx
  · have hlen := length_pushAll (c := c) empty (before ++ x :: later)
    rw [hr] at hlen
    simp only [List.length_append, List.length_map, List.length_replicate,
      List.length_cons] at hlen
    omega
  · have h := hj fs.length
    rw [List.take_length] at h
    rw [← h]
    exact ⟨fun heq => heq ▸ List.prefix_refl _, fun hle => hbodies.eq_of_length_le hle.length_le⟩

end Stream

theorem bodies_before_fault_shared_push :
    (∀ f ∈ [(⟨[1], [0x61]⟩ : Frame)], Codec.Takes ⟨.binary 1, 1⟩ f) ∧
      Codec.announced ⟨.binary 1, 1⟩ [0xFF] = .error (.frameTooLarge 255 1) ∧
      ∃ before x later bss, [[1, 0x61, 0xFF]] = before ++ x :: later ∧
        CutAt ⟨.binary 1, 1⟩ [⟨[1], [0x61]⟩] [0xFF] (.frameTooLarge 255 1) before x later bss := by
  have htakes : ∀ f ∈ [(⟨[1], [0x61]⟩ : Frame)], Codec.Takes ⟨.binary 1, 1⟩ f := by
    intro f hf
    rw [List.mem_singleton.1 hf]
    exact ⟨rfl, rfl⟩
  exact ⟨htakes, rfl, bodies_before_fault rfl htakes rfl rfl [] rfl⟩

/-- **A body is lost** when the push that completes it also completes a bad length field, though
nothing is wrong with its frame and the same bytes in two pushes give it out. -/
theorem body_lost_before_fault :
    let c : Codec := ⟨.binary 1, 1⟩
    c.Takes ⟨[1], [0x61]⟩ ∧ c.announced [0xFF] = .error (.frameTooLarge 255 1) ∧
      (pushAll c empty [[1, 0x61, 0xFF]]).1 = [.error (.frameTooLarge 255 1)] ∧
      (pushAll c empty [[1, 0x61], [0xFF]]).1 = [.ok [[0x61]], .error (.frameTooLarge 255 1)] := by
  intro c
  have hc : c.geometry.isFramed = true := rfl
  have htakes : c.Takes ⟨[1], [0x61]⟩ := ⟨rfl, rfl⟩
  have hfault : c.announced [0xFF] = .error (.frameTooLarge 255 1) := rfl
  have hbad : c.read hc [0xFF] = ⟨[], some (.frameTooLarge 255 1), [0xFF], none⟩ := by
    have h := read_bad hc rfl hfault []
    rwa [List.append_nil] at h
  have hframe : c.read hc [1, 0x61] = ⟨[[0x61]], none, [], none⟩ := by
    have h := Codec.read_frame hc htakes []
    rwa [Codec.read_nil hc] at h
  have hshared : c.read hc [1, 0x61, 0xFF] =
      ⟨[[0x61]], some (.frameTooLarge 255 1), [0xFF], none⟩ := by
    have h := Codec.read_frame hc htakes [0xFF]
    rwa [hbad] at h
  refine ⟨htakes, hfault, ?_, ?_⟩
  · rw [pushAll_cons hc, readFrom_feed_empty, hshared]
    rfl
  · rw [pushAll_cons hc, readFrom_feed_empty, hframe, pushAll_cons hc]
    show [_, (c.read hc [0xFF]).result] = _
    rw [hbad]
    rfl

end Decoder

end Interchange
