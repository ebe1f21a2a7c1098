import Interchange.Proofs.Frame.BeforeFault
import Interchange.Proofs.Frame.Lifetime
import Mathlib.Data.List.Forall2

/-!
# Bodies that a sender frames

`Carries sender bs xs` says that the pieces `xs` bring what a sender writes who frames the bodies
`bs` one after the other. `Decoder.given` collects what the pushes of pieces give out until one of
them fails. The receiver has the geometry of the sender, and a maximum length of its own.

* `given_isPrefix_of_carries`: nothing comes out that was not sent. The first body above the maximum
  of the receiver ends what comes out.
* `push_of_encode`: a frame whose body is within the maximum gives out its body.
-/

namespace Interchange

/-! ## Frames of a sender -/

namespace Codec

variable {c : Codec} {f : Frame}

theorem announced_of_long (h : c.geometry.Announces f) (hlt : c.maxLength < f.body.length) :
    c.announced f.lead = .error (.frameTooLarge f.body.length c.maxLength) := by
  rw [announced, h.body]
  exact if_pos hlt

/-- **Frames are read as far as their bodies are within the maximum.** -/
theorem bodies_read_isPrefix (hc : c.geometry.isFramed) {fs : List Frame}
    (hfs : ∀ f ∈ fs, c.geometry.Announces f) :
    (c.read hc (fs.flatMap Frame.bytes)).bodies <+: fs.map (·.body) := by
  induction fs with
  | nil =>
    rw [List.flatMap_nil, read_nil hc]
    exact List.nil_prefix
  | cons f fs ih =>
    obtain ⟨hf, hfs⟩ := List.forall_mem_cons.1 hfs
    rw [List.flatMap_cons, List.map_cons]
    rcases Nat.lt_or_ge c.maxLength f.body.length with hlt | hle
    · rw [Frame.bytes, List.append_assoc,
        Decoder.read_bad hc hf.lead (announced_of_long hf hlt)]
      exact List.nil_prefix
    · rw [read_frame hc (takes_of_announces hf hle), Reading.bodies_after]
      exact (List.prefix_cons_inj _).2 (ih hfs)

end Codec

/-- Pieces bring what a sender writes, perhaps not to its end. -/
inductive Carries (sender : Codec) (bs xs : List (List UInt8)) : Prop
  /-- The pieces cut the frames of the bodies anywhere. -/
  | framed (hc : sender.geometry.isFramed) {fs : List Frame}
    (hfs : List.Forall₂ (fun b f => sender.encode b = .ok f) bs fs)
    (hxs : xs.flatten <+: fs.flatMap Frame.bytes)
  /-- Without framing a piece is a body, or brings nothing. -/
  | raw (hc : sender.geometry.isFramed = false) (hxs : xs.filter (!·.isEmpty) <+: bs)

namespace Decoder

variable {c sender : Codec}

/-! ## What comes out -/

/-- The bodies that pushes give out until one of them fails. -/
def given (c : Codec) (d : Decoder) : List (List UInt8) → List (List UInt8)
  | [] => []
  | x :: xs =>
    match d.push c x with
    | (.ok bodies, d) => bodies ++ given c d xs
    | (.error _, _) => []

section

variable {d e : Decoder} {x : List UInt8}

theorem given_cons_of_ok {bodies : List (List UInt8)} (h : d.push c x = (.ok bodies, e))
    (xs : List (List UInt8)) : d.given c (x :: xs) = bodies ++ e.given c xs := by
  rw [given, h]

theorem given_cons_of_error {f : Fault} (h : d.push c x = (.error f, e)) (xs : List (List UInt8)) :
    d.given c (x :: xs) = [] := by
  rw [given, h]

end

/-- What comes out is read in the stream. -/
theorem given_isPrefix (hc : c.geometry.isFramed) (d : Decoder) (xs : List (List UInt8)) :
    d.given c xs <+: (readFrom hc (d.feed xs.flatten)).bodies := by
  induction xs generalizing d with
  | nil => exact List.nil_prefix
  | cons x xs ih =>
    have hpush := push_eq hc d x
    rw [readFrom_feed_cons, Reading.bodies_after]
    unfold Reading.result at hpush
    split at hpush
    · rw [given_cons_of_ok hpush]
      exact (List.prefix_append_right_inj _).2 (ih _)
    · rw [given_cons_of_error hpush]
      exact List.nil_prefix

section Raw

variable (hc : c.geometry.isFramed = false)

include hc

/-- Without framing a piece is a body, unless it is too long or brings nothing. -/
theorem push_empty_of_raw (x : List UInt8) :
    empty.push c x =
      if x.isEmpty then (.ok [], empty)
      else if c.maxLength < x.length then (.error (.frameTooLarge x.length c.maxLength), ⟨x, none⟩)
      else (.ok [x], empty) := by
  rw [push_eq_takeRaw hc, feed_empty, takeRaw]
  cases x <;> rfl

theorem given_isPrefix_of_raw (xs : List (List UInt8)) :
    empty.given c xs <+: xs.filter (!·.isEmpty) := by
  induction xs with
  | nil => exact List.nil_prefix
  | cons x xs ih =>
    have hpush := push_empty_of_raw hc x
    split at hpush
    · next hx =>
      rw [given_cons_of_ok hpush, List.filter_cons_of_neg (by simp [hx])]
      exact ih
    · next hx =>
      split at hpush
      · rw [given_cons_of_error hpush]
        exact List.nil_prefix
      · rw [given_cons_of_ok hpush, List.filter_cons_of_pos (by simp [hx])]
        exact (List.prefix_cons_inj x).2 ih

end Raw

/-- **What comes out was sent**, in this order and from the first body on. -/
theorem given_isPrefix_of_carries {bs xs : List (List UInt8)} (hg : sender.geometry = c.geometry)
    (hbs : ∀ b ∈ bs, 2 * b.length < UInt64.size) (h : Carries sender bs xs) :
    empty.given c xs <+: bs := by
  cases h with
  | @framed hc fs hfs hxs =>
    have hc' : c.geometry.isFramed := hg ▸ hc
    have hall : (∀ f ∈ fs, c.geometry.Announces f) ∧ fs.map (·.body) = bs := by
      clear hxs
      induction hfs with
      | nil => exact ⟨fun f hf => absurd hf List.not_mem_nil, rfl⟩
      | @cons b f bs fs hb _ ih =>
        obtain ⟨hlen, hbs⟩ := List.forall_mem_cons.1 hbs
        obtain ⟨hfs, hmap⟩ := ih hbs
        have hf := hg ▸ Codec.announces_of_encode hb hc hlen
        exact ⟨List.forall_mem_cons.2 ⟨hf, hfs⟩, by
          rw [List.map_cons, hmap, (Codec.eq_of_encode hb).1]⟩
    have hgiven := given_isPrefix hc' empty xs
    rw [readFrom_feed_empty] at hgiven
    obtain ⟨rest, hrest⟩ := hxs
    have hread := bodies_read_append hc' xs.flatten rest
    rw [hrest] at hread
    rw [← hall.2]
    exact hgiven.trans (hread.trans (Codec.bodies_read_isPrefix hc' hall.1))
  | raw hc hxs => exact (given_isPrefix_of_raw (hg ▸ hc) xs).trans hxs

/-- **A frame gives out its body** where the body is within the maximum of the receiver. -/
theorem push_of_encode {b : List UInt8} {f : Frame} (hg : sender.geometry = c.geometry)
    (hne : b ≠ []) (hmax : b.length ≤ c.maxLength) (hlen : 2 * b.length < UInt64.size)
    (h : sender.encode b = .ok f) : empty.push c f.bytes = (.ok [b], empty) := by
  obtain ⟨rfl, -, hp⟩ := Codec.eq_of_encode h
  cases hc : c.geometry.isFramed with
  | true =>
    have hf := hg ▸ Codec.announces_of_encode h (hg ▸ hc) hlen
    have hread := Codec.read_frame hc (Codec.takes_of_announces hf hmax) []
    rw [List.append_nil, Codec.read_nil hc] at hread
    rw [push_eq hc, readFrom_feed_empty, hread]
    rfl
  | false =>
    have hlead : f.lead = [] := by
      have hnone : sender.geometry.isFramed = false := hg ▸ hc
      rw [Geometry.encodePrefix, hnone, if_neg Bool.false_ne_true] at hp
      exact (Except.ok.inj hp).symm
    have hempty : f.body.isEmpty = false := by simpa using hne
    rw [Frame.bytes, hlead, List.nil_append, push_empty_of_raw hc, hempty,
      if_neg Bool.false_ne_true, if_neg (Nat.not_lt.2 hmax)]

end Decoder

end Interchange
