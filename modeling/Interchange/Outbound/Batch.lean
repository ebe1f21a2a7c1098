import Interchange.Frame.Codec
import Interchange.Outbound.Queue

/-!
# Writing several frames at once

A batch of frames is written as one stream of bytes by any number of writes, each of which may
accept only some of the bytes that it is offered. What is left after a number of bytes is offered as
slices: one for each prefix and each body, none of them empty.
-/

namespace Interchange

/-- Frames on their way to the socket. -/
structure Batch where
  /-- The messages and their frames. -/
  entries : List (Queued × Frame)
  /-- How many bytes the socket has accepted. -/
  written : Nat
  /-- How many messages are released when the batch is done, those that cannot be framed
  included. -/
  releases : Nat
  /-- Whether it is the writer's last. -/
  last : Bool
  deriving DecidableEq, Repr

namespace Batch

/-- The prefixes and the bodies of frames in order. -/
def parts (fs : List Frame) : List (List UInt8) := fs.flatMap fun f => [f.lead, f.body]

/-- What is left of parts after `skip` bytes, without empty slices. -/
def rest : (skip : Nat) → List (List UInt8) → List (List UInt8)
  | _, [] => []
  | skip, p :: ps =>
    if skip < p.length then p.drop skip :: rest 0 ps else rest (skip - p.length) ps

/-- The frames of a batch. -/
def frames (b : Batch) : List Frame := b.entries.map (·.2)

/-- The bytes of a batch. -/
def bytes (b : Batch) : List UInt8 := (parts b.frames).flatten

/-- The slices that are offered next. -/
def slices (b : Batch) : List (List UInt8) := rest b.written (parts b.frames)

/-- The number of bytes that are left. -/
def remaining (b : Batch) : Nat := b.bytes.length - b.written

/-- The batch after the socket accepted `n` bytes. -/
def accept (b : Batch) (n : Nat) : Batch := { b with written := b.written + n }

theorem flatten_rest (skip : Nat) (ps : List (List UInt8)) :
    (rest skip ps).flatten = ps.flatten.drop skip := by
  induction ps generalizing skip with
  | nil => simp [rest]
  | cons p ps ih =>
    simp only [rest, List.flatten_cons]
    split
    · next h => simp [ih, List.drop_append_of_le_length (Nat.le_of_lt h)]
    · next h =>
      rw [ih, List.drop_append, List.drop_eq_nil_of_le (Nat.le_of_not_lt h), List.nil_append]

theorem ne_nil_of_mem_rest {skip : Nat} {ps : List (List UInt8)} {p : List UInt8}
    (h : p ∈ rest skip ps) : p ≠ [] := by
  induction ps generalizing skip with
  | nil => simp [rest] at h
  | cons q ps ih =>
    rw [rest] at h
    split at h
    · next hq =>
      rcases List.mem_cons.1 h with rfl | h
      · simpa using hq
      · exact ih h
    · exact ih h

theorem flatten_slices (b : Batch) : b.slices.flatten = b.bytes.drop b.written :=
  flatten_rest ..

/-- No empty slice is offered. -/
theorem ne_nil_of_mem_slices {b : Batch} {p : List UInt8} (h : p ∈ b.slices) : p ≠ [] :=
  ne_nil_of_mem_rest h

theorem length_flatten_slices (b : Batch) : b.slices.flatten.length = b.remaining := by
  rw [flatten_slices, List.length_drop]
  rfl

theorem remaining_pos {b : Batch} (h : b.slices ≠ []) : 0 < b.remaining := by
  rw [← length_flatten_slices]
  obtain ⟨p, ps, hp⟩ := List.exists_cons_of_ne_nil h
  have : p ≠ [] := ne_nil_of_mem_slices (b := b) (by simp [hp])
  have := List.length_pos_iff.2 this
  simp only [hp, List.flatten_cons, List.length_append]
  omega

end Batch

end Interchange
