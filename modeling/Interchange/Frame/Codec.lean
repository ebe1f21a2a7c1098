import Interchange.Frame.Geometry

/-!
# Framing message bodies

A codec is a geometry with a maximum body length. `encode` frames one body and keeps prefix and
body apart. A decoder takes the bytes of a stream in pieces of any size and gives back the bodies
that are complete; it stands either before a prefix or inside a body. A bad length field leaves
the decoder as it is, so the same fault arises again from every later piece until the decoder is
cleared.
-/

namespace Interchange

/-- A framed body. -/
structure Frame where
  /-- The offset and the length field. -/
  lead : List UInt8
  /-- The body. -/
  body : List UInt8
  deriving DecidableEq, Repr

namespace Frame

/-- The bytes of a frame. -/
def bytes (f : Frame) : List UInt8 := f.lead ++ f.body

/-- The number of bytes of a frame. -/
def size (f : Frame) : Nat := f.lead.length + f.body.length

end Frame

/-- The framing of a connection. -/
structure Codec where
  /-- The shape of the frames. -/
  geometry : Geometry
  /-- The maximum body length. -/
  maxLength : Nat
  deriving DecidableEq, Repr

/-- The maximum body length where none is given. -/
def defaultMaxLength : Nat := 8192

namespace Codec

/-- Frame a body. -/
def encode (c : Codec) (body : List UInt8) : Except Fault Frame :=
  if c.maxLength < body.length then .error (.frameTooLarge body.length c.maxLength)
  else do return ⟨← c.geometry.encodePrefix body.length, body⟩

end Codec

/-- The bytes of a stream that no complete frame took yet. -/
structure Decoder where
  /-- The bytes, without the prefix of a frame that has started. -/
  buffer : List UInt8
  /-- The length of the body that has started; none before a prefix. -/
  awaiting : Option Nat
  deriving DecidableEq, Repr

namespace Decoder

/-- The decoder at the start of a stream. -/
def empty : Decoder := ⟨[], none⟩

/-- Forget everything. -/
def clear (_ : Decoder) : Decoder := empty

/-- The length of the next body, or none when the prefix is not complete. -/
def nextLength (c : Codec) (buffer : List UInt8) : Except Fault (Option Nat) :=
  if (buffer.take c.geometry.prefixLength).length < c.geometry.prefixLength then .ok none
  else do
    let length ← c.geometry.bodyLength buffer
    if c.maxLength < length then .error (.frameTooLarge length c.maxLength)
    else return some length

/-- What one step of the decoder comes to. -/
inductive Outcome where
  /-- A complete body, and the decoder after it. -/
  | body (b : List UInt8) (rest : Decoder)
  /-- More bytes are needed. -/
  | more (d : Decoder)
  /-- The length field is bad, and the decoder is as before. -/
  | fault (f : Fault) (d : Decoder)

/-- Take `length` bytes from the buffer as a body, if they are there. -/
def takeBody (buffer : List UInt8) (length : Nat) : Outcome :=
  let body := buffer.take length
  if body.length < length then .more ⟨buffer, some length⟩
  else .body body ⟨buffer.drop length, none⟩

/-- Read the next body of a framed stream. -/
def next (c : Codec) (d : Decoder) : Outcome :=
  match d.awaiting with
  | some length => takeBody d.buffer length
  | none =>
    match nextLength c d.buffer with
    | .error f => .fault f d
    | .ok none => .more d
    | .ok (some length) => takeBody (d.buffer.drop c.geometry.prefixLength) length

/-- The decoder's distance from the end of its bytes: every body that is read brings it down. -/
def measure (d : Decoder) : Nat := 2 * d.buffer.length + if d.awaiting.isSome then 1 else 0

theorem takeBody_measure {buffer : List UInt8} {length : Nat} {b : List UInt8} {rest : Decoder}
    (h : takeBody buffer length = .body b rest) : rest.measure ≤ 2 * buffer.length := by
  simp only [takeBody] at h
  split at h
  · cases h
  · cases h
    refine Nat.le_trans (Nat.le_of_eq (Nat.add_zero _)) (Nat.mul_le_mul_left 2 ?_)
    rw [List.length_drop]
    exact Nat.sub_le ..

theorem next_measure {c : Codec} (hc : c.geometry.isFramed) {d : Decoder} {b : List UInt8}
    {rest : Decoder} (h : next c d = .body b rest) : rest.measure < d.measure := by
  unfold next at h
  split at h
  · next length hd =>
    have := takeBody_measure h
    simp [measure, hd] at this ⊢
    omega
  · next hd =>
    split at h
    · cases h
    · cases h
    · next length hl =>
      have hle : c.geometry.prefixLength ≤ d.buffer.length := by
        unfold nextLength at hl
        split at hl
        · cases hl
        · next hn =>
          simp only [List.length_take] at hn
          omega
      have hpos : 0 < c.geometry.prefixLength := by
        simp only [Geometry.prefixLength, hc, ↓reduceIte]
        simp only [Geometry.isFramed, bne_iff_ne] at hc
        omega
      have := takeBody_measure h
      simp [measure, hd] at this ⊢
      omega

/-- Read every complete body of a framed stream. A fault takes the place of the bodies read before
it. -/
def drain (c : Codec) (hc : c.geometry.isFramed) (d : Decoder) :
    Except Fault (List (List UInt8)) × Decoder :=
  match _h : next c d with
  | .more d => (.ok [], d)
  | .fault f d => (.error f, d)
  | .body b rest =>
    let (bodies, d) := drain c hc rest
    (bodies.map (b :: ·), d)
termination_by d.measure
decreasing_by exact next_measure hc _h

/-- Read what has arrived without framing: all of it is one body. -/
def takeRaw (c : Codec) (d : Decoder) : Except Fault (List (List UInt8)) × Decoder :=
  if d.buffer.isEmpty then (.ok [], d)
  else if c.maxLength < d.buffer.length then
    (.error (.frameTooLarge d.buffer.length c.maxLength), d)
  else (.ok [d.buffer], { d with buffer := [] })

/-- Take the next piece of the stream: the bodies that it completes, or the fault of a bad length
field, and the decoder after it. -/
def push (c : Codec) (d : Decoder) (piece : List UInt8) :
    Except Fault (List (List UInt8)) × Decoder :=
  let d := { d with buffer := d.buffer ++ piece }
  if hc : c.geometry.isFramed then drain c hc d else takeRaw c d

/-- The number of bytes that the decoder holds. -/
def size (d : Decoder) : Nat := d.buffer.length

/-- Whether the decoder holds no bytes. -/
def isEmpty (d : Decoder) : Bool := d.buffer.isEmpty

end Decoder

end Interchange
