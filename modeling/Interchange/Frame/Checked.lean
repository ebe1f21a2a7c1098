import Interchange.Frame.Geometry
import Interchange.Pack.Writer

/-!
# Length fields in machine words

The length field once more, in the arithmetic of a machine with words of 64 bits. A slice, a shift,
a sum and a difference are taken where they are in range and trap elsewhere; a trap is `none`. What
does not trap is a length or a fault as ever.
-/

namespace Interchange

namespace Word

/-- A sum of two sizes. -/
def add (a b : Nat) : Option Nat := if a + b < UInt64.size then some (a + b) else none

/-- A difference of two unsigned numbers. -/
def sub (a b : Nat) : Option Nat := if b ≤ a then some (a - b) else none

/-- A signed number of so many bits. -/
def signed (bits : Nat) (n : Int) : Option Int :=
  if -(Nat.pow 2 (bits - 1) : Int) ≤ n ∧ n < Nat.pow 2 (bits - 1) then some n else none

/-- A word shifted to the left by less than its width. Bits that leave it are lost. -/
def shiftLeft (n k : Nat) : Option Nat := if k < 64 then some ((n <<< k) % UInt64.size) else none

/-- A word shifted to the right by less than its width. -/
def shiftRight (n k : Nat) : Option Nat := if k < 64 then some (n >>> k) else none

/-- The elements from one index up to another. -/
def slice {α : Type} (xs : List α) (start stop : Nat) : Option (List α) :=
  if start ≤ stop ∧ stop ≤ xs.length then some ((xs.drop start).take (stop - start)) else none

end Word

namespace Geometry.Checked

/-- One more byte of a binary field. -/
def pushByte (n : Nat) (b : UInt8) : Option Nat := do return (← Word.shiftLeft n 8) ||| b.toNat

/-- One more digit of a decimal field; none inside once the digits exceed 64 bits. -/
def pushDigit : Option Nat → UInt8 → Option (Option Nat)
  | none, _ => some none
  | some n, b => do
    let next := n * 10 + (← Word.sub b.toNat 0x30)
    return if next < UInt64.size then some next else none

/-- The value of a length field. -/
def fieldValue (g : Geometry) (field : List UInt8) : Option (Except Fault Nat) :=
  if g.decimal then
    if field.isEmpty || !field.all isDigit then
      some (.error (.invalidFrameLength (.notDecimal field)))
    else do
      match ← field.foldlM pushDigit (some 0) with
      | some n => return .ok n
      | none => return .error (.invalidFrameLength .digitsOverflow)
  else do return .ok (← field.foldlM pushByte 0)

/-- The body length behind a prefix that starts the given bytes. -/
def bodyLength (g : Geometry) (bytes : List UInt8) : Option (Except Fault Nat) := do
  let stop ← Word.add g.offset g.width
  let field ← Word.slice bytes g.offset stop
  match ← fieldValue g field with
  | .error f => return .error f
  | .ok value =>
    let length ← Word.signed 128 (value + g.adjustment.toInt)
    if length < 0 then
      return .error (.invalidFrameLength (.negative length value g.adjustment.toInt))
    else if UInt64.size ≤ length then return .error (.invalidFrameLength (.overflow length))
    else return .ok length.toNat

/-- What a number has beyond the width of a binary field. A field of a whole word holds every
number. -/
def excess (width value : Nat) : Option Nat :=
  if width < widestBinaryField then Word.shiftRight value (8 * width) else some 0

/-- A number as a big-endian field, the last bytes of its word, if it fits. -/
def binaryField (width value : Nat) : Option (Option (List UInt8)) := do
  if (← excess width value) ≠ 0 then return none
  else
    let start ← Word.sub widestBinaryField width
    return some (← Word.slice (Pack.bigEndian widestBinaryField value) start widestBinaryField)

/-- The field of a number, if it has one. -/
def field (g : Geometry) (value : Nat) : Option (Option (List UInt8)) :=
  if g.decimal then some (digitsField? g.width value) else binaryField g.width value

/-- The prefix of a body of the given length. -/
def encodePrefix (g : Geometry) (length : Nat) : Option (Except Fault (List UInt8)) :=
  if g.isFramed then do
    let value ← Word.signed 64 (g.valueFor length)
    if value < 0 then
      return .error (.invalidFrameLength (.shortBody length g.adjustment.toInt))
    else
      match ← field g value.toNat with
      | some field => return .ok (List.replicate g.offset 0 ++ field)
      | none => return .error (.headerOverflow value g.width)
  else some (.ok [])

end Geometry.Checked

end Interchange
