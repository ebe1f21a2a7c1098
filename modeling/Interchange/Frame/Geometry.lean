import Interchange.Fault

/-!
# The shape of a frame

A frame is a prefix and a body. The prefix is a number of bytes without meaning, the offset, and
then the length field: a big-endian number or decimal digits. The value of the field and the
adjustment add up to the length of the body. A field of width zero means no framing: there is no
prefix, and the transport keeps the boundaries.

`encodePrefix` writes the prefix for a body length, `bodyLength` reads it back.
-/

namespace Interchange

/-- The shape of the frames on a connection. -/
structure Geometry where
  /-- The width of the length field in bytes. -/
  width : Nat
  /-- The bytes in front of the length field. -/
  offset : Nat
  /-- What is added to the value of the field to get the body length. -/
  adjustment : Int32
  /-- Whether the field holds decimal digits. -/
  decimal : Bool
  deriving DecidableEq, Repr

namespace Geometry

/-- A binary length field without offset and adjustment. -/
def binary (width : Nat) : Geometry := ⟨width, 0, 0, false⟩

/-- A length field of decimal digits without offset and adjustment. -/
def digits (width : Nat) : Geometry := ⟨width, 0, 0, true⟩

/-- No framing. -/
def raw : Geometry := binary 0

/-- A binary length field of two bytes. -/
def standard : Geometry := binary 2

/-- Whether frames have a prefix. -/
def isFramed (g : Geometry) : Bool := g.width != 0

/-- The length of the prefix. -/
def prefixLength (g : Geometry) : Nat := if g.isFramed then g.offset + g.width else 0

/-- Whether the length field is narrow enough. -/
def validate (g : Geometry) : Except Fault Unit :=
  if g.decimal then
    if widestDecimalField < g.width then .error (.invalidConfig (.decimalField g.width)) else .ok ()
  else
    if widestBinaryField < g.width then .error (.invalidConfig (.binaryField g.width)) else .ok ()

/-- The value of a big-endian field of 64 bits at most; of a longer one, its last 64 bits. -/
def binaryValue (field : List UInt8) : Nat :=
  field.foldl (fun n b => (n * 256 + b.toNat) % UInt64.size) 0

/-- Whether a byte is a decimal digit. -/
def isDigit (b : UInt8) : Bool := 0x30 ≤ b && b ≤ 0x39

/-- The value of decimal digits, unless it exceeds 64 bits. -/
def digitsValue? (field : List UInt8) : Option Nat :=
  field.foldlM (fun n b =>
    let next := n * 10 + (b.toNat - 0x30)
    if next < UInt64.size then some next else none) 0

/-- The value of a length field. -/
def fieldValue (g : Geometry) (field : List UInt8) : Except Fault Nat :=
  if g.decimal then
    if field.isEmpty || !field.all isDigit then
      .error (.invalidFrameLength (.notDecimal field))
    else
      match digitsValue? field with
      | some n => .ok n
      | none => .error (.invalidFrameLength .digitsOverflow)
  else .ok (binaryValue field)

/-- The body length behind a prefix that starts the given bytes. -/
def bodyLength (g : Geometry) (bytes : List UInt8) : Except Fault Nat := do
  let value ← g.fieldValue ((bytes.drop g.offset).take g.width)
  let length : Int := value + g.adjustment.toInt
  if length < 0 then
    .error (.invalidFrameLength (.negative length value g.adjustment.toInt))
  else if UInt64.size ≤ length then .error (.invalidFrameLength (.overflow length))
  else return length.toNat

/-- A number as a big-endian field of the given width, if it fits. -/
def binaryField? (width value : Nat) : Option (List UInt8) :=
  if value < Nat.pow 256 width then
    some ((List.range width).map fun i => UInt8.ofNat (value / Nat.pow 256 (width - 1 - i)))
  else none

/-- A number as a field of decimal digits of the given width, if it fits. -/
def digitsField? (width value : Nat) : Option (List UInt8) :=
  let ds := Digits.padded width value
  if width < ds.length then none else some (ds.map fun c => UInt8.ofNat c.toNat)

/-- The value of the length field of a body of the given length. Lengths are signed 64-bit numbers
here, so one of `2 ^ 63` or more counts as negative. -/
def valueFor (g : Geometry) (length : Nat) : Int :=
  (length : Int).bmod UInt64.size - g.adjustment.toInt

/-- The prefix of a body of the given length. -/
def encodePrefix (g : Geometry) (length : Nat) : Except Fault (List UInt8) :=
  if g.isFramed then
    let value := g.valueFor length
    if value < 0 then .error (.invalidFrameLength (.shortBody length g.adjustment.toInt))
    else
      let field? := if g.decimal then digitsField? g.width value.toNat
        else binaryField? g.width value.toNat
      match field? with
      | some field => .ok (List.replicate g.offset 0 ++ field)
      | none => .error (.headerOverflow value g.width)
  else .ok []

end Geometry

end Interchange
