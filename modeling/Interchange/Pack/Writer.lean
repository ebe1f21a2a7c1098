import Interchange.Message
import Interchange.Pack.Fault

/-!
# Writing messages as MessagePack

A message is a map of its type and its fields, the fields a map from numbers to values in ascending
order, and a value a map of one entry from the name of its kind to its content. Every number,
length and header takes its smallest form.
-/

namespace Interchange.Pack

/-- The `w` low bytes of a number, the most significant first. -/
def bigEndian (w n : Nat) : List UInt8 :=
  match w with
  | 0 => []
  | w + 1 => bigEndian w (n / 256) ++ [UInt8.ofNat n]

/-- An unsigned number below `2 ^ 64`. -/
def writeNat (n : Nat) : List UInt8 :=
  if n < 0x80 then [UInt8.ofNat n]
  else if n < UInt8.size then 0xCC :: bigEndian 1 n
  else if n < UInt16.size then 0xCD :: bigEndian 2 n
  else if n < UInt32.size then 0xCE :: bigEndian 4 n
  else 0xCF :: bigEndian 8 n

/-- The header of a text of `n` bytes. -/
def textHeader (n : Nat) : List UInt8 :=
  if n < 32 then [UInt8.ofNat (0xA0 + n)]
  else if n < UInt8.size then 0xD9 :: bigEndian 1 n
  else if n < UInt16.size then 0xDA :: bigEndian 2 n
  else 0xDB :: bigEndian 4 n

/-- The header of an array of `n` elements. -/
def arrayHeader (n : Nat) : List UInt8 :=
  if n < 16 then [UInt8.ofNat (0x90 + n)]
  else if n < UInt16.size then 0xDC :: bigEndian 2 n
  else 0xDD :: bigEndian 4 n

/-- The header of a map of `n` entries. -/
def mapHeader (n : Nat) : List UInt8 :=
  if n < 16 then [UInt8.ofNat (0x80 + n)]
  else if n < UInt16.size then 0xDE :: bigEndian 2 n
  else 0xDF :: bigEndian 4 n

/-- A text. -/
def writeText (s : String) : List UInt8 :=
  let bs := Utf8.encode s.toList
  textHeader bs.length ++ bs

/-- Bytes as an array of numbers. -/
def writeBytes (bs : List UInt8) : List UInt8 :=
  arrayHeader bs.length ++ bs.flatMap fun b => writeNat b.toNat

/-- A record: a map of two named entries that are already written. -/
def writeRecord (r : Record) (first second : List UInt8) : List UInt8 :=
  mapHeader 2 ++ (writeText r.keys.1 ++ (first ++ (writeText r.keys.2 ++ second)))

/-- The kind of a field value. -/
def Variant.of : FieldValue → Variant
  | .numeric .. => .numeric
  | .alpha .. => .alpha
  | .llvar _ => .llvar
  | .lllvar _ => .lllvar
  | .binary _ => .binary

/-- The content of a field value. -/
def writeContent : FieldValue → List UInt8
  | .numeric value length =>
    writeRecord (.content .numeric) (writeNat value.toNat) (writeNat length.toNat)
  | .alpha text length => writeRecord (.content .alpha) (writeText text) (writeNat length.toNat)
  | .llvar text => writeText text
  | .lllvar text => writeText text
  | .binary bytes => writeBytes bytes

/-- A field value. -/
def writeValue (v : FieldValue) : List UInt8 :=
  mapHeader 1 ++ (writeText (Variant.of v).name ++ writeContent v)

/-- Fields in the order of a list. -/
def writeEntries (es : List (UInt8 × FieldValue)) : List UInt8 :=
  mapHeader es.length ++ es.flatMap fun e => writeNat e.1.toNat ++ writeValue e.2

/-- A message. -/
def serialize (m : Message) : List UInt8 :=
  writeRecord .message (writeNat m.mti.toNat) (writeEntries m.fields.entries)

end Interchange.Pack
