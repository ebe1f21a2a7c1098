import Interchange.Text.Digits

/-!
# MessagePack markers

The first byte of every MessagePack value says its kind and, for short values, the number or the
length itself. `ofByte` reads it, for every byte; `name` is how a diagnostic shows it.
-/

namespace Interchange.Pack

/-- A width of a number or of a length, in bytes. -/
inductive Width where
  | one
  | two
  | four
  | eight
  deriving DecidableEq, Repr

/-- How many bytes a width is. -/
def Width.bytes : Width → Nat
  | .one => 1
  | .two => 2
  | .four => 4
  | .eight => 8

/-- The first byte of a value. -/
inductive Marker where
  /-- A number from 0 to 127. -/
  | smallPositive (n : Nat)
  /-- A number from -32 to -1. -/
  | smallNegative (n : Int)
  /-- A map of up to 15 entries. -/
  | smallMap (n : Nat)
  /-- An array of up to 15 elements. -/
  | smallArray (n : Nat)
  /-- A text of up to 31 bytes. -/
  | smallText (n : Nat)
  /-- No value. -/
  | nil
  /-- A byte with no meaning. -/
  | reserved
  /-- A truth value. -/
  | boolean (b : Bool)
  /-- Bytes with a length of the given width. -/
  | bytes (w : Width)
  /-- An extension value with a length of the given width. -/
  | extension (w : Width)
  /-- A binary32 number. -/
  | float32
  /-- A binary64 number. -/
  | float64
  /-- An unsigned number of the given width. -/
  | unsigned (w : Width)
  /-- A signed number of the given width. -/
  | signed (w : Width)
  /-- An extension value of `n` bytes. -/
  | fixedExtension (n : Nat)
  /-- A text with a length of the given width. -/
  | text (w : Width)
  /-- An array with a length of the given width. -/
  | array (w : Width)
  /-- A map with a length of the given width. -/
  | map (w : Width)
  deriving DecidableEq, Repr

namespace Marker

/-- The marker that a byte stands for. -/
def ofByte (b : UInt8) : Marker :=
  let n := b.toNat
  if n < 0x80 then smallPositive n
  else if n < 0x90 then smallMap (n - 0x80)
  else if n < 0xA0 then smallArray (n - 0x90)
  else if n < 0xC0 then smallText (n - 0xA0)
  else if 0xE0 ≤ n then smallNegative (n - 256)
  else
    match n with
    | 0xC0 => nil
    | 0xC1 => reserved
    | 0xC2 => boolean false
    | 0xC3 => boolean true
    | 0xC4 => bytes .one
    | 0xC5 => bytes .two
    | 0xC6 => bytes .four
    | 0xC7 => extension .one
    | 0xC8 => extension .two
    | 0xC9 => extension .four
    | 0xCA => float32
    | 0xCB => float64
    | 0xCC => unsigned .one
    | 0xCD => unsigned .two
    | 0xCE => unsigned .four
    | 0xCF => unsigned .eight
    | 0xD0 => signed .one
    | 0xD1 => signed .two
    | 0xD2 => signed .four
    | 0xD3 => signed .eight
    | 0xD4 => fixedExtension 1
    | 0xD5 => fixedExtension 2
    | 0xD6 => fixedExtension 4
    | 0xD7 => fixedExtension 8
    | 0xD8 => fixedExtension 16
    | 0xD9 => text .one
    | 0xDA => text .two
    | 0xDB => text .four
    | 0xDC => array .two
    | 0xDD => array .four
    | 0xDE => map .two
    | _ => map .four

/-- The bits of a width as a numeral. -/
def bits (w : Width) : String := Digits.text (8 * w.bytes)

/-- A marker in a diagnostic. -/
def name : Marker → String
  | smallPositive n => "FixPos(" ++ Digits.text n ++ ")"
  | smallNegative n => "FixNeg(" ++ Digits.signed n ++ ")"
  | smallMap n => "FixMap(" ++ Digits.text n ++ ")"
  | smallArray n => "FixArray(" ++ Digits.text n ++ ")"
  | smallText n => "FixStr(" ++ Digits.text n ++ ")"
  | nil => "Null"
  | reserved => "Reserved"
  | boolean b => if b then "True" else "False"
  | bytes w => "Bin" ++ bits w
  | extension w => "Ext" ++ bits w
  | float32 => "F32"
  | float64 => "F64"
  | unsigned w => "U" ++ bits w
  | signed w => "I" ++ bits w
  | fixedExtension n => "FixExt" ++ Digits.text n
  | text w => "Str" ++ bits w
  | array w => "Array" ++ bits w
  | map w => "Map" ++ bits w

end Marker

end Interchange.Pack
