import Interchange.Number.Binary64
import Interchange.Pack.Marker
import Interchange.Text.Quoted
import Interchange.Text.Utf8

/-!
# What can be wrong with a message body

Each way in which a byte sequence fails to be a message, and its wording. A fault names what was
found and what was expected there.
-/

namespace Interchange.Pack

/-- The kinds of field value, in the order of their positions. -/
inductive Variant where
  | numeric
  | alpha
  | llvar
  | lllvar
  | binary
  deriving DecidableEq, Repr

/-- The name of a kind of field value on the wire. -/
def Variant.name : Variant → String
  | .numeric => "Numeric"
  | .alpha => "Alpha"
  | .llvar => "LlVar"
  | .lllvar => "LllVar"
  | .binary => "Binary"

/-- Every kind of field value, by position. -/
def Variant.all : List Variant := [.numeric, .alpha, .llvar, .lllvar, .binary]

/-- A record on the wire: a map or an array with two entries. -/
inductive Record where
  /-- A message. -/
  | message
  /-- The content of a numeric or an alphanumeric value. -/
  | content (v : Variant)
  deriving DecidableEq, Repr

/-- The names of the two entries of a record, by position. -/
def Record.keys : Record → String × String
  | .message => ("mti", "fields")
  | .content _ => ("value", "length")

/-- A record in a diagnostic. -/
def Record.name : Record → String
  | .message => "struct FieldMessage"
  | .content v => "struct variant FieldValue::" ++ v.name

/-- The unsigned integers that a message holds. -/
inductive IntegerKind where
  /-- Eight bits: a field number or a byte. -/
  | octet
  /-- Sixteen bits: a type indicator. -/
  | short
  /-- Sixty-four bits: a numeric value. -/
  | long
  /-- Sixty-four bits: a display length. -/
  | size
  deriving DecidableEq, Repr

/-- How many values an integer of a kind has. -/
def IntegerKind.bound : IntegerKind → Nat
  | .octet => UInt8.size
  | .short => UInt16.size
  | .long => UInt64.size
  | .size => UInt64.size

/-- A kind of integer in a diagnostic. -/
def IntegerKind.name : IntegerKind → String
  | .octet => "u8"
  | .short => "u16"
  | .long => "u64"
  | .size => "usize"

/-- What a diagnostic says was found. -/
inductive Found where
  | unit
  | boolean (b : Bool)
  | integer (n : Int)
  | float (x : Binary64)
  | text (s : List Char)
  | bytes
  | sequence
  | map
  | extension
  | unitVariant
  deriving DecidableEq, Repr

/-- What was found, in words. -/
def Found.words : Found → String
  | .unit => "unit value"
  | .boolean b => if b then "boolean `true`" else "boolean `false`"
  | .integer n => "integer `" ++ Digits.signed n ++ "`"
  | .float x => "floating point `" ++ x.text ++ "`"
  | .text s => "string " ++ String.ofList (Quoted.encode s)
  | .bytes => "byte array"
  | .sequence => "sequence"
  | .map => "map"
  | .extension => "newtype struct"
  | .unitVariant => "unit variant"

/-- What a diagnostic says was expected. -/
inductive Expected where
  | record (r : Record)
  | fieldIdentifier
  | variantIdentifier
  | variantIndex
  | map
  | text
  | sequence
  | integer (k : IntegerKind)
  | newtypeVariant
  | structVariant
  deriving DecidableEq, Repr

/-- What was expected, in words. -/
def Expected.words : Expected → String
  | .record r => r.name
  | .fieldIdentifier => "field identifier"
  | .variantIdentifier => "variant identifier"
  | .variantIndex => "variant index 0 <= i < 5"
  | .map => "a map"
  | .text => "a string"
  | .sequence => "a sequence"
  | .integer k => k.name
  | .newtypeVariant => "newtype variant"
  | .structVariant => "struct variant"

/-- Why a body is not a message. -/
inductive Fault where
  /-- The body ends where a value should start. -/
  | markerMissing
  /-- The body ends inside a number or a length. -/
  | numberCut
  /-- The body ends inside a text, inside bytes or inside an extension value. -/
  | dataCut
  /-- A value that is no number where one is expected, or a byte with no meaning. -/
  | wrongMarker (m : Marker)
  /-- Values are nested too deep. -/
  | tooDeep
  /-- A text is not UTF-8. -/
  | badText (f : Utf8.Fault)
  /-- An array or a map has the wrong number of entries. -/
  | wrongLength (n : Nat)
  /-- A value of the wrong kind. -/
  | wrongType (found : Found) (expected : Expected)
  /-- A value of the right kind that is out of range. -/
  | wrongValue (found : Found) (expected : Expected)
  /-- An array that ends too early for a record. -/
  | tooShort (n : Nat) (r : Record)
  /-- A kind of field value that does not exist. -/
  | unknownVariant (name : List Char)
  /-- A key that occurs twice. -/
  | duplicateKey (key : String)
  /-- A key that does not occur. -/
  | missingKey (key : String)
  /-- A fault of another codec, in its own words. -/
  | described (text : String)
  deriving DecidableEq, Repr

/-- The wording of a fault in a text. -/
def textFault (f : Utf8.Fault) : String :=
  match f.width with
  | some n =>
    "invalid utf-8 sequence of " ++ Digits.text n ++ " bytes from index " ++ Digits.text f.index
  | none => "incomplete utf-8 byte sequence from index " ++ Digits.text f.index

/-- The wording of a fault. -/
def Fault.message : Fault → String
  | .markerMissing => "IO error while reading marker: failed to fill whole buffer"
  | .numberCut => "IO error while reading data: failed to fill whole buffer"
  | .dataCut => "IO error while reading data: unexpected end of file"
  | .wrongMarker m => "wrong msgpack marker " ++ m.name
  | .tooDeep => "depth limit exceeded"
  | .badText f => "string found to be invalid utf8: " ++ textFault f
  | .wrongLength n => "array had incorrect length, expected " ++ Digits.text n
  | .wrongType found expected => "invalid type: " ++ found.words ++ ", expected " ++ expected.words
  | .wrongValue found expected =>
    "invalid value: " ++ found.words ++ ", expected " ++ expected.words
  | .tooShort n r =>
    "invalid length " ++ Digits.text n ++ ", expected " ++ r.name ++ " with 2 elements"
  | .unknownVariant name =>
    "unknown variant `" ++ String.ofList name ++ "`, expected one of "
      ++ ", ".intercalate (Variant.all.map fun v => "`" ++ v.name ++ "`")
  | .duplicateKey key => "duplicate field `" ++ key ++ "`"
  | .missingKey key => "missing field `" ++ key ++ "`"
  | .described text => text

end Interchange.Pack
