import Interchange.Number.Binary64

/-!
# JSON values

What a JSON document (RFC 8259) says. A number keeps the leading digits that fit into 64 bits, the
power of ten that they stand for, and whether it is written as an integer. A string that is no
Unicode text, because an escape stands for half of a surrogate pair, is kept as such.

`isDecodable` holds of the values that a reader can turn into text, binary64 numbers and at most
`depthLimit` levels of nesting.
-/

namespace Interchange.Json

/-- A number: `significand * 10 ^ scale`, with its sign. -/
structure Numeral where
  /-- Whether there is a minus sign. -/
  negative : Bool
  /-- The leading digits in front of and after the point, as many as make a number below
  `2 ^ 64`. -/
  significand : Nat
  /-- The power of ten. -/
  scale : Int
  /-- Whether there is neither a fraction nor an exponent. -/
  plain : Bool
  deriving DecidableEq, Repr

namespace Numeral

/-- The magnitude that is written, if it is an integer of 64 bits. -/
def magnitude? (n : Numeral) : Option Nat :=
  if n.plain && n.scale = 0 then some n.significand else none

/-- The natural number that is written, if it is one of 64 bits. -/
def toNat? (n : Numeral) : Option Nat := if n.negative then none else n.magnitude?

/-- The integer that is written, if its magnitude has 64 bits. Zero with a minus sign is none. -/
def toInt? (n : Numeral) : Option Int := do
  let m ← n.magnitude?
  if n.negative then if m = 0 then none else return -m else return m

/-- Whether the magnitude is within format binary64 when it is computed there: the significand and
the power of ten are rounded before they are multiplied. -/
def isFinite (n : Numeral) : Bool :=
  n.significand = 0 || (n.scale ≤ 308 &&
    Binary64.nearest n.significand * Binary64.nearest (Nat.pow 10 n.scale.toNat) <
      Binary64.overflow)

end Numeral

/-- A JSON value. -/
inductive Value where
  | null
  | boolean (b : Bool)
  | number (n : Numeral)
  /-- A string; none when it is no Unicode text. -/
  | text (s : Option (List Char))
  | array (vs : List Value)
  /-- Members in the order in which they are written. -/
  | object (es : List (Option (List Char) × Value))

/-- How many levels of nesting a value may have in order to be decoded. -/
def depthLimit : Nat := 127

mutual

/-- Whether a value can be decoded where `depth` levels of nesting are left. -/
def Value.isDecodableAt : (depth : Nat) → Value → Bool
  | _, .null => true
  | _, .boolean _ => true
  | _, .number n => n.isFinite
  | _, .text s => s.isSome
  | depth, .array vs => depth != 0 && elementsDecodable (depth - 1) vs
  | depth, .object es => depth != 0 && membersDecodable (depth - 1) es

/-- Whether all elements can be decoded. -/
def Value.elementsDecodable : (depth : Nat) → List Value → Bool
  | _, [] => true
  | depth, v :: vs => v.isDecodableAt depth && elementsDecodable depth vs

/-- Whether all members can be decoded. -/
def Value.membersDecodable : (depth : Nat) → List (Option (List Char) × Value) → Bool
  | _, [] => true
  | depth, (k, v) :: es => k.isSome && v.isDecodableAt depth && membersDecodable depth es

end

/-- Whether a document can be decoded. -/
def Value.isDecodable (v : Value) : Bool := v.isDecodableAt depthLimit

end Interchange.Json
