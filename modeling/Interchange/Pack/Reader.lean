import Interchange.Message
import Interchange.Pack.Fault

/-!
# Reading messages from MessagePack

Readers take bytes off the front of the input and leave the rest; the first fault in the order of
the bytes is reported. A record may be written as a map with named or numbered keys in any order,
as an array, or as bytes; unknown keys are skipped with their values. Arrays, maps and extension
values count as levels of nesting, of which fewer than `depthLimit` may be open.

Main definition: `parse`, which ignores what follows the message.
-/

namespace Interchange.Pack

/-- A reader: the value at the front of the input, and the rest. -/
abbrev Reader (α : Type) := List UInt8 → Except Fault (α × List UInt8)

/-- Read nothing. -/
@[inline]
def Reader.pure {α : Type} (a : α) : Reader α := fun input => .ok (a, input)

/-- Report a fault. -/
@[inline]
def Reader.fail {α : Type} (f : Fault) : Reader α := fun _ => .error f

/-- Read one thing and then another. -/
@[inline]
def Reader.andThen {α β : Type} (r : Reader α) (k : α → Reader β) : Reader β := fun input =>
  match r input with
  | .ok (a, rest) => k a rest
  | .error f => .error f

instance : Monad Reader where
  pure := Reader.pure
  bind := Reader.andThen

/-- The depth that must not be reached. -/
def depthLimit : Nat := 1024

/-- The marker of the next value. -/
def readMarker : Reader Marker
  | [] => .error .markerMissing
  | b :: rest => .ok (Marker.ofByte b, rest)

/-- A number of `n` bytes, the most significant first, after the digits read into `acc`. -/
def readDigits (acc : Nat) : (n : Nat) → Reader Nat
  | 0 => .pure acc
  | n + 1 => fun input =>
    match input with
    | [] => .error .numberCut
    | b :: rest => readDigits (acc * 256 + b.toNat) n rest

/-- A number of the given width. -/
def readUnsigned (w : Width) : Reader Nat := readDigits 0 w.bytes

/-- A number of the given width in two's complement. -/
def readSigned (w : Width) : Reader Int := do
  let n ← readUnsigned w
  return if n < Nat.pow 2 (8 * w.bytes - 1) then (n : Int) else (n : Int) - Nat.pow 2 (8 * w.bytes)

/-- The next `n` bytes. -/
def readData (n : Nat) : Reader (List UInt8) := fun input =>
  if n ≤ input.length then .ok (input.take n, input.drop n) else .error .dataCut

/-- A number behind its marker. -/
inductive Number where
  /-- No value. -/
  | unit
  /-- A truth value. -/
  | boolean (b : Bool)
  /-- A number with an unsigned marker. -/
  | unsigned (n : Nat)
  /-- A number with a signed marker. -/
  | signed (n : Int)
  /-- A floating-point number. -/
  | float (x : Binary64)
  deriving DecidableEq, Repr

/-- A scalar in a diagnostic. -/
def Number.found : Number → Found
  | .unit => .unit
  | .boolean b => .boolean b
  | .unsigned n => .integer n
  | .signed n => .integer n
  | .float x => .float x

/-- The scalar behind a marker, if the marker is a scalar's. -/
def readNumber? : Marker → Option (Reader Number)
  | .nil => some (.pure .unit)
  | .boolean b => some (.pure (.boolean b))
  | .smallPositive n => some (.pure (.unsigned n))
  | .smallNegative n => some (.pure (.signed n))
  | .unsigned w => some (do return .unsigned (← readUnsigned w))
  | .signed w => some (do return .signed (← readSigned w))
  | .float32 => some (do return .float (.ofBits32 (← readUnsigned .four)))
  | .float64 => some (do return .float (.ofBits (← readUnsigned .eight)))
  | _ => none

/-- The value at the front of the input, up to where its elements start. Texts and bytes are read
whole. -/
inductive Head where
  /-- A scalar. -/
  | number (n : Number)
  /-- A text, or the fault in it, and its bytes. -/
  | text (content : Except Utf8.Fault (List Char)) (bytes : List UInt8)
  /-- Bytes. -/
  | bytes (content : List UInt8)
  /-- An array of `n` elements. -/
  | array (n : Nat)
  /-- A map of `n` entries. -/
  | map (n : Nat)
  /-- An extension value of `n` bytes. -/
  | extension (n : Nat)

/-- The text of the next `n` bytes. -/
def readTextHead (n : Nat) : Reader Head := do
  let bs ← readData n
  return .text (Utf8.decode bs) bs

/-- Open a level of nesting where `depth` levels are left. -/
def openLevel (depth : Nat) (h : Head) : Reader Head :=
  if depth ≤ 1 then .fail .tooDeep else .pure h

/-- The head behind a marker where `depth` levels are left. -/
def readHeadAt (depth : Nat) (m : Marker) : Reader Head :=
  match readNumber? m with
  | some r => do return .number (← r)
  | none =>
    match m with
    | .smallText n => readTextHead n
    | .text w => do readTextHead (← readUnsigned w)
    | .bytes w => do return .bytes (← readData (← readUnsigned w))
    | .smallArray n => openLevel depth (.array n)
    | .array w => do openLevel depth (.array (← readUnsigned w))
    | .smallMap n => openLevel depth (.map n)
    | .map w => do openLevel depth (.map (← readUnsigned w))
    | .fixedExtension n => openLevel depth (.extension n)
    | .extension w => do openLevel depth (.extension (← readUnsigned w))
    | m => .fail (.wrongMarker m)

/-- The head of the next value where `depth` levels are left. -/
def readHead (depth : Nat) : Reader Head := do readHeadAt depth (← readMarker)

/-- What was found where a head of another kind was expected. A text that is not UTF-8 is its own
fault. -/
def Head.mismatch (h : Head) (expected : Expected) : Fault :=
  match h with
  | .number n => .wrongType n.found expected
  | .text (.ok cs) _ => .wrongType (.text cs) expected
  | .text (.error f) _ => .badText f
  | .bytes _ => .wrongType .bytes expected
  | .array _ => .wrongType .sequence expected
  | .map _ => .wrongType .map expected
  | .extension _ => .wrongType .extension expected

/-- A scalar as an integer of a kind. -/
def Number.toInteger (k : IntegerKind) : Number → Except Fault Nat
  | .unsigned n => if n < k.bound then .ok n else .error (.wrongValue (.integer n) (.integer k))
  | .signed n =>
    if 0 ≤ n ∧ n < k.bound then .ok n.toNat else .error (.wrongValue (.integer n) (.integer k))
  | n => .error (.wrongType n.found (.integer k))

/-- Report the fault of a pure step. -/
def Reader.lift {α : Type} : Except Fault α → Reader α
  | .ok a => .pure a
  | .error f => .fail f

/-- An integer of a kind. -/
def readInteger (k : IntegerKind) : Reader Nat := do
  let m ← readMarker
  match readNumber? m with
  | some r => do .lift ((← r).toInteger k)
  | none => .fail (.wrongMarker m)

/-- A text: a text or bytes that hold UTF-8. -/
def readText (depth : Nat) : Reader String := do
  match ← readHead depth with
  | .text (.ok cs) _ => return String.ofList cs
  | .bytes bs =>
    match Utf8.decode bs with
    | .ok cs => return String.ofList cs
    | .error _ => .fail (.wrongValue .bytes .text)
  | h => .fail (h.mismatch .text)

/-- `n` values one after the other. -/
def readTimes {α : Type} (r : Reader α) : (n : Nat) → Reader (List α)
  | 0 => .pure []
  | n + 1 => do
    let a ← r
    let as ← readTimes r n
    return a :: as

/-- Bytes: an array of bytes or bytes. -/
def readBytes (depth : Nat) : Reader (List UInt8) := do
  match ← readHead depth with
  | .bytes bs => return bs
  | .array n => return (← readTimes (readInteger .octet) n).map UInt8.ofNat
  | h => .fail (h.mismatch .sequence)

/-- Skip `n` values one after the other. -/
def skipTimes (r : Reader Unit) : (n : Nat) → Reader Unit
  | 0 => .pure ()
  | n + 1 => do
    r
    skipTimes r n

/-- Skip the type of an extension value and its `n` bytes. -/
def skipExtension (n : Nat) : Reader Unit := do
  let _ ← readDigits 0 1
  let _ ← readData n

/-- Skip any value where `depth` levels are left. -/
def skipValue : (depth : Nat) → Reader Unit
  | 0 => .fail .tooDeep
  | depth + 1 => do
    match ← readHead (depth + 1) with
    | .array n => skipTimes (skipValue depth) n
    | .map n => skipTimes (skipValue depth) (2 * n)
    | .extension n => skipExtension n
    | _ => return

/-- A key of a record: one of its two entries, or another. -/
inductive Key where
  | first
  | second
  | other
  deriving DecidableEq, Repr

/-- The key with a name. -/
def Record.keyNamed (r : Record) (name : List Char) : Key :=
  if name = r.keys.1.toList then .first
  else if name = r.keys.2.toList then .second
  else .other

/-- The key at a position. -/
def Key.ofPosition : Nat → Key
  | 0 => .first
  | 1 => .second
  | _ => .other

/-- A key of a record: a name as text or bytes, or a position. -/
def readKey (r : Record) (depth : Nat) : Reader Key := do
  match ← readHead depth with
  | .number (.unsigned n) => return Key.ofPosition n
  | .text (.ok cs) _ => return r.keyNamed cs
  | .text (.error _) _ => return .other
  | .bytes bs =>
    match Utf8.decode bs with
    | .ok cs => return r.keyNamed cs
    | .error _ => return .other
  | h => .fail (h.mismatch .fieldIdentifier)

/-- The entries of a record that is written as a map of `n` entries, where `a` and `b` were read
before. -/
def readRecordMap {α β : Type} (r : Record) (depth : Nat) (first : Reader α) (second : Reader β)
    (a : Option α) (b : Option β) : (n : Nat) → Reader (α × β)
  | 0 =>
    match a, b with
    | some a, some b => .pure (a, b)
    | none, _ => .fail (.missingKey r.keys.1)
    | some _, none => .fail (.missingKey r.keys.2)
  | n + 1 => do
    match ← readKey r depth with
    | .first =>
      if a.isSome then .fail (.duplicateKey r.keys.1)
      else readRecordMap r depth first second (some (← first)) b n
    | .second =>
      if b.isSome then .fail (.duplicateKey r.keys.2)
      else readRecordMap r depth first second a (some (← second)) n
    | .other => do
      skipValue depth
      readRecordMap r depth first second a b n

/-- The entries of a record that is written as an array of `n` elements. -/
def readRecordArray {α β : Type} (r : Record) (first : Reader α) (second : Reader β) (n : Nat) :
    Reader (α × β) :=
  match n with
  | 0 => .fail (.tooShort 0 r)
  | 1 => do
    let _ ← first
    .fail (.tooShort 1 r)
  | n + 2 => do
    let a ← first
    let b ← second
    if n = 0 then return (a, b) else .fail (.wrongLength 2)

/-- The entries of a record that is written as bytes, each byte a number. -/
def recordOfBytes {α β : Type} (r : Record) (first : Nat → Except Fault α)
    (second : Nat → Except Fault β) : List UInt8 → Except Fault (α × β)
  | [] => .error (.tooShort 0 r)
  | [a] => do
    let _ ← first a.toNat
    .error (.tooShort 1 r)
  | a :: b :: rest => do
    let x ← first a.toNat
    let y ← second b.toNat
    if rest.isEmpty then return (x, y) else .error (.wrongLength 2)

/-- How an entry of a record is read: from the input, or from a number where the record is bytes. -/
structure Entry (α : Type) where
  /-- From the input where that many levels are left. -/
  read : Nat → Reader α
  /-- From a number. -/
  ofNat : Nat → Except Fault α

/-- A record of two entries where `depth` levels are left. -/
def readRecord {α β : Type} (r : Record) (first : Entry α) (second : Entry β) (depth : Nat) :
    Reader (α × β) := do
  match ← readHead depth with
  | .map n =>
    readRecordMap r (depth - 1) (first.read (depth - 1)) (second.read (depth - 1)) none none n
  | .array n => readRecordArray r (first.read (depth - 1)) (second.read (depth - 1)) n
  | .bytes bs => .lift (recordOfBytes r first.ofNat second.ofNat bs)
  | h => .fail (h.mismatch (.record r))

/-- An entry that is an integer. -/
def Entry.integer (k : IntegerKind) : Entry Nat where
  read _ := readInteger k
  ofNat n := Number.toInteger k (.unsigned n)

/-- An entry that no number can be. -/
def Entry.only {α : Type} (read : Nat → Reader α) (expected : Expected) : Entry α where
  read := read
  ofNat n := .error (.wrongType (.integer n) expected)

/-- The kind of field value with a name. -/
def Variant.named (name : List Char) : Except Fault Variant :=
  match Variant.all.find? (·.name.toList = name) with
  | some v => .ok v
  | none => .error (.unknownVariant name)

/-- The kind of field value at a position. -/
def Variant.at (n : Nat) : Except Fault Variant :=
  match Variant.all[n]? with
  | some v => .ok v
  | none => .error (.wrongValue (.integer n) .variantIndex)

/-- The kind of a field value: a name as text or bytes, or a position. -/
def readVariantAt (depth : Nat) (m : Marker) : Reader Variant := do
  match ← readHeadAt depth m with
  | .number (.unsigned n) => .lift (Variant.at n)
  | .text (.ok cs) _ => .lift (Variant.named cs)
  | .bytes bs => .lift (Variant.named (Utf8.decodeLossy bs))
  | h => .fail (h.mismatch .variantIdentifier)

/-- The content of a field value of a kind. -/
def readContent (depth : Nat) : Variant → Reader FieldValue
  | .numeric => do
    let (value, length) ←
      readRecord (.content .numeric) (.integer .long) (.integer .size) depth
    return .numeric (UInt64.ofNat value) (UInt64.ofNat length)
  | .alpha => do
    let (text, length) ←
      readRecord (.content .alpha) (.only readText .text) (.integer .size) depth
    return .alpha text (UInt64.ofNat length)
  | .llvar => do return .llvar (← readText depth)
  | .lllvar => do return .lllvar (← readText depth)
  | .binary => do return .binary (← readBytes depth)

/-- The kind of field value without content is no field value. -/
def bareVariant : Variant → Fault
  | .numeric => .wrongType .unitVariant .structVariant
  | .alpha => .wrongType .unitVariant .structVariant
  | .llvar => .wrongType .unitVariant .newtypeVariant
  | .lllvar => .wrongType .unitVariant .newtypeVariant
  | .binary => .wrongType .unitVariant .newtypeVariant

/-- A field value: a map of one entry from its kind to its content. The map is no level of
nesting. -/
def readValue (depth : Nat) : Reader FieldValue := do
  match ← readMarker with
  | .smallMap n => ofMap n
  | .map w => do ofMap (← readUnsigned w)
  | m => do
    let v ← readVariantAt depth m
    .fail (bareVariant v)
where
  /-- The value behind the header of a map of `n` entries. -/
  ofMap (n : Nat) : Reader FieldValue :=
    if n = 1 then do
      let v ← readVariantAt depth (← readMarker)
      readContent depth v
    else .fail (.wrongLength n)

/-- Fields: a map from numbers to values. The last value of a number stays. -/
def readFields (depth : Nat) : Reader Fields := do
  match ← readHead depth with
  | .map n =>
    let es ← readTimes entry n
    return Fields.ofList es
  | h => .fail (h.mismatch .map)
where
  /-- A number and its value. -/
  entry : Reader (UInt8 × FieldValue) := do
    let i ← readInteger .octet
    let v ← readValue (depth - 1)
    return (UInt8.ofNat i, v)

/-- A message. -/
def readMessage : Reader Message := do
  let (mti, fields) ← readRecord .message (.integer .short) (.only readFields .map) depthLimit
  return ⟨UInt16.ofNat mti, fields⟩

/-- The message at the front of a body. -/
def parse (body : List UInt8) : Except Fault Message :=
  match readMessage body with
  | .ok (m, _) => .ok m
  | .error f => .error f

end Interchange.Pack
