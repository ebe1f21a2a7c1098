import Interchange.Pack.Writer
import Mathlib.Data.List.Forall2

/-!
# The forms of a message

MessagePack leaves whoever writes a value a choice: a number or a length may be wider than it has to
be, a number may have a signed marker, bytes may stand as bytes or as an array of numbers, and the
entries of a map may stand in any order. `MessageForm` says which bytes are a form of a message, for
a type and for values with their numbers in the order in which they are written down, numbers that
occur again included.

What is written here is one of the forms, for every piece of a message: `natForm_writeNat`,
`headerForm_textHeader` and its like, `recordForm_writeRecord`.
-/

namespace Interchange.Pack

/-! ## Numbers -/

/-- The first byte of an unsigned number of a width. -/
def unsignedByte : Width → UInt8
  | .one => 0xCC
  | .two => 0xCD
  | .four => 0xCE
  | .eight => 0xCF

/-- The first byte of a signed number of a width. -/
def signedByte : Width → UInt8
  | .one => 0xD0
  | .two => 0xD1
  | .four => 0xD2
  | .eight => 0xD3

/-- The forms of a number that is not negative. -/
inductive NatForm (n : Nat) : List UInt8 → Prop
  /-- In its first byte. -/
  | small (h : n < 0x80) : NatForm n [UInt8.ofNat n]
  /-- With an unsigned marker. -/
  | unsigned (w : Width) (h : n < Nat.pow 256 w.bytes) :
    NatForm n (unsignedByte w :: bigEndian w.bytes n)
  /-- With a signed marker, where the sign bit is free. -/
  | signed (w : Width) (h : n < Nat.pow 2 (8 * w.bytes - 1)) :
    NatForm n (signedByte w :: bigEndian w.bytes n)

theorem natForm_writeNat {n : Nat} (h : n < UInt64.size) : NatForm n (writeNat n) := by
  unfold writeNat
  split
  · next h => exact .small h
  split
  · next h => exact .unsigned .one h
  split
  · next h => exact .unsigned .two h
  split
  · next h => exact .unsigned .four h
  · exact .unsigned .eight h

/-! ## Headers -/

/-- What has its length in front of it. -/
inductive Sized where
  | text
  | bytes
  | array
  | map
  deriving DecidableEq, Repr

/-- The header that is one byte, if there is one for a length. -/
def Sized.short? : Sized → Nat → Option UInt8
  | .text, n => if n < 32 then some (UInt8.ofNat (0xA0 + n)) else none
  | .bytes, _ => none
  | .array, n => if n < 16 then some (UInt8.ofNat (0x90 + n)) else none
  | .map, n => if n < 16 then some (UInt8.ofNat (0x80 + n)) else none

/-- The first byte of a header with a length of a width, if there is such a header. -/
def Sized.wide? : Sized → Width → Option UInt8
  | .text, .one => some 0xD9
  | .text, .two => some 0xDA
  | .text, .four => some 0xDB
  | .bytes, .one => some 0xC4
  | .bytes, .two => some 0xC5
  | .bytes, .four => some 0xC6
  | .array, .two => some 0xDC
  | .array, .four => some 0xDD
  | .map, .two => some 0xDE
  | .map, .four => some 0xDF
  | _, _ => none

/-- The forms of a header in front of something of length `n`. -/
inductive HeaderForm (k : Sized) (n : Nat) : List UInt8 → Prop
  /-- In one byte. -/
  | short {b : UInt8} (h : k.short? n = some b) : HeaderForm k n [b]
  /-- With a length of its own. -/
  | wide {w : Width} {b : UInt8} (hb : k.wide? w = some b) (h : n < Nat.pow 256 w.bytes) :
    HeaderForm k n (b :: bigEndian w.bytes n)

section

variable {n : Nat}

theorem headerForm_textHeader (h : n < UInt32.size) : HeaderForm .text n (textHeader n) := by
  unfold textHeader
  split
  · next h => exact .short (if_pos h)
  split
  · next h => exact .wide (w := .one) rfl h
  split
  · next h => exact .wide (w := .two) rfl h
  · exact .wide (w := .four) rfl h

theorem headerForm_arrayHeader (h : n < UInt32.size) : HeaderForm .array n (arrayHeader n) := by
  unfold arrayHeader
  split
  · next h => exact .short (if_pos h)
  split
  · next h => exact .wide (w := .two) rfl h
  · exact .wide (w := .four) rfl h

theorem headerForm_mapHeader (h : n < UInt32.size) : HeaderForm .map n (mapHeader n) := by
  unfold mapHeader
  split
  · next h => exact .short (if_pos h)
  split
  · next h => exact .wide (w := .two) rfl h
  · exact .wide (w := .four) rfl h

end

/-! ## Texts and bytes -/

/-- The forms of a text. -/
inductive TextForm (s : String) : List UInt8 → Prop
  | intro {header : List UInt8} (h : HeaderForm .text (Utf8.byteLength s) header) :
    TextForm s (header ++ Utf8.encode s.toList)

/-- The forms of bytes. -/
inductive BytesForm (bs : List UInt8) : List UInt8 → Prop
  /-- As they are. -/
  | raw {header : List UInt8} (h : HeaderForm .bytes bs.length header) : BytesForm bs (header ++ bs)
  /-- As an array of numbers. -/
  | array {header : List UInt8} {ws : List (List UInt8)} (h : HeaderForm .array bs.length header)
    (hs : List.Forall₂ (fun b w => NatForm b.toNat w) bs ws) : BytesForm bs (header ++ ws.flatten)

theorem textForm_writeText {s : String} (h : Utf8.byteLength s < UInt32.size) :
    TextForm s (writeText s) :=
  ⟨headerForm_textHeader h⟩

/-- What is written for each member of a list is a form of each. -/
theorem forall₂_map {α : Type} {form : α → List UInt8 → Prop} {write : α → List UInt8} {xs : List α}
    (h : ∀ x ∈ xs, form x (write x)) : List.Forall₂ form xs (xs.map write) :=
  List.forall₂_map_right_iff.2 (List.forall₂_same.2 h)

theorem bytesForm_writeBytes {bs : List UInt8} (h : bs.length < UInt32.size) :
    BytesForm bs (writeBytes bs) := by
  rw [writeBytes, List.flatMap_def]
  refine .array (headerForm_arrayHeader h) (forall₂_map fun b _ => natForm_writeNat ?_)
  exact Nat.lt_trans b.toNat_lt (by decide)

/-! ## Records -/

/-- The forms of a record whose entries have forms of their own. -/
inductive RecordForm (r : Record) (first second : List UInt8 → Prop) : List UInt8 → Prop
  /-- As a map, the first entry in front. -/
  | inOrder {header k v l w : List UInt8} (h : HeaderForm .map 2 header) (hk : TextForm r.keys.1 k)
    (hv : first v) (hl : TextForm r.keys.2 l) (hw : second w) :
    RecordForm r first second (header ++ (k ++ (v ++ (l ++ w))))
  /-- As a map, the second entry in front. -/
  | swapped {header k v l w : List UInt8} (h : HeaderForm .map 2 header) (hk : TextForm r.keys.1 k)
    (hv : first v) (hl : TextForm r.keys.2 l) (hw : second w) :
    RecordForm r first second (header ++ (l ++ (w ++ (k ++ v))))
  /-- As an array. -/
  | array {header v w : List UInt8} (h : HeaderForm .array 2 header) (hv : first v)
    (hw : second w) : RecordForm r first second (header ++ (v ++ w))

/-- A record whose second entry is written in front. -/
def writeSwapped (r : Record) (first second : List UInt8) : List UInt8 :=
  mapHeader 2 ++ (writeText r.keys.2 ++ (second ++ (writeText r.keys.1 ++ first)))

theorem Record.byteLength_keys (r : Record) :
    Utf8.byteLength r.keys.1 < UInt32.size ∧ Utf8.byteLength r.keys.2 < UInt32.size := by
  cases r with
  | message => decide
  | content v => cases v <;> decide

section

variable {r : Record} {first second : List UInt8 → Prop} {v w : List UInt8}

theorem recordForm_writeRecord (hv : first v) (hw : second w) :
    RecordForm r first second (writeRecord r v w) :=
  .inOrder (headerForm_mapHeader (by decide)) (textForm_writeText r.byteLength_keys.1) hv
    (textForm_writeText r.byteLength_keys.2) hw

theorem recordForm_writeSwapped (hv : first v) (hw : second w) :
    RecordForm r first second (writeSwapped r v w) :=
  .swapped (headerForm_mapHeader (by decide)) (textForm_writeText r.byteLength_keys.1) hv
    (textForm_writeText r.byteLength_keys.2) hw

end

/-! ## Values and messages -/

/-- The forms of the content of a field value. -/
def ContentForm : FieldValue → List UInt8 → Prop
  | .numeric value length =>
    RecordForm (.content .numeric) (NatForm value.toNat) (NatForm length.toNat)
  | .alpha text length => RecordForm (.content .alpha) (TextForm text) (NatForm length.toNat)
  | .llvar text => TextForm text
  | .lllvar text => TextForm text
  | .binary bytes => BytesForm bytes

/-- The forms of a field value: a map of one entry from the name of its kind to its content. -/
inductive ValueForm (v : FieldValue) : List UInt8 → Prop
  | intro {header name content : List UInt8} (h : HeaderForm .map 1 header)
    (hname : TextForm (Variant.of v).name name) (hcontent : ContentForm v content) :
    ValueForm v (header ++ (name ++ content))

/-- The forms of a number and its value. -/
inductive EntryForm (e : UInt8 × FieldValue) : List UInt8 → Prop
  | intro {i v : List UInt8} (hi : NatForm e.1.toNat i) (hv : ValueForm e.2 v) :
    EntryForm e (i ++ v)

/-- The forms of fields that are written down in the order of a list. -/
inductive EntriesForm (es : List (UInt8 × FieldValue)) : List UInt8 → Prop
  | intro {header : List UInt8} {ws : List (List UInt8)} (h : HeaderForm .map es.length header)
    (hes : List.Forall₂ EntryForm es ws) : EntriesForm es (header ++ ws.flatten)

/-- The forms of a message of a type whose fields are written down in the order of a list. -/
def MessageForm (mti : UInt16) (es : List (UInt8 × FieldValue)) : List UInt8 → Prop :=
  RecordForm .message (NatForm mti.toNat) (EntriesForm es)

end Interchange.Pack
