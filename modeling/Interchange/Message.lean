import Interchange.Mti
import Interchange.Text.Digits

/-!
# Messages

A message is a type indicator and numbered fields, each with one value of five kinds. The fields
are kept in ascending order of their numbers, one value a number, so two messages are equal exactly
when they have the same type and the same value at every number.
-/

namespace Interchange

/-- The value of a field. -/
inductive FieldValue where
  /-- A number shown with zeros in front up to `length` digits. -/
  | numeric (value length : UInt64)
  /-- A text shown with blanks after it up to `length` characters. -/
  | alpha (text : String) (length : UInt64)
  /-- A text whose length takes two digits. -/
  | llvar (text : String)
  /-- A text whose length takes three digits. -/
  | lllvar (text : String)
  /-- Raw bytes. -/
  | binary (bytes : List UInt8)
  deriving DecidableEq, Repr

namespace FieldValue

/-- A value as text. Bytes are shown by their hexadecimal digits. -/
def chars : FieldValue → List Char
  | numeric value length => Digits.padded length.toNat value.toNat
  | alpha text length =>
    let cs := text.toList
    cs ++ List.replicate (length.toNat - cs.length) ' '
  | llvar text => text.toList
  | lllvar text => text.toList
  | binary bytes => bytes.flatMap Digits.upperByte

/-- A value as a string. -/
def text (v : FieldValue) : String := String.ofList v.chars

end FieldValue

/-- The fields of a message: numbers in strictly ascending order, each with its value. -/
structure Fields where
  /-- The numbers and their values. -/
  entries : List (UInt8 × FieldValue)
  /-- The numbers ascend. -/
  ascending : entries.Pairwise (fun a b => a.1 < b.1) := by simp

namespace Fields

@[ext]
theorem ext {a b : Fields} (h : a.entries = b.entries) : a = b := by
  cases a; cases b; cases h; rfl

instance : DecidableEq Fields := fun a b =>
  decidable_of_iff (a.entries = b.entries) ⟨ext, fun h => h ▸ rfl⟩

instance : Repr Fields := ⟨fun f n => reprPrec f.entries n⟩

/-- No fields. -/
def empty : Fields := ⟨[], by simp⟩

/-- Put a value at a number into an ascending list, in place of the one that is there. -/
def insertEntry (i : UInt8) (v : FieldValue) :
    List (UInt8 × FieldValue) → List (UInt8 × FieldValue)
  | [] => [(i, v)]
  | e :: es =>
    if i < e.1 then (i, v) :: e :: es
    else if i = e.1 then (i, v) :: es
    else e :: insertEntry i v es

theorem fst_of_mem_insertEntry {i : UInt8} {v : FieldValue} {es : List (UInt8 × FieldValue)}
    {x : UInt8 × FieldValue} (h : x ∈ insertEntry i v es) : x.1 = i ∨ x ∈ es := by
  induction es with
  | nil => simp [insertEntry] at h; simp [h]
  | cons e es ih =>
    simp only [insertEntry] at h
    split at h
    · rcases List.mem_cons.1 h with h | h
      · simp [h]
      · exact .inr h
    · split at h
      · rcases List.mem_cons.1 h with h | h
        · simp [h]
        · exact .inr (List.mem_cons_of_mem _ h)
      · rcases List.mem_cons.1 h with h | h
        · simp [h]
        · exact (ih h).imp id (List.mem_cons_of_mem _)

theorem pairwise_insertEntry (i : UInt8) (v : FieldValue) {es : List (UInt8 × FieldValue)}
    (h : es.Pairwise (fun a b => a.1 < b.1)) :
    (insertEntry i v es).Pairwise (fun a b => a.1 < b.1) := by
  induction es with
  | nil => simp [insertEntry]
  | cons e es ih =>
    obtain ⟨he, hes⟩ := List.pairwise_cons.1 h
    simp only [insertEntry]
    split
    · next hi =>
      refine List.pairwise_cons.2 ⟨fun x hx => ?_, h⟩
      rcases List.mem_cons.1 hx with rfl | hx
      · exact hi
      · exact UInt8.lt_trans hi (he x hx)
    · split
      · next hi =>
        refine List.pairwise_cons.2 ⟨fun x hx => ?_, hes⟩
        exact hi ▸ he x hx
      · next h1 h2 =>
        refine List.pairwise_cons.2 ⟨fun x hx => ?_, ih hes⟩
        rcases fst_of_mem_insertEntry hx with hx | hx
        · rw [hx]
          exact UInt8.lt_of_le_of_ne (UInt8.not_lt.1 h1) (Ne.symm h2)
        · exact he x hx

/-- Set the value at a number. -/
def insert (f : Fields) (i : UInt8) (v : FieldValue) : Fields :=
  ⟨insertEntry i v f.entries, pairwise_insertEntry i v f.ascending⟩

/-- The value at a number, if it is present. -/
def get? (f : Fields) (i : UInt8) : Option FieldValue := f.entries.lookup i

/-- The numbers that are present, ascending. -/
def indices (f : Fields) : List UInt8 := f.entries.map (·.1)

section Lookup

variable {f : Fields} {i : UInt8} {v : FieldValue}

/-- The entry with a number is the one that is found there. -/
theorem get?_of_mem (h : (i, v) ∈ f.entries) : f.get? i = some v := by
  obtain ⟨before, after, hsplit⟩ := List.append_of_mem h
  have hbefore : ∀ e ∈ before, e.1 < i := by
    have hascending := f.ascending
    rw [hsplit, List.pairwise_append] at hascending
    exact fun e he => hascending.2.2 e he (i, v) List.mem_cons_self
  refine List.lookup_eq_some_iff.2 ⟨before, after, hsplit, fun e he => ?_⟩
  have hne : i ≠ e.1 := fun h => UInt8.lt_irrefl _ (h ▸ hbefore e he)
  simpa using hne

theorem mem_of_get? (h : f.get? i = some v) : (i, v) ∈ f.entries := by
  obtain ⟨before, after, hsplit, -⟩ := List.lookup_eq_some_iff.1 h
  simp [hsplit]

theorem exists_get?_of_mem (h : i ∈ f.indices) : ∃ v, f.get? i = some v := by
  obtain ⟨⟨i, v⟩, hv, rfl⟩ := List.mem_map.1 h
  exact ⟨v, get?_of_mem hv⟩

theorem get?_eq_none (h : i ∉ f.indices) : f.get? i = none := by
  cases hv : f.get? i with
  | none => rfl
  | some v => exact absurd (List.mem_map_of_mem (mem_of_get? hv)) h

end Lookup

/-- Set values one after the other: the last one at a number stays. -/
def ofList (es : List (UInt8 × FieldValue)) : Fields :=
  es.foldl (fun f e => f.insert e.1 e.2) empty

end Fields

/-- A message: a type indicator and fields. -/
structure Message where
  /-- The type indicator. -/
  mti : UInt16
  /-- The fields. -/
  fields : Fields
  deriving DecidableEq, Repr

namespace Message

/-- The message of a type without fields. -/
def new (mti : UInt16) : Message := ⟨mti, .empty⟩

/-- The message with the value at a number set. -/
def set (m : Message) (i : UInt8) (v : FieldValue) : Message :=
  { m with fields := m.fields.insert i v }

/-- The message with several values set one after the other. -/
def setAll (m : Message) (es : List (UInt8 × FieldValue)) : Message :=
  es.foldl (fun m e => m.set e.1 e.2) m

/-- The value at a number, if it is present. -/
def field? (m : Message) (i : UInt8) : Option FieldValue := m.fields.get? i

/-- Whether a number is present. -/
def has (m : Message) (i : UInt8) : Bool := (m.field? i).isSome

/-- The response to a request: the response type with all fields of the request. -/
def response (m : Message) : Message := { m with mti := Mti.response m.mti }

/-- The echo request of a version of the standard. -/
def echoRequest (v : Mti.Version) : Message := new (Mti.echoRequest v)

end Message

end Interchange
