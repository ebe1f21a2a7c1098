import Interchange.Frame.Checked
import Interchange.Proofs.Frame.RoundTrip
import Mathlib.Data.List.Induction
import Mathlib.Data.Nat.Digits.Defs

/-!
# The length field as a partial bijection

A length field of a valid geometry is a numeral of fixed width: `number` is what it stands for, to
the base 256 or 10. Body lengths and length fields correspond to each other as far as both exist.

* `exists_field?_iff` and `fieldValue_of_allows`: a number has a field exactly when it is small
  enough, and a field is read as its number.
* `Checked.encodePrefix_eq` and `Checked.bodyLength_eq`: in machine words nothing traps, so the
  codec is what a machine computes.
* `lengths_and_fields` puts together which lengths have a prefix, which fields have a length, and
  that the two ways undo each other.
-/

namespace Interchange

namespace Geometry

/-! ## Numerals -/

/-- The base of the numerals in length fields. -/
def base (g : Geometry) : Nat := if g.decimal then 10 else 256

/-- The digit that a byte stands for. -/
def digitOf (g : Geometry) (b : UInt8) : Nat := if g.decimal then b.toNat - 0x30 else b.toNat

/-- Every byte of a field is a digit. -/
def Allows (g : Geometry) (field : List UInt8) : Prop := g.decimal = true → field.all isDigit = true

/-- The number that a field stands for, the first digit counting most. -/
def number (g : Geometry) (field : List UInt8) : Nat :=
  Nat.ofDigits g.base (field.map g.digitOf).reverse

variable {g : Geometry} {field : List UInt8}

theorem one_lt_base (g : Geometry) : 1 < g.base := by
  unfold base
  split <;> omega

@[simp] theorem number_nil (g : Geometry) : g.number [] = 0 := rfl

theorem number_concat (g : Geometry) (field : List UInt8) (b : UInt8) :
    g.number (field ++ [b]) = g.number field * g.base + g.digitOf b := by
  rw [number, List.map_append, List.reverse_append, List.map_singleton, List.reverse_singleton,
    List.singleton_append, Nat.ofDigits_cons, Nat.add_comm, Nat.mul_comm]
  rfl

theorem digit_range {b : UInt8} (h : isDigit b = true) : 0x30 ≤ b.toNat ∧ b.toNat ≤ 0x39 := by
  simpa [isDigit, UInt8.le_iff_toNat_le] using h

theorem Allows.digitOf_lt (h : g.Allows field) : ∀ b ∈ field, g.digitOf b < g.base := by
  intro b hb
  unfold digitOf base
  split
  · next hd =>
    have := digit_range (List.all_eq_true.1 (h hd) b hb)
    omega
  · exact b.toNat_lt

theorem Allows.of_append {front back : List UInt8} (h : g.Allows (front ++ back)) :
    g.Allows front ∧ g.Allows back := by
  have hall (hd : g.decimal = true) : front.all isDigit = true ∧ back.all isDigit = true := by
    rw [← Bool.and_eq_true, ← List.all_append]
    exact h hd
  exact ⟨fun hd => (hall hd).1, fun hd => (hall hd).2⟩

/-- A field of some width stands for a number of as many digits. -/
theorem number_lt (h : g.Allows field) : g.number field < g.base ^ field.length := by
  have hlt := Nat.ofDigits_lt_base_pow_length (l := (field.map g.digitOf).reverse) g.one_lt_base
    fun d hd => by
      obtain ⟨b, hb, rfl⟩ := List.mem_map.1 (List.mem_reverse.1 hd)
      exact h.digitOf_lt b hb
  rwa [List.length_reverse, List.length_map] at hlt

/-- Fields of the same width that stand for the same number are the same. -/
theorem eq_of_number_eq {field' : List UInt8} (h : g.Allows field) (h' : g.Allows field')
    (hlen : field.length = field'.length) (hn : g.number field = g.number field') :
    field = field' := by
  have hdigits : (field.map g.digitOf).reverse = (field'.map g.digitOf).reverse := by
    refine Nat.ofDigits_inj_of_len_eq g.one_lt_base (by simpa using hlen) ?_ ?_ hn
    · intro d hd
      obtain ⟨b, hb, rfl⟩ := List.mem_map.1 (List.mem_reverse.1 hd)
      exact h.digitOf_lt b hb
    · intro d hd
      obtain ⟨b, hb, rfl⟩ := List.mem_map.1 (List.mem_reverse.1 hd)
      exact h'.digitOf_lt b hb
  have hmap := List.reverse_inj.1 hdigits
  refine List.ext_getElem hlen fun i hi hi' => ?_
  have hi'' : (field.map g.digitOf)[i]? = (field'.map g.digitOf)[i]? := by rw [hmap]
  rw [List.getElem?_map, List.getElem?_map, List.getElem?_eq_getElem hi,
    List.getElem?_eq_getElem hi'] at hi''
  have hdigit : g.digitOf field[i] = g.digitOf field'[i] := Option.some.inj hi''
  refine UInt8.toNat_inj.1 ?_
  unfold digitOf at hdigit
  split at hdigit
  · next hd =>
    have h₁ := digit_range (List.all_eq_true.1 (h hd) _ (List.getElem_mem hi))
    have h₂ := digit_range (List.all_eq_true.1 (h' hd) _ (List.getElem_mem hi'))
    omega
  · exact hdigit

/-! ## Valid geometries -/

/-- A valid length field is not too wide. -/
theorem width_le (hg : g.validate = .ok ()) :
    g.width ≤ if g.decimal then widestDecimalField else widestBinaryField := by
  unfold validate at hg
  split at hg
  · next hd =>
    rw [if_pos hd]
    split at hg
    · cases hg
    · omega
  · next hd =>
    rw [if_neg hd]
    split at hg
    · cases hg
    · omega

/-- Every number of a valid length field fits a word. -/
theorem base_pow_le (hg : g.validate = .ok ()) {n : Nat} (hn : n ≤ g.width) :
    g.base ^ n ≤ UInt64.size := by
  have hw := width_le hg
  refine (Nat.pow_le_pow_right (Nat.lt_of_succ_lt g.one_lt_base) (hn.trans hw)).trans ?_
  unfold base
  split
  · decide
  · decide

/-! ## Reading a field -/

/-- A binary field of at most eight bytes loses nothing. -/
theorem binaryValue_eq_number (hd : g.decimal = false) (hlen : field.length ≤ widestBinaryField) :
    binaryValue field = g.number field := by
  have hbase : g.base = 256 := by rw [base, hd]; rfl
  have hallows (f : List UInt8) : g.Allows f := fun h => by rw [hd] at h; cases h
  induction field using List.reverseRecOn with
  | nil => rfl
  | append_singleton front b ih =>
    have hfront := ih (by rw [List.length_append] at hlen; omega)
    have hlt := number_lt (hallows (front ++ [b]))
    have hpow : g.base ^ (front ++ [b]).length ≤ UInt64.size := by
      rw [hbase]
      exact (Nat.pow_le_pow_right (by omega) hlen).trans (by decide)
    rw [number_concat] at hlt ⊢
    have hdigit : g.digitOf b = b.toNat := by rw [digitOf, hd]; rfl
    unfold binaryValue at hfront ⊢
    rw [List.foldl_append, hfront, List.foldl_cons, List.foldl_nil, hbase, hdigit]
    rw [hbase, hdigit] at hlt
    exact Nat.mod_eq_of_lt (by rw [hbase] at hpow; omega)

/-- At most nineteen digits do not exceed a word. -/
theorem digitsValue?_eq_number (hd : g.decimal = true) (hall : field.all isDigit = true)
    (hlen : field.length ≤ widestDecimalField) : digitsValue? field = some (g.number field) := by
  have hbase : g.base = 10 := by rw [base, hd]; rfl
  induction field using List.reverseRecOn with
  | nil => rfl
  | append_singleton front b ih =>
    have hallows : g.Allows (front ++ [b]) := fun _ => hall
    have hfront := ih (hallows.of_append.1 hd) (by rw [List.length_append] at hlen; omega)
    have hlt := number_lt hallows
    have hpow : g.base ^ (front ++ [b]).length ≤ UInt64.size := by
      rw [hbase]
      exact (Nat.pow_le_pow_right (by omega) hlen).trans (by decide)
    have hdigit : g.digitOf b = b.toNat - 0x30 := by rw [digitOf, hd]; rfl
    rw [number_concat, hbase, hdigit] at hlt ⊢
    rw [digitsValue?_eq] at hfront ⊢
    rw [List.foldlM_append, hfront]
    simp only [Option.bind_eq_bind, Option.bind_some, List.foldlM_cons, List.foldlM_nil, pushDigit]
    rw [if_pos (by rw [hbase] at hpow; omega)]
    rfl

theorem fieldValue_of_allows (hg : g.validate = .ok ()) (hw : 0 < g.width)
    (hlen : field.length = g.width) (h : g.Allows field) :
    g.fieldValue field = .ok (g.number field) := by
  have hwidth := width_le hg
  have hne : field.isEmpty = false := by
    cases field with
    | nil => rw [List.length_nil] at hlen; omega
    | cons => rfl
  unfold fieldValue
  cases hd : g.decimal with
  | true =>
    rw [hd, if_pos rfl] at hwidth
    simp only [↓reduceIte, hne, h hd, Bool.not_true, Bool.or_self, Bool.false_eq_true,
      digitsValue?_eq_number hd (h hd) (hlen ▸ hwidth)]
  | false =>
    rw [hd] at hwidth
    simp only [Bool.false_eq_true, ↓reduceIte] at hwidth ⊢
    rw [binaryValue_eq_number hd (hlen ▸ hwidth)]

theorem fieldValue_of_not_allows (h : ¬ g.Allows field) :
    g.fieldValue field = .error (.invalidFrameLength (.notDecimal field)) := by
  unfold Allows at h
  rw [Classical.not_imp] at h
  obtain ⟨hd, hall⟩ := h
  unfold fieldValue
  rw [if_pos hd, if_pos (by simp [Bool.eq_false_iff.2 hall])]

/-! ## Writing a field -/

/-- The field of a number, if it has one. -/
def field? (g : Geometry) (value : Nat) : Option (List UInt8) :=
  if g.decimal then digitsField? g.width value else binaryField? g.width value

/-- A prefix is the offset and the field of a value, unless the value is negative. -/
theorem encodePrefix_eq (hf : g.isFramed = true) (length : Nat) :
    g.encodePrefix length =
      if g.valueFor length < 0 then
        .error (.invalidFrameLength (.shortBody length g.adjustment.toInt))
      else match g.field? (g.valueFor length).toNat with
        | some field => .ok (List.replicate g.offset 0 ++ field)
        | none => .error (.headerOverflow (g.valueFor length) g.width) := by
  rw [encodePrefix, if_pos hf]
  rfl

/-- A numeral has as many digits as its number needs. -/
theorem length_decimal_le_iff {width n : Nat} (hw : 0 < width) :
    (Digits.decimal n).length ≤ width ↔ n < 10 ^ width := by
  induction n using Digits.decimal.induct generalizing width with
  | case1 n hn =>
    have hpow : 10 ^ 1 ≤ 10 ^ width := Nat.pow_le_pow_right (by omega) hw
    rw [Digits.decimal, if_pos hn, List.length_singleton]
    omega
  | case2 n hn ih =>
    rw [Digits.decimal, if_neg hn, List.length_append, List.length_singleton]
    obtain _ | _ | width := width
    · omega
    · have hpos : 0 < (Digits.decimal (n / 10)).length := by
        rw [Digits.decimal]
        split <;> simp
      omega
    · have hlen := @ih (width + 1) (by omega)
      rw [pow_succ]
      omega

/-- A number has a field exactly when it has no more digits than the field. -/
theorem exists_field?_iff (hw : 0 < g.width) (value : Nat) :
    (∃ field, g.field? value = some field) ↔ value < g.base ^ g.width := by
  rw [← Option.isSome_iff_exists]
  unfold field? base
  cases g.decimal with
  | true =>
    simp only [↓reduceIte, digitsField?, Digits.padded, List.length_append, List.length_replicate]
    rw [← length_decimal_le_iff hw]
    split
    · simp only [Option.isSome_none, Bool.false_eq_true, false_iff]
      omega
    · simp only [Option.isSome_some, true_iff]
      omega
  | false =>
    simp only [Bool.false_eq_true, ↓reduceIte, binaryField?, Nat.pow_eq]
    split <;> simp_all

/-- The field of a number stands for it. -/
theorem number_of_field? (hg : g.validate = .ok ()) {value : Nat}
    (hv : value < UInt64.size) (h : g.field? value = some field) :
    field.length = g.width ∧ g.Allows field ∧ g.number field = value := by
  have hwidth := width_le hg
  unfold field? at h
  split at h
  · next hd =>
    rw [if_pos hd] at hwidth
    obtain ⟨hlen, hall, hval⟩ := digitsField?_eq_some h hv
    refine ⟨hlen, fun _ => hall, ?_⟩
    rw [digitsValue?_eq_number hd hall (hlen ▸ hwidth)] at hval
    exact Option.some.inj hval
  · next hd =>
    rw [if_neg hd] at hwidth
    have hd : g.decimal = false := Bool.eq_false_iff.2 hd
    obtain ⟨hlen, hval⟩ := binaryField?_eq_some h hv
    refine ⟨hlen, fun h => ?_, ?_⟩
    · rw [hd] at h
      cases h
    · rw [← hval, binaryValue_eq_number hd (hlen ▸ hwidth)]

/-- A field is the field of its number. -/
theorem field?_number (hg : g.validate = .ok ()) (hw : 0 < g.width) (hlen : field.length = g.width)
    (h : g.Allows field) : g.field? (g.number field) = some field := by
  have hlt := number_lt h
  rw [hlen] at hlt
  obtain ⟨field', hf⟩ := (exists_field?_iff hw _).2 hlt
  obtain ⟨hlen', hallows', hn⟩ :=
    number_of_field? hg (Nat.lt_of_lt_of_le hlt (base_pow_le hg (Nat.le_refl _))) hf
  rw [hf, eq_of_number_eq hallows' h (hlen'.trans hlen.symm) hn]

/-! ## In machine words -/

namespace Checked

theorem pushByte_eq {n : Nat} {b : UInt8} :
    pushByte n b = some ((n * 256 + b.toNat) % UInt64.size) := by
  have hb : b.toNat < 2 ^ 8 := b.toNat_lt
  -- The lost bits are lost before the byte is put in or after.
  have hlow : (n <<< 8) % UInt64.size = (n % 2 ^ 56) <<< 8 := by
    rw [Nat.shiftLeft_eq, Nat.shiftLeft_eq]
    unfold UInt64.size
    omega
  unfold pushByte Word.shiftLeft
  rw [if_pos (by decide)]
  simp only [Option.bind_eq_bind, Option.bind_some, Option.pure_def]
  rw [hlow, ← Nat.shiftLeft_add_eq_or_of_lt hb, Nat.shiftLeft_eq]
  unfold UInt64.size
  congr 1
  omega

theorem foldlM_pushByte (field : List UInt8) :
    field.foldlM pushByte 0 = some (binaryValue field) := by
  induction field using List.reverseRecOn with
  | nil => rfl
  | append_singleton front b ih =>
    rw [List.foldlM_append, ih]
    simp only [Option.bind_eq_bind, Option.bind_some, List.foldlM_cons, List.foldlM_nil,
      pushByte_eq, Option.pure_def]
    unfold binaryValue
    rw [List.foldl_append]
    rfl

theorem foldlM_pushDigit (hall : field.all isDigit = true) :
    field.foldlM pushDigit (some 0) = some (digitsValue? field) := by
  induction field using List.reverseRecOn with
  | nil => rfl
  | append_singleton front b ih =>
    rw [List.all_append, Bool.and_eq_true, List.all_cons, List.all_nil, Bool.and_true] at hall
    rw [List.foldlM_append, ih hall.1, digitsValue?_eq, digitsValue?_eq, List.foldlM_append]
    cases front.foldlM Geometry.pushDigit 0 with
    | none => rfl
    | some n =>
      have hle := (digit_range hall.2).1
      simp only [Option.bind_eq_bind, Option.bind_some, List.foldlM_cons, List.foldlM_nil,
        pushDigit, Word.sub, hle, ↓reduceIte, Option.pure_def, Geometry.pushDigit]
      split <;> rfl

theorem fieldValue_eq (g : Geometry) (field : List UInt8) :
    fieldValue g field = some (g.fieldValue field) := by
  unfold fieldValue Geometry.fieldValue
  split
  · split
    · rfl
    · next hall =>
      have hdigits : field.all isDigit = true := by
        simp only [Bool.or_eq_true, Bool.not_eq_true', not_or, Bool.not_eq_false] at hall
        exact hall.2
      rw [foldlM_pushDigit hdigits]
      cases digitsValue? field <;> rfl
  · rw [foldlM_pushByte]
    rfl

theorem signed_eq_some {bits : Nat} {n : Int} (hlo : -(Nat.pow 2 (bits - 1) : Int) ≤ n)
    (hhi : n < Nat.pow 2 (bits - 1)) : Word.signed bits n = some n :=
  if_pos ⟨hlo, hhi⟩

theorem binaryValue_lt (field : List UInt8) : binaryValue field < UInt64.size := by
  induction field using List.reverseRecOn with
  | nil => decide
  | append_singleton front b _ =>
    unfold binaryValue
    rw [List.foldl_append]
    exact Nat.mod_lt _ (by decide)

theorem digitsValue?_lt {n : Nat} (h : digitsValue? field = some n) : n < UInt64.size := by
  induction field using List.reverseRecOn with
  | nil =>
    cases h
    decide
  | append_singleton front b _ =>
    rw [digitsValue?_eq, List.foldlM_append] at h
    obtain ⟨m, -, hm⟩ := Option.bind_eq_some_iff.1 h
    simp only [List.foldlM_cons, List.foldlM_nil, Geometry.pushDigit, Option.pure_def,
      Option.bind_eq_bind] at hm
    split at hm
    · next hlt =>
      cases hm
      exact hlt
    · cases hm

theorem fieldValue_lt {n : Nat} (h : g.fieldValue field = .ok n) : n < UInt64.size := by
  unfold Geometry.fieldValue at h
  split at h
  · split at h
    · cases h
    · split at h
      · next m hm =>
        cases h
        exact digitsValue?_lt hm
      · cases h
  · cases h
    exact binaryValue_lt field

/-- **Reading a prefix traps nowhere**: the field is inside the bytes, and a body length inside 128
bits. -/
theorem bodyLength_eq {bytes : List UInt8} (hfits : g.offset + g.width < UInt64.size)
    (hlen : g.offset + g.width ≤ bytes.length) :
    bodyLength g bytes = some (g.bodyLength bytes) := by
  have hlo := Int32.le_toInt g.adjustment
  have hhi := Int32.toInt_lt g.adjustment
  have hslice : Word.slice bytes g.offset (g.offset + g.width) =
      some ((bytes.drop g.offset).take g.width) := by
    rw [Word.slice, if_pos ⟨Nat.le_add_right .., hlen⟩, Nat.add_sub_cancel_left]
  unfold bodyLength Geometry.bodyLength
  simp only [Word.add, hfits, ↓reduceIte, Option.bind_eq_bind, Option.bind_some, hslice,
    fieldValue_eq]
  cases hv : g.fieldValue ((bytes.drop g.offset).take g.width) with
  | error f => rfl
  | ok value =>
    have hlt := fieldValue_lt hv
    have hpow :
        (Nat.pow 2 (128 - 1) : Int) = 170141183460469231731687303715884105728 := by norm_cast
    have hrange : Word.signed 128 (value + g.adjustment.toInt) =
        some (value + g.adjustment.toInt) := by
      unfold UInt64.size at hlt
      refine signed_eq_some ?_ ?_
      · rw [hpow]
        omega
      · rw [hpow]
        omega
    simp only [hrange, Option.bind_some, bind, Except.bind]
    split
    · rfl
    · split <;> rfl

theorem drop_bigEndian (k w n : Nat) : (Pack.bigEndian (k + w) n).drop k = Pack.bigEndian w n := by
  induction w generalizing n with
  | zero =>
    rw [Pack.bigEndian]
    exact List.drop_eq_nil_of_le (by rw [Pack.length_bigEndian, Nat.add_zero])
  | succ w ih =>
    rw [← Nat.add_assoc, Pack.bigEndian, Pack.bigEndian, List.drop_append_of_le_length, ih]
    rw [Pack.length_bigEndian]
    exact Nat.le_add_right ..

theorem excess_eq {width value : Nat} (hw : width ≤ widestBinaryField) (hv : value < UInt64.size) :
    excess width value = some (value / Nat.pow 256 width) := by
  unfold excess
  split
  · next hlt =>
    have hpow : Nat.pow 256 width = 2 ^ (8 * width) := by rw [Nat.pow_eq, Nat.pow_mul]
    unfold widestBinaryField at hlt
    rw [Word.shiftRight, if_pos (by omega), Nat.shiftRight_eq_div_pow, hpow]
  · next hge =>
    have hwidth : width = widestBinaryField := Nat.le_antisymm hw (Nat.le_of_not_lt hge)
    have hpow : Nat.pow 256 widestBinaryField = UInt64.size := by decide
    rw [hwidth, hpow, Nat.div_eq_of_lt hv]

theorem slice_bigEndian {width : Nat} (hw : width ≤ widestBinaryField) (value : Nat) :
    Word.slice (Pack.bigEndian widestBinaryField value) (widestBinaryField - width)
      widestBinaryField = some (Pack.bigEndian width value) := by
  have hlen : (Pack.bigEndian widestBinaryField value).length = widestBinaryField :=
    Pack.length_bigEndian ..
  have hdrop := drop_bigEndian (widestBinaryField - width) width value
  rw [Nat.sub_add_cancel hw] at hdrop
  rw [Word.slice, if_pos ⟨Nat.sub_le .., Nat.le_of_eq hlen.symm⟩, hdrop, Nat.sub_sub_self hw,
    List.take_of_length_le]
  rw [Pack.length_bigEndian]

theorem binaryField_eq {width value : Nat} (hw : width ≤ widestBinaryField)
    (hv : value < UInt64.size) : binaryField width value = some (binaryField? width value) := by
  have hpos : 0 < Nat.pow 256 width := Nat.pow_pos (by decide)
  unfold binaryField binaryField?
  simp only [excess_eq hw hv, Option.bind_eq_bind, Option.bind_some, Word.sub, hw, ↓reduceIte,
    slice_bigEndian hw, binaryDigits_eq, Option.pure_def]
  split
  · next hexcess =>
    have hle : ¬ value < Nat.pow 256 width := fun hlt => hexcess (Nat.div_eq_of_lt hlt)
    rw [if_neg hle]
  · next hexcess =>
    have hlt : value < Nat.pow 256 width := by
      by_contra hle
      exact hexcess (Nat.pos_iff_ne_zero.1 (Nat.div_pos (Nat.le_of_not_lt hle) hpos))
    rw [if_pos hlt]

theorem field_eq (hg : g.validate = .ok ()) {value : Nat} (hv : value < UInt64.size) :
    Checked.field g value = some (g.field? value) := by
  have hwidth := width_le hg
  unfold Checked.field field?
  split
  · rfl
  · next hd =>
    rw [if_neg hd] at hwidth
    exact binaryField_eq hwidth hv

/-- The value of a length field is a signed word. -/
theorem valueFor_range (g : Geometry) {length : Nat} (hlen : length + 2 ^ 31 < 2 ^ 63) :
    -(Nat.pow 2 (64 - 1) : Int) ≤ g.valueFor length ∧ g.valueFor length < Nat.pow 2 (64 - 1) := by
  have hlo := Int32.le_toInt g.adjustment
  have hhi := Int32.toInt_lt g.adjustment
  have hpow : (Nat.pow 2 (64 - 1) : Int) = 9223372036854775808 := by norm_cast
  rw [g.valueFor_eq (by unfold UInt64.size; omega), hpow]
  omega

/-- **Writing a prefix traps nowhere** where the geometry is valid: the value fits a signed word, no
shift is as wide as a word, and the field is inside its word. -/
theorem encodePrefix_eq (hg : g.validate = .ok ()) {length : Nat}
    (hlen : length + 2 ^ 31 < 2 ^ 63) : encodePrefix g length = some (g.encodePrefix length) := by
  obtain ⟨hlo, hhi⟩ := valueFor_range g hlen
  have hrange : Word.signed 64 (g.valueFor length) = some (g.valueFor length) :=
    signed_eq_some hlo hhi
  have hsize : (g.valueFor length).toNat < UInt64.size := by
    unfold UInt64.size
    clear hrange hlo
    simp only [Nat.reduceSub, Nat.pow_eq, Nat.reducePow] at hhi
    omega
  have hfield := field_eq hg hsize
  unfold encodePrefix
  split
  · next hf =>
    rw [hrange, Option.bind_eq_bind, Option.bind_some, hfield, Geometry.encodePrefix_eq hf]
    -- Nothing below looks into the value.
    generalize g.valueFor length = value
    rw [apply_ite some]
    split
    · rfl
    · rw [Option.bind_eq_bind, Option.bind_some]
      cases g.field? value.toNat <;> rfl
  · next hf =>
    rw [Geometry.encodePrefix, if_neg hf]

end Checked

/-! ## Both ways -/

/-- What becomes of a body length. -/
structure Writes (g : Geometry) (length : Nat) : Prop where
  /-- Nothing traps. -/
  runs : Checked.encodePrefix g length = some (g.encodePrefix length)
  /-- It has a prefix exactly when its value has no more digits than the field. -/
  fits : (∃ lead, g.encodePrefix length = .ok lead) ↔
    0 ≤ (length : Int) - g.adjustment.toInt ∧
      (length : Int) - g.adjustment.toInt < (g.base ^ g.width : Nat)
  /-- A negative value is a fault of the length. -/
  short : (length : Int) - g.adjustment.toInt < 0 →
    g.encodePrefix length = .error (.invalidFrameLength (.shortBody length g.adjustment.toInt))
  /-- A value with too many digits is a fault of the field, which tells it. -/
  wide : (g.base ^ g.width : Nat) ≤ (length : Int) - g.adjustment.toInt →
    g.encodePrefix length = .error (.headerOverflow (length - g.adjustment.toInt) g.width)
  /-- The prefix has its length, starts with the offset, and stands for the body length. -/
  back : ∀ lead, g.encodePrefix length = .ok lead → lead.length = g.prefixLength ∧
    lead.take g.offset = List.replicate g.offset 0 ∧ g.bodyLength lead = .ok length

/-- What becomes of the bytes of a prefix. -/
structure Reads (g : Geometry) (bytes : List UInt8) : Prop where
  /-- Nothing traps. -/
  runs : Checked.bodyLength g bytes = some (g.bodyLength bytes)
  /-- They stand for a body length exactly when every byte of the field is a digit and the number
  and the adjustment add up to a word. -/
  counts : (∃ length, g.bodyLength bytes = .ok length) ↔ g.Allows (bytes.drop g.offset) ∧
    0 ≤ (g.number (bytes.drop g.offset) : Int) + g.adjustment.toInt ∧
      (g.number (bytes.drop g.offset) : Int) + g.adjustment.toInt < UInt64.size
  /-- The body length is that sum. -/
  adds : ∀ length, g.bodyLength bytes = .ok length →
    (length : Int) = g.number (bytes.drop g.offset) + g.adjustment.toInt
  /-- The digits never exceed a word. -/
  holds : g.bodyLength bytes ≠ .error (.invalidFrameLength .digitsOverflow)
  /-- The prefix of the body length has the same field. -/
  back : ∀ length, g.bodyLength bytes = .ok length → length + 2 ^ 31 < 2 ^ 63 →
    g.encodePrefix length = .ok (List.replicate g.offset 0 ++ bytes.drop g.offset)

theorem isFramed_of_pos (hw : 0 < g.width) : g.isFramed = true := by
  rw [isFramed, bne_iff_ne]
  omega

/-- A prefix that was made is the offset and the field of a value that is not negative. -/
theorem exists_of_encodePrefix (hf : g.isFramed = true) {length : Nat} {lead : List UInt8}
    (h : g.encodePrefix length = .ok lead) : 0 ≤ g.valueFor length ∧
      ∃ field, g.field? (g.valueFor length).toNat = some field ∧
        lead = List.replicate g.offset 0 ++ field := by
  rw [encodePrefix_eq hf] at h
  split at h
  · cases h
  · next hneg =>
    refine ⟨Int.not_lt.1 hneg, ?_⟩
    split at h
    · next field hfield =>
      cases h
      exact ⟨field, hfield, rfl⟩
    · cases h

/-- **Every length is written, or is refused for its sign or its size.** -/
theorem writes (hg : g.validate = .ok ()) (hw : 0 < g.width) {length : Nat}
    (hlen : length + 2 ^ 31 < 2 ^ 63) : g.Writes length := by
  have hf := isFramed_of_pos hw
  have hsmall : 2 * length < UInt64.size := by
    unfold UInt64.size
    omega
  have hvalue := g.valueFor_eq hsmall
  have hexists := exists_field?_iff hw (g.valueFor length).toNat
  have henc := encodePrefix_eq hf length
  constructor
  case runs => exact Checked.encodePrefix_eq hg hlen
  case fits =>
    rw [← hvalue]
    constructor
    · rintro ⟨lead, hlead⟩
      obtain ⟨hpos, field, hfield, -⟩ := exists_of_encodePrefix hf hlead
      exact ⟨hpos, Int.toNat_lt hpos |>.1 (hexists.1 ⟨field, hfield⟩)⟩
    · rintro ⟨hpos, hlt⟩
      obtain ⟨field, hfield⟩ := hexists.2 (Int.toNat_lt hpos |>.2 hlt)
      rw [henc, if_neg (Int.not_lt.2 hpos), hfield]
      exact ⟨_, rfl⟩
  case short =>
    rw [← hvalue]
    intro hneg
    rw [henc, if_pos hneg]
  case wide =>
    rw [← hvalue]
    intro hle
    have hpos : 0 ≤ g.valueFor length := Int.le_trans (Int.natCast_nonneg _) hle
    have hnone : g.field? (g.valueFor length).toNat = none := by
      refine Option.eq_none_iff_forall_ne_some.2 fun field hfield => ?_
      exact absurd (hexists.1 ⟨field, hfield⟩) (Nat.not_lt.2 (Int.le_toNat hpos |>.2 hle))
    rw [henc, if_neg (Int.not_lt.2 hpos), hnone]
  case back =>
    intro lead hlead
    obtain ⟨-, field, -, rfl⟩ := exists_of_encodePrefix hf hlead
    obtain ⟨hlength, hback⟩ := bodyLength_encodePrefix hf hlead hsmall
    exact ⟨hlength, List.take_left' (List.length_replicate ..), hback⟩

/-- What is read where every byte is a digit. -/
theorem bodyLength_of_allows (hg : g.validate = .ok ()) (hw : 0 < g.width) {bytes : List UInt8}
    (hlen : (bytes.drop g.offset).length = g.width) (h : g.Allows (bytes.drop g.offset)) :
    g.bodyLength bytes =
      if (g.number (bytes.drop g.offset) : Int) + g.adjustment.toInt < 0 then
        .error (.invalidFrameLength (.negative (g.number (bytes.drop g.offset) + g.adjustment.toInt)
          (g.number (bytes.drop g.offset)) g.adjustment.toInt))
      else if (UInt64.size : Int) ≤ g.number (bytes.drop g.offset) + g.adjustment.toInt then
        .error (.invalidFrameLength
          (.overflow (g.number (bytes.drop g.offset) + g.adjustment.toInt)))
      else .ok (g.number (bytes.drop g.offset) + g.adjustment.toInt).toNat := by
  rw [bodyLength, List.take_of_length_le (Nat.le_of_eq hlen), fieldValue_of_allows hg hw hlen h]
  rfl

/-- A prefix whose field has a byte that is no digit is refused. -/
theorem reads_of_not_allows (hfits : g.offset + g.width < UInt64.size) {bytes : List UInt8}
    (hlength : bytes.length = g.offset + g.width) (h : ¬ g.Allows (bytes.drop g.offset)) :
    g.Reads bytes := by
  have hlen : (bytes.drop g.offset).length = g.width := by
    rw [List.length_drop]
    omega
  have hbad : g.bodyLength bytes =
      .error (.invalidFrameLength (.notDecimal (bytes.drop g.offset))) := by
    rw [bodyLength, List.take_of_length_le (Nat.le_of_eq hlen), fieldValue_of_not_allows h]
    rfl
  constructor
  case runs => exact Checked.bodyLength_eq hfits (Nat.le_of_eq hlength.symm)
  case counts =>
    rw [hbad]
    refine ⟨?_, fun hallows => absurd hallows.1 h⟩
    rintro ⟨length, hread⟩
    cases hread
  case adds =>
    rw [hbad]
    intro length hread
    cases hread
  case holds =>
    rw [hbad]
    intro hread
    cases hread
  case back =>
    rw [hbad]
    intro length hread
    cases hread

/-- **Every prefix is read, or is refused for a byte that is no digit or for its sum.** -/
theorem reads (hg : g.validate = .ok ()) (hw : 0 < g.width)
    (hfits : g.offset + g.width < UInt64.size) {bytes : List UInt8}
    (hbytes : bytes.length = g.prefixLength) : g.Reads bytes := by
  have hf := isFramed_of_pos hw
  have hlength : bytes.length = g.offset + g.width := by rw [hbytes, prefixLength, if_pos hf]
  by_cases hallows : g.Allows (bytes.drop g.offset)
  case neg => exact reads_of_not_allows hfits hlength hallows
  have hlen : (bytes.drop g.offset).length = g.width := by
    rw [List.length_drop]
    omega
  have hread := bodyLength_of_allows hg hw hlen hallows
  have hadds (length : Nat) (h : g.bodyLength bytes = .ok length) :
      (length : Int) = g.number (bytes.drop g.offset) + g.adjustment.toInt ∧
        length < UInt64.size := by
    rw [hread] at h
    split at h
    · cases h
    · split at h
      · cases h
      · cases h
        omega
  constructor
  case runs => exact Checked.bodyLength_eq hfits (Nat.le_of_eq hlength.symm)
  case counts =>
    constructor
    · rintro ⟨length, h⟩
      have := hadds length h
      exact ⟨hallows, by omega, by omega⟩
    · rintro ⟨-, hpos, hlt⟩
      rw [hread, if_neg (Int.not_lt.2 hpos), if_neg (Int.not_le.2 hlt)]
      exact ⟨_, rfl⟩
  case adds => exact fun length h => (hadds length h).1
  case holds =>
    rw [hread]
    intro h
    split at h
    · cases h
    · split at h <;> cases h
  case back =>
    intro length h hsmall
    have hvalue : g.valueFor length = g.number (bytes.drop g.offset) := by
      rw [g.valueFor_eq (by unfold UInt64.size; omega), (hadds length h).1]
      omega
    rw [encodePrefix_eq hf, hvalue, if_neg (Int.not_lt.2 (Int.natCast_nonneg _)), Int.toNat_natCast,
      field?_number hg hw hlen hallows]

/-- **Body lengths and length fields correspond to each other, and nothing traps.** A length has a
prefix exactly when its value has no more digits than the field, and then the prefix stands for it.
The bytes of a prefix have a length exactly when the field is a numeral whose number the adjustment
takes to a word, and then the length has that field. -/
theorem lengths_and_fields (hg : g.validate = .ok ()) (hw : 0 < g.width)
    (hfits : g.offset + g.width < UInt64.size) :
    (∀ length : Nat, length + 2 ^ 31 < 2 ^ 63 → g.Writes length) ∧
      ∀ bytes : List UInt8, bytes.length = g.prefixLength → g.Reads bytes :=
  ⟨fun _ => writes hg hw, fun _ => reads hg hw hfits⟩

/-- Two bytes behind an offset of one, for bodies that count four bytes more than they have. -/
theorem lengths_and_fields_standard :
    (∀ length : Nat, length + 2 ^ 31 < 2 ^ 63 → Geometry.Writes ⟨2, 1, 4, false⟩ length) ∧
      ∀ bytes : List UInt8, bytes.length = 3 → Geometry.Reads ⟨2, 1, 4, false⟩ bytes :=
  lengths_and_fields (g := ⟨2, 1, 4, false⟩) rfl (by decide) (by decide)

end Geometry

end Interchange
