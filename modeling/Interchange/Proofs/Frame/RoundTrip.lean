import Interchange.Numbered
import Interchange.Proofs.Frame.Reading
import Interchange.Proofs.Pack.Reads
import Interchange.Proofs.Text.Decimal

/-!
# Frames are read back

A frame that a codec makes announces the length of its body, so the codec reads it back out of any
stream that starts with it.

* `bodyLength_encodePrefix`: the length field of a prefix stands for the length it was made for.
* `takes_of_encode`: every frame that a codec makes is one that it takes.
* `read_frames`: frames that a codec takes are read as their bodies, whatever follows them.

Where a field is written, twice a length fits 64 bits, as it does for byte sequences in memory.
-/

namespace Interchange

namespace Geometry

/-! ## Binary fields -/

theorem binaryDigits_eq (width value : Nat) :
    ((List.range width).map fun i => UInt8.ofNat (value / Nat.pow 256 (width - 1 - i))) =
      Pack.bigEndian width value := by
  induction width generalizing value with
  | zero => rfl
  | succ width ih =>
    rw [Pack.bigEndian, ← ih, List.range_succ, List.map_append]
    congr 1
    · apply List.map_congr_left
      intro i hi
      have hi := List.mem_range.1 hi
      have hwidth : width + 1 - 1 - i = width - 1 - i + 1 := by omega
      rw [hwidth, Nat.div_div_eq_div_mul]
      simp only [Nat.pow_eq, Nat.pow_succ']
    · simp

theorem binaryValue_bigEndian {width value : Nat} (h : value < Nat.pow 256 width)
    (h64 : value < UInt64.size) : binaryValue (Pack.bigEndian width value) = value := by
  have hsize : UInt64.size = 18446744073709551616 := rfl
  induction width generalizing value with
  | zero =>
    have hzero : value = 0 := Nat.lt_one_iff.1 h
    simp [Pack.bigEndian, binaryValue, hzero]
  | succ width ih =>
    have hd : value / 256 < Nat.pow 256 width := Nat.div_lt_of_lt_mul (Nat.mul_comm _ 256 ▸ h)
    have hv := ih hd (by omega)
    simp only [binaryValue] at hv ⊢
    rw [Pack.bigEndian, List.foldl_append, hv]
    simp only [List.foldl_cons, List.foldl_nil, UInt8.toNat_ofNat', hsize]
    omega

theorem binaryField?_eq_some {width value : Nat} {field : List UInt8}
    (h : binaryField? width value = some field) (h64 : value < UInt64.size) :
    field.length = width ∧ binaryValue field = value := by
  unfold binaryField? at h
  split at h
  · next hv =>
    cases h
    rw [binaryDigits_eq]
    exact ⟨Pack.length_bigEndian .., binaryValue_bigEndian hv h64⟩
  · cases h

/-! ## Fields of decimal digits -/

/-- A character of a numeral as a byte of a field. -/
def digitByte (c : Char) : UInt8 := UInt8.ofNat c.toNat

theorem digitByte_digit (d : Nat) : (digitByte (Digits.digit d)).toNat = 0x30 + d % 10 := by
  simp only [digitByte, Digits.toNat_digit, UInt8.toNat_ofNat']
  omega

theorem isDigit_digit (d : Nat) : isDigit (digitByte (Digits.digit d)) := by
  simp only [isDigit, Bool.and_eq_true, decide_eq_true_eq, UInt8.le_iff_toNat_le, digitByte_digit]
  refine ⟨?_, ?_⟩
  · show 48 ≤ _
    omega
  · show _ ≤ 57
    omega

theorem isDigit_of_mem_padded {width n : Nat} {c : Char} (h : c ∈ Digits.padded width n) :
    isDigit (digitByte c) := by
  rcases List.mem_append.1 h with h | h
  · rw [List.eq_of_mem_replicate h]
    decide
  · obtain ⟨d, rfl⟩ := Digits.exists_digit_of_mem_decimal h
    exact isDigit_digit d

/-- One digit more. -/
def pushDigit (n : Nat) (b : UInt8) : Option Nat :=
  let next := n * 10 + (b.toNat - 0x30)
  if next < UInt64.size then some next else none

theorem digitsValue?_eq (field : List UInt8) : digitsValue? field = field.foldlM pushDigit 0 := rfl

theorem digitsValue?_decimal {n : Nat} (h : n < UInt64.size) :
    digitsValue? ((Digits.decimal n).map digitByte) = some n := by
  induction n using Digits.decimal.induct with
  | case1 n hn =>
    rw [Digits.decimal_of_lt hn, digitsValue?_eq]
    simp only [List.map_cons, List.map_nil, List.foldlM_cons, List.foldlM_nil, pushDigit,
      digitByte_digit]
    rw [if_pos (by omega)]
    simp
    omega
  | case2 n hn ih =>
    rw [Digits.decimal_of_le (Nat.not_lt.1 hn), digitsValue?_eq, List.map_append,
      List.foldlM_append, ← digitsValue?_eq, ih (by omega)]
    simp only [List.map_cons, List.map_nil, List.foldlM_cons, List.foldlM_nil, pushDigit,
      digitByte_digit, Option.bind_eq_bind, Option.bind_some]
    rw [if_pos (by omega)]
    simp
    omega

theorem digitsValue?_zeros (k : Nat) (field : List UInt8) :
    digitsValue? (List.replicate k (digitByte '0') ++ field) = digitsValue? field := by
  induction k with
  | zero => rfl
  | succ k ih =>
    rw [← ih, List.replicate_succ, List.cons_append, digitsValue?_eq, digitsValue?_eq,
      List.foldlM_cons]
    rfl

theorem digitsField?_eq_some {width value : Nat} {field : List UInt8}
    (h : digitsField? width value = some field) (h64 : value < UInt64.size) :
    field.length = width ∧ field.all isDigit ∧ digitsValue? field = some value := by
  have hf : (Digits.padded width value).length ≤ width ∧
      field = (Digits.padded width value).map digitByte := by
    simp only [digitsField?] at h
    split at h
    · cases h
    · next hn =>
      cases h
      exact ⟨Nat.le_of_not_lt hn, rfl⟩
  obtain ⟨hlen, rfl⟩ := hf
  refine ⟨?_, ?_, ?_⟩
  · simp only [Digits.padded, List.length_map, List.length_append, List.length_replicate] at hlen ⊢
    omega
  · simp only [List.all_map, List.all_eq_true, Function.comp]
    exact fun c hc => isDigit_of_mem_padded hc
  · rw [Digits.padded, List.map_append, List.map_replicate, digitsValue?_zeros,
      digitsValue?_decimal h64]

/-! ## Prefixes -/

/-- A length field stands for the number that was written. -/
theorem fieldValue_of_field {g : Geometry} (hg : g.isFramed) {value : Nat} {field : List UInt8}
    (h : (if g.decimal then digitsField? g.width value else binaryField? g.width value) =
      some field) (h64 : value < UInt64.size) :
    field.length = g.width ∧ g.fieldValue field = .ok value := by
  have hw : g.width ≠ 0 := by simpa [isFramed] using hg
  unfold fieldValue
  split at h
  · next hd =>
    obtain ⟨hlen, hall, hval⟩ := digitsField?_eq_some h h64
    have hne : field.isEmpty = false := by
      cases field with
      | nil => exact absurd hlen.symm hw
      | cons => rfl
    refine ⟨hlen, ?_⟩
    simp only [hd, ↓reduceIte, hne, hall, hval, Bool.not_true, Bool.or_self, Bool.false_eq_true]
  · next hd =>
    obtain ⟨hlen, hval⟩ := binaryField?_eq_some h h64
    refine ⟨hlen, ?_⟩
    simp only [hd, Bool.false_eq_true, ↓reduceIte, hval]

/-- A length that memory can hold is no negative number. -/
theorem valueFor_eq (g : Geometry) {length : Nat} (hlen : 2 * length < UInt64.size) :
    g.valueFor length = length - g.adjustment.toInt := by
  unfold UInt64.size at hlen
  have hbmod : (length : Int).bmod UInt64.size = length := by
    unfold UInt64.size
    exact Int.bmod_eq_of_le (by omega) (by omega)
  unfold valueFor
  rw [hbmod]

/-- **The prefix of a body stands for its length.** -/
theorem bodyLength_encodePrefix {g : Geometry} (hg : g.isFramed) {length : Nat}
    {lead : List UInt8} (h : g.encodePrefix length = .ok lead)
    (hlen : 2 * length < UInt64.size) :
    lead.length = g.prefixLength ∧ g.bodyLength lead = .ok length := by
  have hlo := Int32.le_toInt g.adjustment
  have hhi := Int32.toInt_lt g.adjustment
  simp only [encodePrefix, hg, ↓reduceIte, valueFor_eq g hlen] at h
  split at h
  · cases h
  · next hneg =>
    split at h
    · next field hf =>
      cases h
      have h64 : ((length : Int) - g.adjustment.toInt).toNat < UInt64.size := by
        clear hf
        unfold UInt64.size at hlen ⊢
        omega
      obtain ⟨hfl, hfv⟩ := fieldValue_of_field hg hf h64
      refine ⟨by simp [prefixLength, hg, hfl], ?_⟩
      have hdrop : ((List.replicate g.offset 0 ++ field).drop g.offset).take g.width = field := by
        rw [List.drop_left' (by simp), ← hfl, List.take_length]
      have hback : (((length : Int) - g.adjustment.toInt).toNat : Int) + g.adjustment.toInt =
          length := by omega
      have hfits : ¬ (UInt64.size : Int) ≤ length := by omega
      simp only [bodyLength, hdrop, hfv, bind, Except.bind, hback]
      rw [if_neg (by omega), if_neg hfits]
      rfl
    · cases h

/-- The lead of a frame is a prefix that stands for the length of the body. -/
structure Announces (g : Geometry) (f : Frame) : Prop where
  lead : f.lead.length = g.prefixLength
  body : g.bodyLength f.lead = .ok f.body.length

end Geometry

namespace Codec

/-- A frame that a codec takes: its lead is a prefix that announces the length of its body. -/
structure Takes (c : Codec) (f : Frame) : Prop where
  lead : f.lead.length = c.geometry.prefixLength
  body : c.announced f.lead = .ok f.body.length

variable {c : Codec}

theorem takes_of_announces {f : Frame} (h : c.geometry.Announces f)
    (hle : f.body.length ≤ c.maxLength) : c.Takes f := by
  refine ⟨h.lead, ?_⟩
  rw [announced, h.body]
  exact if_neg (Nat.not_lt.2 hle)

section Encode

variable {body : List UInt8} {f : Frame} (h : c.encode body = .ok f)

include h

theorem eq_of_encode : f.body = body ∧ body.length ≤ c.maxLength ∧
    c.geometry.encodePrefix body.length = .ok f.lead := by
  unfold encode at h
  split at h
  · cases h
  · next hmax =>
    cases hp : c.geometry.encodePrefix body.length with
    | error e => simp [hp, bind, Except.bind] at h
    | ok lead =>
      simp only [hp, bind, Except.bind, pure, Except.pure] at h
      cases h
      exact ⟨rfl, Nat.le_of_not_lt hmax, rfl⟩

/-- A frame that a codec makes announces the length of its body, whoever reads it. -/
theorem announces_of_encode (hc : c.geometry.isFramed) (hlen : 2 * body.length < UInt64.size) :
    c.geometry.Announces f := by
  obtain ⟨rfl, -, hp⟩ := eq_of_encode h
  obtain ⟨hlead, hbody⟩ := Geometry.bodyLength_encodePrefix hc hp hlen
  exact ⟨hlead, hbody⟩

end Encode

variable (hc : c.geometry.isFramed)

include hc in
/-- **A codec takes the frames that it makes.** -/
theorem takes_of_encode {body : List UInt8} {f : Frame} (h : c.encode body = .ok f)
    (hlen : 2 * body.length < UInt64.size) : c.Takes f ∧ f.body = body := by
  obtain ⟨rfl, hmax, -⟩ := eq_of_encode h
  exact ⟨takes_of_announces (announces_of_encode h hc hlen) hmax, rfl⟩

/-- A frame in front of a stream is read as its body. -/
theorem read_frame {f : Frame} (hf : c.Takes f) (s : List UInt8) :
    c.read hc (f.bytes ++ s) = (c.read hc s).after [f.body] := by
  have hlead := hf.lead
  rw [read, dif_neg (by simp only [Frame.bytes, List.length_append]; omega), c.announced_take,
    Frame.bytes, List.append_assoc, c.announced_append (by omega), hf.body]
  simp only [List.drop_left' hlead]
  rw [if_neg (by simp only [List.length_append]; omega), List.drop_left, List.take_left]

/-- **Frames in front of a stream are read as their bodies.** -/
theorem read_frames {fs : List Frame} (hfs : ∀ f ∈ fs, c.Takes f) (s : List UInt8) :
    c.read hc (fs.flatMap Frame.bytes ++ s) = (c.read hc s).after (fs.map (·.body)) := by
  induction fs with
  | nil => rfl
  | cons f fs ih =>
    rw [List.flatMap_cons, List.append_assoc, read_frame hc (hfs f (by simp)),
      ih fun g hg => hfs g (by simp [hg]), Reading.after_after]
    rfl

theorem bodies_read_frames {fs : List Frame} (hfs : ∀ f ∈ fs, c.Takes f) :
    (c.read hc (fs.flatMap Frame.bytes)).bodies = fs.map (·.body) := by
  have h := read_frames hc hfs []
  rw [List.append_nil] at h
  rw [h, Reading.bodies_after, read_nil hc, List.append_nil]

/-- Every body that is read takes a prefix and its own length. -/
theorem length_bodies_read (s : List UInt8) :
    Numbered.total (fun b => c.geometry.prefixLength + b.length) (c.read hc s).bodies ≤
      s.length := by
  induction s using read.induct c hc with
  | case1 s h => rw [read, dif_pos h]; simp
  | case2 s h f hf => rw [read, dif_neg h, hf]; simp
  | case3 s h n hn rest hlt =>
    rw [read, dif_neg h, hn]
    dsimp only
    rw [if_pos hlt]
    exact Nat.zero_le _
  | case4 s h n hn rest hlt ih =>
    simp only [rest, List.length_drop] at ih hlt
    rw [read, dif_neg h, hn]
    simp only [List.length_drop, hlt, ↓reduceIte, Reading.bodies_after, List.singleton_append,
      Numbered.total_cons, List.length_take]
    omega

end Codec

end Interchange
