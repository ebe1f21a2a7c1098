import Interchange.Pack.Reader
import Interchange.Proofs.Pack.Forms
import Interchange.Proofs.Text.Utf8

/-!
# Reading what was written

`Reads r w a` says that the reader `r` takes the bytes `w` off the front of any input for the value
`a`, and leaves the rest. It composes as readers do, so what is written piece by piece is read piece
by piece. Numbers, headers, texts and byte sequences are read here, each from every form that it can
have.
-/

namespace Interchange.Pack

/-- A reader takes bytes off the front of any input for a value. -/
def Reads {α : Type} (r : Reader α) (w : List UInt8) (a : α) : Prop :=
  ∀ rest, r (w ++ rest) = .ok (a, rest)

namespace Reads

variable {α β : Type} {r : Reader α} {k : α → Reader β} {w v : List UInt8} {a : α} {b : β}

theorem pure (a : α) : Reads (Pure.pure a) [] a := fun _ => rfl

theorem bind (h : Reads r w a) (hk : Reads (k a) v b) : Reads (r >>= k) (w ++ v) b := by
  intro rest
  show Reader.andThen r k _ = _
  rw [Reader.andThen, List.append_assoc, h]
  exact hk rest

/-- What is read next starts where the first reader ended. -/
theorem followed (h : Reads r w a) (k : α → Reader β) (v : List UInt8) :
    (r >>= k) (w ++ v) = k a v := by
  show Reader.andThen r k _ = _
  rw [Reader.andThen, h]

/-- A reader that only computes with what it has read. -/
theorem bind_nil (h : Reads r w a) (hk : Reads (k a) [] b) : Reads (r >>= k) w b := by
  rw [← List.append_nil w]
  exact h.bind hk

theorem map (h : Reads r w a) (f : α → β) : Reads (r >>= fun a => Pure.pure (f a)) w (f a) :=
  h.bind_nil (.pure _)

/-- Values are read one after the other from their forms. -/
theorem times {xs : List α} {ws : List (List UInt8)}
    (h : List.Forall₂ (fun a w => Reads r w a) xs ws) :
    Reads (readTimes r xs.length) ws.flatten xs := by
  induction h with
  | nil => exact .pure _
  | cons hx _ ih => exact hx.bind (ih.map _)

end Reads

/-! ## Numbers -/

theorem reads_digits (v : List UInt8) (acc : Nat) :
    Reads (readDigits acc v.length) v (v.foldl (fun n b => n * 256 + b.toNat) acc) := by
  induction v generalizing acc with
  | nil => exact .pure _
  | cons b v ih => exact ih _

theorem length_bigEndian (w n : Nat) : (bigEndian w n).length = w := by
  induction w generalizing n with
  | zero => rfl
  | succ w ih => simp [bigEndian, ih]

theorem foldl_bigEndian {w n : Nat} (h : n < Nat.pow 256 w) :
    (bigEndian w n).foldl (fun n b => n * 256 + b.toNat) 0 = n := by
  induction w generalizing n with
  | zero =>
    have hzero : n = 0 := Nat.lt_one_iff.1 h
    simp [bigEndian, hzero]
  | succ w ih =>
    rw [bigEndian, List.foldl_append, ih (Nat.div_lt_of_lt_mul (Nat.mul_comm _ 256 ▸ h))]
    simp only [List.foldl_cons, List.foldl_nil, UInt8.toNat_ofNat']
    omega

theorem reads_unsigned {w : Width} {n : Nat} (h : n < Nat.pow 256 w.bytes) :
    Reads (readUnsigned w) (bigEndian w.bytes n) n := by
  have := reads_digits (bigEndian w.bytes n) 0
  rwa [length_bigEndian, foldl_bigEndian h] at this

theorem reads_data (bs : List UInt8) : Reads (readData bs.length) bs bs := by
  intro rest
  simp [readData]

/-! ## Markers -/

theorem reads_marker (b : UInt8) : Reads readMarker [b] (Marker.ofByte b) := fun _ => rfl

section

variable {n : Nat}

theorem ofByte_smallPositive (h : n < 0x80) :
    Marker.ofByte (UInt8.ofNat n) = .smallPositive n := by
  have hb : (UInt8.ofNat n).toNat = n :=
    UInt8.toNat_ofNat_of_lt' (show _ < 256 by omega)
  rw [Marker.ofByte, hb, if_pos h]

theorem ofByte_smallMap (h : n < 16) : Marker.ofByte (UInt8.ofNat (0x80 + n)) = .smallMap n := by
  have hb : (UInt8.ofNat (0x80 + n)).toNat = 0x80 + n :=
    UInt8.toNat_ofNat_of_lt' (show _ < 256 by omega)
  rw [Marker.ofByte, hb, if_neg (by omega), if_pos (by omega), Nat.add_sub_cancel_left]

theorem ofByte_smallArray (h : n < 16) :
    Marker.ofByte (UInt8.ofNat (0x90 + n)) = .smallArray n := by
  have hb : (UInt8.ofNat (0x90 + n)).toNat = 0x90 + n :=
    UInt8.toNat_ofNat_of_lt' (show _ < 256 by omega)
  rw [Marker.ofByte, hb, if_neg (by omega), if_neg (by omega), if_pos (by omega),
    Nat.add_sub_cancel_left]

theorem ofByte_smallText (h : n < 32) : Marker.ofByte (UInt8.ofNat (0xA0 + n)) = .smallText n := by
  have hb : (UInt8.ofNat (0xA0 + n)).toNat = 0xA0 + n :=
    UInt8.toNat_ofNat_of_lt' (show _ < 256 by omega)
  rw [Marker.ofByte, hb, if_neg (by omega), if_neg (by omega), if_neg (by omega),
    if_pos (by omega), Nat.add_sub_cancel_left]

end

/-! ## Integers -/

theorem IntegerKind.bound_le (k : IntegerKind) : k.bound ≤ UInt64.size := by
  cases k <;> decide

theorem reads_signed {w : Width} {n : Nat} (h : n < Nat.pow 2 (8 * w.bytes - 1)) :
    Reads (readSigned w) (bigEndian w.bytes n) n := by
  have hn : n < Nat.pow 256 w.bytes := Nat.lt_of_lt_of_le h (by cases w <;> decide)
  refine (reads_unsigned hn).bind_nil ?_
  rw [if_pos h]
  exact .pure _

theorem reads_integer_of_number {k : IntegerKind} {b : UInt8} {w : List UInt8} {n : Nat}
    {x : Number} {r : Reader Number} (hm : readNumber? (Marker.ofByte b) = some r)
    (hr : Reads r w x) (hx : x.toInteger k = .ok n) : Reads (readInteger k) (b :: w) n := by
  refine (reads_marker b).bind (v := w) ?_
  rw [hm]
  refine hr.bind_nil ?_
  rw [hx]
  exact .pure _

/-- An integer of a kind is read from every form. -/
theorem NatForm.reads {k : IntegerKind} {n : Nat} {w : List UInt8} (h : NatForm n w)
    (hn : n < k.bound) : Reads (readInteger k) w n := by
  have hunsigned : Number.toInteger k (.unsigned n) = .ok n := if_pos hn
  have hsigned : Number.toInteger k (.signed n) = .ok n := if_pos ⟨by omega, by omega⟩
  cases h with
  | small h =>
    refine reads_integer_of_number ?_ (.pure (Number.unsigned n)) hunsigned
    rw [ofByte_smallPositive h]
    rfl
  | unsigned w h =>
    cases w <;> exact reads_integer_of_number rfl ((reads_unsigned h).map _) hunsigned
  | signed w h =>
    cases w <;> exact reads_integer_of_number rfl ((reads_signed h).map _) hsigned

/-- An integer of a kind is read back. -/
theorem reads_integer {k : IntegerKind} {n : Nat} (hn : n < k.bound) :
    Reads (readInteger k) (writeNat n) n :=
  (natForm_writeNat (Nat.lt_of_lt_of_le hn k.bound_le)).reads hn

/-! ## Heads -/

theorem reads_head {depth : Nat} {b : UInt8} {w : List UInt8} {m : Marker} {h : Head}
    (hb : Marker.ofByte b = m) (hm : Reads (readHeadAt depth m) w h) :
    Reads (readHead depth) (b :: w) h := by
  subst hb
  exact (reads_marker b).bind hm

theorem reads_openLevel {depth : Nat} (hd : 1 < depth) (h : Head) :
    Reads (openLevel depth h) [] h := by
  rw [openLevel, if_neg (by omega)]
  exact .pure _

/-- What is read behind a header, where `depth` levels are left. -/
def Sized.read (depth n : Nat) : Sized → Reader Head
  | .text => readTextHead n
  | .bytes => do return .bytes (← readData n)
  | .array => openLevel depth (.array n)
  | .map => openLevel depth (.map n)

/-- Every form of a header leads to what is read behind it. -/
theorem HeaderForm.reads {k : Sized} {depth n : Nat} {header w : List UInt8} {a : Head}
    (h : HeaderForm k n header) (hw : Reads (k.read depth n) w a) :
    Reads (readHead depth) (header ++ w) a := by
  cases h with
  | short hb =>
    cases k with
    | text =>
      obtain ⟨hn, ⟨⟩⟩ := Option.ite_none_right_eq_some.1 hb
      exact reads_head (ofByte_smallText hn) hw
    | bytes => cases hb
    | array =>
      obtain ⟨hn, ⟨⟩⟩ := Option.ite_none_right_eq_some.1 hb
      exact reads_head (ofByte_smallArray hn) hw
    | map =>
      obtain ⟨hn, ⟨⟩⟩ := Option.ite_none_right_eq_some.1 hb
      exact reads_head (ofByte_smallMap hn) hw
  | @wide v b hb hn =>
    cases k <;> cases v <;> cases hb
    all_goals exact reads_head rfl ((reads_unsigned hn).bind hw)

theorem HeaderForm.reads_map {depth n : Nat} {header : List UInt8} (h : HeaderForm .map n header)
    (hd : 1 < depth) : Reads (readHead depth) header (.map n) := by
  rw [← List.append_nil header]
  exact h.reads (reads_openLevel hd _)

theorem HeaderForm.reads_array {depth n : Nat} {header : List UInt8}
    (h : HeaderForm .array n header) (hd : 1 < depth) :
    Reads (readHead depth) header (.array n) := by
  rw [← List.append_nil header]
  exact h.reads (reads_openLevel hd _)

/-! ## Texts and bytes -/

theorem reads_textHead (bs : List UInt8) :
    Reads (readTextHead bs.length) bs (.text (Utf8.decode bs) bs) := (reads_data bs).map _

/-- A text is read as a head from every form. -/
theorem TextForm.reads {depth : Nat} {s : String} {w : List UInt8} (h : TextForm s w) :
    Reads (readHead depth) w (.text (.ok s.toList) (Utf8.encode s.toList)) := by
  have hdata := reads_textHead (Utf8.encode s.toList)
  rw [Utf8.decode_encode] at hdata
  obtain ⟨h⟩ := h
  exact h.reads hdata

theorem TextForm.reads_text {depth : Nat} {s : String} {w : List UInt8} (h : TextForm s w) :
    Reads (readText depth) w s := by
  refine h.reads.bind_nil ?_
  show Reads (Pure.pure (String.ofList s.toList)) [] s
  rw [String.ofList_toList]
  exact .pure _

/-- A byte sequence is read from every form. -/
theorem BytesForm.reads {depth : Nat} {bs w : List UInt8} (hd : 1 < depth) (h : BytesForm bs w) :
    Reads (readBytes depth) w bs := by
  cases h with
  | raw h => exact (h.reads ((reads_data bs).map _)).bind_nil (.pure _)
  | @array header ws h hs =>
    refine (h.reads_array hd).bind ?_
    have hnumbers : List.Forall₂ (fun n w => Reads (readInteger .octet) w n)
        (bs.map (·.toNat)) ws := by
      refine List.forall₂_map_left_iff.2 (hs.imp fun b w hb => hb.reads b.toNat_lt)
    have hback : (bs.map (·.toNat)).map UInt8.ofNat = bs := by
      simp [List.map_map, Function.comp_def]
    have htimes := (Reads.times hnumbers).map fun ns => ns.map UInt8.ofNat
    rwa [List.length_map, hback] at htimes

end Interchange.Pack
