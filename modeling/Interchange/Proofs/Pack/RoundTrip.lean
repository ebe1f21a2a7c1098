import Interchange.Proofs.Pack.Reads

/-!
# Messages are read back

A message is read from every form that it can have (`reads_messageForm`), whatever follows it. The
readers follow the forms constructor by constructor: records, field values, fields, messages. A
message whose texts and byte sequences are shorter than `2 ^ 32` bytes is written in one of its
forms, so it is read back from its bytes.

`length_serialize_lt` bounds the bytes of such a message: it has 256 fields at most.
-/

namespace Interchange

/-- The texts and the bytes of a value are short enough to have a length on the wire. -/
def FieldValue.IsShort : FieldValue → Prop
  | .numeric .. => True
  | .alpha text _ => Utf8.byteLength text < UInt32.size
  | .llvar text => Utf8.byteLength text < UInt32.size
  | .lllvar text => Utf8.byteLength text < UInt32.size
  | .binary bytes => bytes.length < UInt32.size

instance : (v : FieldValue) → Decidable v.IsShort
  | .numeric .. => .isTrue trivial
  | .alpha text _ => inferInstanceAs (Decidable (Utf8.byteLength text < UInt32.size))
  | .llvar text => inferInstanceAs (Decidable (Utf8.byteLength text < UInt32.size))
  | .lllvar text => inferInstanceAs (Decidable (Utf8.byteLength text < UInt32.size))
  | .binary bytes => inferInstanceAs (Decidable (bytes.length < UInt32.size))

/-- The texts and the bytes of a message are short enough to have a length on the wire. -/
def Message.IsShort (m : Message) : Prop := ∀ e ∈ m.fields.entries, e.2.IsShort

/-! ## Ascending fields -/

namespace Fields

theorem insertEntry_of_last {i : UInt8} (v : FieldValue) {es : List (UInt8 × FieldValue)}
    (h : ∀ e ∈ es, e.1 < i) : insertEntry i v es = es ++ [(i, v)] := by
  induction es with
  | nil => rfl
  | cons e es ih =>
    have he : e.1 < i := h e (by simp)
    have hlt : ¬ i < e.1 := fun hi => UInt8.lt_irrefl _ (UInt8.lt_trans hi he)
    have hne : i ≠ e.1 := fun hi => UInt8.lt_irrefl _ (hi ▸ he)
    rw [insertEntry, if_neg hlt, if_neg hne, ih fun x hx => h x (by simp [hx])]
    rfl

theorem entries_foldl_insert (es : List (UInt8 × FieldValue)) (f : Fields)
    (h : (f.entries ++ es).Pairwise fun a b => a.1 < b.1) :
    (es.foldl (fun f e => f.insert e.1 e.2) f).entries = f.entries ++ es := by
  induction es generalizing f with
  | nil => simp
  | cons e es ih =>
    have hlast : ∀ x ∈ f.entries, x.1 < e.1 := by
      intro x hx
      exact (List.pairwise_append.1 h).2.2 x hx e (by simp)
    have hinsert : (f.insert e.1 e.2).entries = f.entries ++ [e] := insertEntry_of_last e.2 hlast
    rw [List.foldl_cons, ih _ (by simpa [hinsert] using h), hinsert]
    simp

/-- Fields are made again from their entries. -/
theorem ofList_entries (f : Fields) : ofList f.entries = f := by
  apply ext
  rw [ofList, entries_foldl_insert _ _ (by simpa [empty] using f.ascending)]
  rfl

/-- There are no more fields than numbers. -/
theorem length_entries_le (f : Fields) : f.entries.length ≤ 256 := by
  suffices h : ∀ (es : List (UInt8 × FieldValue)) (low : Nat), low ≤ 256 →
      (∀ e ∈ es, low ≤ e.1.toNat) → (es.Pairwise fun a b => a.1 < b.1) → low + es.length ≤ 256 by
    simpa using h f.entries 0 (by decide) (by simp) f.ascending
  intro es
  induction es with
  | nil => simp
  | cons e es ih =>
    intro low _ hlow hasc
    obtain ⟨he, hes⟩ := List.pairwise_cons.1 hasc
    have h0 := hlow e (by simp)
    have := ih (e.1.toNat + 1) e.1.toNat_lt (fun x hx => UInt8.lt_iff_toNat_lt.1 (he x hx)) hes
    rw [List.length_cons]
    omega

end Fields

namespace Pack

/-! ## Records -/

theorem Record.keyNamed_first (r : Record) : r.keyNamed r.keys.1.toList = .first := if_pos rfl

theorem Record.keyNamed_second (r : Record) : r.keyNamed r.keys.2.toList = .second := by
  cases r with
  | message => decide
  | content v => cases v <;> decide

theorem reads_key (r : Record) (depth : Nat) {name : String} {w : List UInt8}
    (h : TextForm name w) : Reads (readKey r depth) w (r.keyNamed name.toList) :=
  h.reads.bind_nil (.pure _)

/-- A record is read from every form when its entries are. -/
theorem RecordForm.reads {α β : Type} {r : Record} {first : Entry α} {second : Entry β}
    {depth : Nat} {A B : List UInt8 → Prop} {w : List UInt8} {a : α} {b : β} (hd : 1 < depth)
    (ha : ∀ v, A v → Reads (first.read (depth - 1)) v a)
    (hb : ∀ v, B v → Reads (second.read (depth - 1)) v b) (h : RecordForm r A B w) :
    Reads (readRecord r first second depth) w (a, b) := by
  cases h with
  | inOrder h hk hv hl hw =>
    have hfirst := reads_key r (depth - 1) hk
    have hsecond := reads_key r (depth - 1) hl
    rw [r.keyNamed_first] at hfirst
    rw [r.keyNamed_second] at hsecond
    refine (h.reads_map hd).bind ?_
    refine hfirst.bind ((ha _ hv).bind ?_)
    refine hsecond.bind ((hb _ hw).bind_nil ?_)
    exact .pure _
  | swapped h hk hv hl hw =>
    have hfirst := reads_key r (depth - 1) hk
    have hsecond := reads_key r (depth - 1) hl
    rw [r.keyNamed_first] at hfirst
    rw [r.keyNamed_second] at hsecond
    refine (h.reads_map hd).bind ?_
    refine hsecond.bind ((hb _ hw).bind ?_)
    refine hfirst.bind ((ha _ hv).bind_nil ?_)
    exact .pure _
  | array h hv hw =>
    refine (h.reads_array hd).bind ?_
    exact (ha _ hv).bind ((hb _ hw).bind_nil (.pure _))

/-- A record begins with its first entry, whatever becomes of the second one. -/
theorem fst_of_readRecord {α β : Type} (r : Record) {first : Entry α} {second : Entry β}
    {depth : Nat} {v w rest : List UInt8} {a : α} {p : α × β} (hd : 1 < depth)
    (ha : Reads (first.read (depth - 1)) v a)
    (h : readRecord r first second depth (writeRecord r v w) = .ok (p, rest)) : p.1 = a := by
  obtain ⟨h1, h2⟩ := r.byteLength_keys
  have hfirst := reads_key r (depth - 1) (textForm_writeText h1)
  have hsecond := reads_key r (depth - 1) (textForm_writeText h2)
  rw [r.keyNamed_first] at hfirst
  rw [r.keyNamed_second] at hsecond
  have hheader : Reads (readHead depth) (mapHeader 2) (.map 2) :=
    (headerForm_mapHeader (by decide)).reads_map hd
  rw [readRecord, writeRecord, hheader.followed] at h
  dsimp only at h
  rw [readRecordMap, hfirst.followed] at h
  dsimp only at h
  rw [Option.isSome_none, if_neg Bool.false_ne_true, ha.followed, readRecordMap,
    hsecond.followed] at h
  dsimp only at h
  rw [Option.isSome_none, if_neg Bool.false_ne_true] at h
  change Reader.andThen (second.read (depth - 1)) _ w = _ at h
  rw [Reader.andThen] at h
  cases hr : second.read (depth - 1) w with
  | error f => simp [hr] at h
  | ok b =>
    rw [hr] at h
    cases h
    rfl

/-! ## Field values -/

theorem Reader.bind_assoc {α β γ : Type} (r : Reader α) (k : α → Reader β) (g : β → Reader γ) :
    (r >>= k) >>= g = r >>= fun a => k a >>= g := by
  funext input
  show Reader.andThen (Reader.andThen r k) g input = Reader.andThen r _ input
  unfold Reader.andThen
  cases r input <;> rfl

theorem Variant.byteLength_name (v : Variant) : Utf8.byteLength v.name < UInt32.size := by
  cases v <;> decide

theorem Variant.named_name (v : Variant) : Variant.named v.name.toList = .ok v := by
  cases v <;> rfl

theorem reads_variant (depth : Nat) {v : Variant} {w : List UInt8} (h : TextForm v.name w) :
    Reads (readMarker >>= readVariantAt depth) w v := by
  unfold readVariantAt
  rw [← Reader.bind_assoc]
  refine h.reads.bind_nil ?_
  dsimp only
  rw [v.named_name]
  exact .pure _

/-- The content of a value is read for its kind from every form. -/
theorem reads_content {depth : Nat} {v : FieldValue} {w : List UInt8} (hd : 1 < depth)
    (h : ContentForm v w) : Reads (readContent depth (Variant.of v)) w v := by
  cases v with
  | numeric value length =>
    have hrecord : Reads (readRecord (.content .numeric) (.integer .long) (.integer .size) depth) w
        (value.toNat, length.toNat) :=
      RecordForm.reads hd (fun _ hv => hv.reads value.toNat_lt)
        (fun _ hl => hl.reads length.toNat_lt) h
    have hvalue := hrecord.map fun p => FieldValue.numeric (.ofNat p.1) (.ofNat p.2)
    simp only [UInt64.ofNat_toNat] at hvalue
    exact hvalue
  | alpha text length =>
    have hrecord : Reads
        (readRecord (.content .alpha) (.only readText .text) (.integer .size) depth) w
        (text, length.toNat) :=
      RecordForm.reads hd (fun _ ht => ht.reads_text) (fun _ hl => hl.reads length.toNat_lt) h
    have hvalue := hrecord.map fun p => FieldValue.alpha p.1 (.ofNat p.2)
    simp only [UInt64.ofNat_toNat] at hvalue
    exact hvalue
  | llvar text => exact (TextForm.reads_text h).map _
  | lllvar text => exact (TextForm.reads_text h).map _
  | binary bytes => exact (BytesForm.reads hd h).map _

/-- A field value is read from every form. Its map is no level of nesting, so the header is read
without one. -/
theorem ValueForm.reads {depth : Nat} {v : FieldValue} {w : List UInt8} (hd : 1 < depth)
    (h : ValueForm v w) : Reads (readValue depth) w v := by
  obtain @⟨header, name, content, hheader, hname, hcontent⟩ := h
  have hbody := (reads_variant depth hname).bind (reads_content hd hcontent)
  rw [Reader.bind_assoc] at hbody
  have hmap : Reads (readValue.ofMap depth 1) (name ++ content) v := by
    rw [readValue.ofMap, if_pos rfl]
    exact hbody
  unfold readValue
  cases hheader with
  | short hb =>
    cases hb
    exact (reads_marker 0x81).bind hmap
  | @wide width b hb hn =>
    refine (reads_marker b).bind (v := bigEndian width.bytes 1 ++ (name ++ content)) ?_
    cases width <;> cases hb
    all_goals exact (reads_unsigned hn).bind hmap

/-! ## Messages -/

theorem EntryForm.reads {depth : Nat} {e : UInt8 × FieldValue} {w : List UInt8} (hd : 2 < depth)
    (h : EntryForm e w) : Reads (readFields.entry depth) w e := by
  obtain ⟨hi, hv⟩ := h
  refine (hi.reads (k := .octet) e.1.toNat_lt).bind ((hv.reads (by omega)).bind_nil ?_)
  rw [UInt8.ofNat_toNat]
  exact .pure _

/-- The fields of a message are read from every form, in the order in which they are written
down. -/
theorem EntriesForm.reads {depth : Nat} {es : List (UInt8 × FieldValue)} {w : List UInt8}
    (hd : 2 < depth) (h : EntriesForm es w) : Reads (readFields depth) w (Fields.ofList es) := by
  obtain ⟨hheader, hes⟩ := h
  refine (hheader.reads_map (by omega)).bind ?_
  exact (Reads.times (hes.imp fun e w he => he.reads hd)).map Fields.ofList

/-- **A message is read from every form.** -/
theorem reads_messageForm {mti : UInt16} {es : List (UInt8 × FieldValue)} {w : List UInt8}
    (h : MessageForm mti es w) : Reads readMessage w ⟨mti, Fields.ofList es⟩ := by
  have hrecord : Reads
      (readRecord .message (.integer .short) (.only readFields .map) depthLimit) w
      (mti.toNat, Fields.ofList es) :=
    RecordForm.reads (by decide) (fun _ hm => hm.reads mti.toNat_lt)
      (fun _ hes => hes.reads (by decide)) h
  have hmessage := hrecord.map fun p => (⟨.ofNat p.1, p.2⟩ : Message)
  simp only [UInt16.ofNat_toNat] at hmessage
  exact hmessage

/-- **A message is parsed from every form**, and holds its fields as they are set one after the
other. -/
theorem parse_of_messageForm {mti : UInt16} {es : List (UInt8 × FieldValue)} {w : List UInt8}
    (h : MessageForm mti es w) : parse w = .ok ⟨mti, Fields.ofList es⟩ := by
  have hread := reads_messageForm h []
  rw [List.append_nil] at hread
  rw [parse, hread]

/-! ## What is written -/

theorem contentForm_writeContent {v : FieldValue} (hv : v.IsShort) :
    ContentForm v (writeContent v) := by
  cases v with
  | numeric value length =>
    exact recordForm_writeRecord (natForm_writeNat value.toNat_lt)
      (natForm_writeNat length.toNat_lt)
  | alpha text length =>
    exact recordForm_writeRecord (textForm_writeText hv) (natForm_writeNat length.toNat_lt)
  | llvar text => exact textForm_writeText hv
  | lllvar text => exact textForm_writeText hv
  | binary bytes => exact bytesForm_writeBytes hv

theorem valueForm_writeValue {v : FieldValue} (hv : v.IsShort) : ValueForm v (writeValue v) :=
  .intro (headerForm_mapHeader (by decide)) (textForm_writeText (Variant.of v).byteLength_name)
    (contentForm_writeContent hv)

theorem natForm_mti (mti : UInt16) : NatForm mti.toNat (writeNat mti.toNat) :=
  natForm_writeNat (Nat.lt_trans mti.toNat_lt (by decide))

/-- Fields are written in one of their forms, in whatever order. -/
theorem entriesForm_writeEntries {es : List (UInt8 × FieldValue)}
    (hlength : es.length < UInt32.size) (hes : ∀ e ∈ es, e.2.IsShort) :
    EntriesForm es (writeEntries es) := by
  rw [writeEntries, List.flatMap_def]
  refine .intro (headerForm_mapHeader hlength) (forall₂_map fun e he => ?_)
  have hindex : e.1.toNat < UInt64.size := Nat.lt_trans e.1.toNat_lt (by decide)
  exact .intro (natForm_writeNat hindex) (valueForm_writeValue (hes e he))

theorem messageForm_serialize {m : Message} (hm : m.IsShort) :
    MessageForm m.mti m.fields.entries (serialize m) := by
  have hlength := m.fields.length_entries_le
  have hsize : 256 < UInt32.size := by decide
  exact recordForm_writeRecord (natForm_mti m.mti) (entriesForm_writeEntries (by omega) hm)

/-- A message is read back. -/
theorem reads_message {m : Message} (hm : m.IsShort) : Reads readMessage (serialize m) m := by
  have h := reads_messageForm (messageForm_serialize hm)
  rwa [m.fields.ofList_entries] at h

/-- **A message is read back** from its bytes. -/
theorem parse_serialize {m : Message} (hm : m.IsShort) : parse (serialize m) = .ok m := by
  have h := parse_of_messageForm (messageForm_serialize hm)
  rwa [m.fields.ofList_entries] at h

/-- The type of a message is read back, whatever becomes of its fields. -/
theorem mti_of_parse_serialize {m n : Message} (h : parse (serialize m) = .ok n) :
    n.mti = m.mti := by
  let head : Reader (Nat × Fields) :=
    readRecord .message (.integer .short) (.only readFields .map) depthLimit
  have hread : readMessage (serialize m) =
      Reader.andThen head (fun p => Reader.pure ⟨.ofNat p.1, p.2⟩) (serialize m) := rfl
  rw [parse, hread, Reader.andThen] at h
  cases hr : head (serialize m) with
  | error f => simp [hr] at h
  | ok p =>
    have hmti : p.1.1 = m.mti.toNat :=
      fst_of_readRecord .message (by decide) (reads_integer m.mti.toNat_lt) hr
    rw [hr] at h
    cases h
    show UInt16.ofNat p.1.1 = m.mti
    rw [hmti, UInt16.ofNat_toNat]

/-! ## Lengths -/

theorem length_writeNat_le (n : Nat) : (writeNat n).length ≤ 9 := by
  unfold writeNat
  split
  · simp
  split
  · simp [length_bigEndian]
  split
  · simp [length_bigEndian]
  split
  · simp [length_bigEndian]
  · simp [length_bigEndian]

theorem length_textHeader_le (n : Nat) : (textHeader n).length ≤ 5 := by
  unfold textHeader
  split
  · simp
  split
  · simp [length_bigEndian]
  split
  · simp [length_bigEndian]
  · simp [length_bigEndian]

theorem length_arrayHeader_le (n : Nat) : (arrayHeader n).length ≤ 5 := by
  unfold arrayHeader
  split
  · simp
  split
  · simp [length_bigEndian]
  · simp [length_bigEndian]

theorem length_mapHeader_le (n : Nat) : (mapHeader n).length ≤ 5 := by
  unfold mapHeader
  split
  · simp
  split
  · simp [length_bigEndian]
  · simp [length_bigEndian]

/-- What is written for every member of a list is bounded as the members are. -/
theorem length_flatMap_le {α : Type} {write : α → List UInt8} {n : Nat} {xs : List α}
    (h : ∀ x ∈ xs, (write x).length ≤ n) : (xs.flatMap write).length ≤ xs.length * n := by
  induction xs with
  | nil => simp
  | cons x xs ih =>
    have hx := h x (by simp)
    have hxs := ih fun y hy => h y (by simp [hy])
    rw [List.flatMap_cons, List.length_append, List.length_cons, Nat.succ_mul]
    omega

theorem length_writeText_le (s : String) : (writeText s).length ≤ 5 + Utf8.byteLength s := by
  have := length_textHeader_le (Utf8.encode s.toList).length
  simp only [writeText, List.length_append, Utf8.byteLength]
  omega

theorem length_writeBytes_le (bs : List UInt8) : (writeBytes bs).length ≤ 5 + bs.length * 9 := by
  have := length_arrayHeader_le bs.length
  have : (bs.flatMap fun b => writeNat b.toNat).length ≤ bs.length * 9 := by
    apply length_flatMap_le
    intro b _
    exact length_writeNat_le b.toNat
  simp only [writeBytes, List.length_append]
  omega

theorem length_writeRecord_le (r : Record) (v w : List UInt8) :
    (writeRecord r v w).length ≤ 27 + v.length + w.length := by
  have hkeys : (writeText r.keys.1).length + (writeText r.keys.2).length ≤ 22 := by
    cases r with
    | message => decide
    | content v => cases v <;> decide
  have := length_mapHeader_le 2
  simp only [writeRecord, List.length_append]
  omega

theorem length_writeContent_le {v : FieldValue} (hv : v.IsShort) :
    (writeContent v).length ≤ 16 * UInt32.size := by
  have hsize : 256 < UInt32.size := by decide
  cases v with
  | numeric value length =>
    have := length_writeRecord_le (.content .numeric) (writeNat value.toNat) (writeNat length.toNat)
    have := length_writeNat_le value.toNat
    have := length_writeNat_le length.toNat
    simp only [writeContent]
    omega
  | alpha text length =>
    have := length_writeRecord_le (.content .alpha) (writeText text) (writeNat length.toNat)
    have := length_writeText_le text
    have := length_writeNat_le length.toNat
    simp only [FieldValue.IsShort] at hv
    simp only [writeContent]
    omega
  | llvar text =>
    have := length_writeText_le text
    simp only [FieldValue.IsShort] at hv
    simp only [writeContent]
    omega
  | lllvar text =>
    have := length_writeText_le text
    simp only [FieldValue.IsShort] at hv
    simp only [writeContent]
    omega
  | binary bytes =>
    have := length_writeBytes_le bytes
    simp only [FieldValue.IsShort] at hv
    simp only [writeContent]
    omega

theorem length_writeText_name_le (v : Variant) : (writeText v.name).length ≤ 13 := by
  cases v <;> decide

theorem length_writeValue_le {v : FieldValue} (hv : v.IsShort) :
    (writeValue v).length ≤ 32 * UInt32.size := by
  have hsize : 256 < UInt32.size := by decide
  have hname := length_writeText_name_le (Variant.of v)
  have := length_mapHeader_le 1
  have := length_writeContent_le hv
  simp only [writeValue, List.length_append]
  omega

/-- No message is written as nothing. -/
theorem length_serialize_pos (m : Message) : 0 < (serialize m).length := by
  simp [serialize, writeRecord, mapHeader]

/-- A message with short texts and byte sequences has a length that memory can hold. -/
theorem length_serialize_lt {m : Message} (hm : m.IsShort) :
    2 * (serialize m).length < UInt64.size := by
  have hsize : UInt32.size = 4294967296 := rfl
  have hentry : ∀ e ∈ m.fields.entries,
      (writeNat e.1.toNat ++ writeValue e.2).length ≤ 64 * UInt32.size := by
    intro e he
    have := length_writeNat_le e.1.toNat
    have := length_writeValue_le (hm e he)
    rw [List.length_append]
    omega
  have hentries : (writeEntries m.fields.entries).length ≤ 5 + 256 * (64 * UInt32.size) := by
    have := length_mapHeader_le m.fields.entries.length
    have := length_flatMap_le hentry
    have := Nat.mul_le_mul_right (64 * UInt32.size) m.fields.length_entries_le
    rw [writeEntries, List.length_append]
    omega
  have := length_writeNat_le m.mti.toNat
  have := length_writeRecord_le .message (writeNat m.mti.toNat) (writeEntries m.fields.entries)
  rw [serialize]
  unfold UInt64.size
  omega

end Pack

end Interchange
