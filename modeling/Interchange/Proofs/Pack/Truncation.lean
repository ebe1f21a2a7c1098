import Interchange.Proofs.Pack.RoundTrip

/-!
# Messages end by themselves

The bytes of a message say where they end. Whatever follows them is left alone, and a message that
is cut short is no message.

`Steady r` says that more bytes behind an input change nothing for the reader `r`: what it read, it
reads again, and the bytes are left behind its rest. Every reader is steady, since it takes its
input from the front and looks at no more than it takes. So a message read from a beginning of some
bytes is the message read from all of them, and a reader that takes all of them can take no less.
-/

namespace Interchange.Pack

/-- More bytes behind an input change nothing for a reader. -/
def Steady {α : Type} (r : Reader α) : Prop :=
  ∀ (input rest : List UInt8) (a : α), r input = .ok (a, rest) →
    ∀ more, r (input ++ more) = .ok (a, rest ++ more)

namespace Steady

variable {α β : Type} {r : Reader α} {k : α → Reader β}

theorem pure (a : α) : Steady (Pure.pure a : Reader α) := by
  intro input rest b h more
  cases h
  rfl

theorem fail (f : Fault) : Steady (Reader.fail f : Reader α) := by
  intro input rest a h
  cases h

theorem bind (h : Steady r) (hk : ∀ a, Steady (k a)) : Steady (r >>= k) := by
  intro input rest b hb more
  change Reader.andThen r k input = _ at hb
  change Reader.andThen r k _ = _
  unfold Reader.andThen at hb ⊢
  cases hr : r input with
  | error f =>
    rw [hr] at hb
    cases hb
  | ok p =>
    obtain ⟨a, mid⟩ := p
    rw [hr] at hb
    rw [h _ _ _ hr more]
    exact hk a _ _ _ hb more

theorem map (h : Steady r) (f : α → β) : Steady (r >>= fun a => Pure.pure (f a)) :=
  h.bind fun a => .pure (f a)

theorem lift (x : Except Fault α) : Steady (Reader.lift x) := by
  cases x with
  | ok a => exact .pure a
  | error f => exact .fail f

theorem times (h : Steady r) (n : Nat) : Steady (readTimes r n) := by
  induction n with
  | zero => exact .pure []
  | succ n ih => exact h.bind fun a => ih.map (a :: ·)

theorem skip {r : Reader Unit} (h : Steady r) (n : Nat) : Steady (skipTimes r n) := by
  induction n with
  | zero => exact .pure ()
  | succ n ih => exact h.bind fun _ => ih

end Steady

/-! ## Numbers and heads -/

theorem steady_marker : Steady readMarker := by
  intro input rest m h more
  cases input with
  | nil => cases h
  | cons b input =>
    cases h
    rfl

theorem steady_digits (acc n : Nat) : Steady (readDigits acc n) := by
  induction n generalizing acc with
  | zero => exact .pure acc
  | succ n ih =>
    intro input rest a h more
    cases input with
    | nil => cases h
    | cons b input => exact ih _ _ _ _ h more

theorem steady_unsigned (w : Width) : Steady (readUnsigned w) := steady_digits 0 w.bytes

theorem steady_data (n : Nat) : Steady (readData n) := by
  intro input rest bs h more
  unfold readData at h ⊢
  split at h
  · next hn =>
    cases h
    rw [if_pos (by simp only [List.length_append]; omega), List.take_append_of_le_length hn,
      List.drop_append_of_le_length hn]
  · cases h

theorem steady_number {m : Marker} {r : Reader Number} (h : readNumber? m = some r) : Steady r := by
  cases m <;> cases h
  case nil => exact .pure _
  case boolean => exact .pure _
  case smallPositive => exact .pure _
  case smallNegative => exact .pure _
  case unsigned w => exact (steady_unsigned w).map _
  case signed w => exact ((steady_unsigned w).map _).map _
  case float32 => exact (steady_unsigned .four).map _
  case float64 => exact (steady_unsigned .eight).map _

theorem steady_textHead (n : Nat) : Steady (readTextHead n) := (steady_data n).map _

theorem steady_openLevel (depth : Nat) (h : Head) : Steady (openLevel depth h) := by
  unfold openLevel
  split
  · exact .fail _
  · exact .pure h

theorem steady_headAt (depth : Nat) (m : Marker) : Steady (readHeadAt depth m) := by
  unfold readHeadAt
  split
  · next r hr => exact (steady_number hr).map _
  · split
    · exact steady_textHead _
    · exact (steady_unsigned _).bind steady_textHead
    · exact (steady_unsigned _).bind fun n => (steady_data n).map _
    · exact steady_openLevel depth _
    · exact (steady_unsigned _).bind fun n => steady_openLevel depth (.array n)
    · exact steady_openLevel depth _
    · exact (steady_unsigned _).bind fun n => steady_openLevel depth (.map n)
    · exact steady_openLevel depth _
    · exact (steady_unsigned _).bind fun n => steady_openLevel depth (.extension n)
    · exact .fail _

theorem steady_head (depth : Nat) : Steady (readHead depth) :=
  steady_marker.bind (steady_headAt depth)

theorem steady_integer (k : IntegerKind) : Steady (readInteger k) := by
  refine steady_marker.bind fun m => ?_
  split
  · next r hr => exact (steady_number hr).bind fun n => .lift _
  · exact .fail _

theorem steady_text (depth : Nat) : Steady (readText depth) := by
  refine (steady_head depth).bind fun h => ?_
  split
  · exact .pure _
  · split
    · exact .pure _
    · exact .fail _
  · exact .fail _

theorem steady_bytes (depth : Nat) : Steady (readBytes depth) := by
  refine (steady_head depth).bind fun h => ?_
  split
  · exact .pure _
  · exact ((steady_integer .octet).times _).map _
  · exact .fail _

/-! ## Values that are skipped -/

theorem steady_skipExtension (n : Nat) : Steady (skipExtension n) :=
  (steady_digits 0 1).bind fun _ => (steady_data n).map _

theorem steady_skipValue (depth : Nat) : Steady (skipValue depth) := by
  induction depth with
  | zero => exact .fail _
  | succ depth ih =>
    refine (steady_head (depth + 1)).bind fun h => ?_
    split
    · exact ih.skip _
    · exact ih.skip _
    · exact steady_skipExtension _
    · exact .pure ()

/-! ## Records -/

theorem steady_key (r : Record) (depth : Nat) : Steady (readKey r depth) := by
  refine (steady_head depth).bind fun h => ?_
  split
  · exact .pure _
  · exact .pure _
  · exact .pure _
  · split
    · exact .pure _
    · exact .pure _
  · exact .fail _

section

variable {α β : Type} {first : Reader α} {second : Reader β}

/-- Behind every key stands an entry, read or skipped. -/
theorem steady_recordMap (r : Record) (depth : Nat) (h₁ : Steady first) (h₂ : Steady second)
    (a : Option α) (b : Option β) (n : Nat) :
    Steady (readRecordMap r depth first second a b n) := by
  induction n generalizing a b with
  | zero =>
    unfold readRecordMap
    split
    · exact .pure _
    · exact .fail _
    · exact .fail _
  | succ n ih =>
    refine (steady_key r depth).bind fun key => ?_
    cases key with
    | first =>
      dsimp only
      split
      · exact .fail _
      · exact h₁.bind fun x => ih (some x) b
    | second =>
      dsimp only
      split
      · exact .fail _
      · exact h₂.bind fun y => ih a (some y)
    | other => exact (steady_skipValue depth).bind fun _ => ih a b

theorem steady_recordArray (r : Record) (h₁ : Steady first) (h₂ : Steady second) (n : Nat) :
    Steady (readRecordArray r first second n) := by
  unfold readRecordArray
  split
  · exact .fail _
  · exact h₁.bind fun _ => .fail _
  · refine h₁.bind fun a => h₂.bind fun b => ?_
    split
    · exact .pure _
    · exact .fail _

theorem steady_record (r : Record) {first : Entry α} {second : Entry β} (depth : Nat)
    (h₁ : ∀ d, Steady (first.read d)) (h₂ : ∀ d, Steady (second.read d)) :
    Steady (readRecord r first second depth) := by
  refine (steady_head depth).bind fun h => ?_
  split
  · exact steady_recordMap r _ (h₁ _) (h₂ _) none none _
  · exact steady_recordArray r (h₁ _) (h₂ _) _
  · exact .lift _
  · exact .fail _

end

/-! ## Field values and messages -/

theorem steady_variantAt (depth : Nat) (m : Marker) : Steady (readVariantAt depth m) := by
  refine (steady_headAt depth m).bind fun h => ?_
  split
  · exact .lift _
  · exact .lift _
  · exact .lift _
  · exact .fail _

theorem steady_content (depth : Nat) (v : Variant) : Steady (readContent depth v) := by
  cases v with
  | numeric =>
    exact (steady_record _ depth (fun _ => steady_integer .long)
      fun _ => steady_integer .size).map _
  | alpha => exact (steady_record _ depth steady_text fun _ => steady_integer .size).map _
  | llvar => exact (steady_text depth).map _
  | lllvar => exact (steady_text depth).map _
  | binary => exact (steady_bytes depth).map _

theorem steady_valueOfMap (depth n : Nat) : Steady (readValue.ofMap depth n) := by
  unfold readValue.ofMap
  split
  · exact steady_marker.bind fun m => (steady_variantAt depth m).bind (steady_content depth)
  · exact .fail _

theorem steady_value (depth : Nat) : Steady (readValue depth) := by
  refine steady_marker.bind fun m => ?_
  split
  · exact steady_valueOfMap depth _
  · exact (steady_unsigned _).bind (steady_valueOfMap depth)
  · exact (steady_variantAt depth _).bind fun _ => .fail _

theorem steady_entry (depth : Nat) : Steady (readFields.entry depth) :=
  (steady_integer .octet).bind fun i => (steady_value _).map fun v => (UInt8.ofNat i, v)

theorem steady_fields (depth : Nat) : Steady (readFields depth) := by
  refine (steady_head depth).bind fun h => ?_
  split
  · exact ((steady_entry depth).times _).map _
  · exact .fail _

/-- **Reading a message is steady.** -/
theorem steady_message : Steady readMessage :=
  (steady_record _ _ (fun _ => steady_integer .short) steady_fields).map _

/-! ## Where a message ends -/

/-- What is read from the front of some bytes takes them all, if it is read from no less. -/
theorem Steady.eq_of_reads {α : Type} {r : Reader α} (hr : Steady r) {w p : List UInt8} {a b : α}
    {rest : List UInt8} (hw : Reads r w a) (hp : p <+: w) (h : r p = .ok (b, rest)) : p = w := by
  obtain ⟨q, rfl⟩ := hp
  have hlong : r (p ++ q) = .ok (b, rest ++ q) := hr _ _ _ h q
  have hwhole : r (p ++ q) = .ok (a, []) := by simpa using hw []
  have hrest : rest ++ q = [] := congrArg Prod.snd (Except.ok.inj (hlong.symm.trans hwhole))
  rw [(List.append_eq_nil_iff.1 hrest).2, List.append_nil]

/-- **The bytes of a message say where they end**: the message is read back whatever follows them,
and nothing is read from a beginning of them that is shorter. -/
theorem serialize_delimits {m : Message} (hm : m.IsShort) :
    (∀ more, parse (serialize m ++ more) = .ok m) ∧
      ∀ p, p <+: serialize m → p ≠ serialize m → ∃ f, parse p = .error f := by
  refine ⟨fun more => ?_, fun p hp hne => ?_⟩
  · rw [parse, reads_message hm more]
  · unfold parse
    split
    · next n rest hn => exact absurd (steady_message.eq_of_reads (reads_message hm) hp hn) hne
    · next f _ => exact ⟨f, rfl⟩

/-- The bytes of a message with a value of every kind, followed by a byte with no meaning and cut
inside its last value. -/
theorem serialize_delimits_every_kind :
    let m : Message := ⟨0x0200, ⟨[(2, .llvar "4000001234567899"),
      (4, .numeric 0xFFFFFFFFFFFFFFFF 12), (43, .alpha "Zürich" 40),
      (48, .lllvar "a text of more than thirty-one bytes"),
      (64, .binary (List.replicate 16 0xC8))], by decide⟩⟩
    m.IsShort ∧ parse (serialize m ++ [0xC1]) = .ok m ∧
      ∃ f, parse (serialize m).dropLast = .error f := by
  intro m
  have hm : m.IsShort := by
    intro e he
    simp only [m, List.mem_cons, List.not_mem_nil, or_false] at he
    rcases he with rfl | rfl | rfl | rfl | rfl
    · exact show Utf8.byteLength _ < _ by decide
    · trivial
    · exact show Utf8.byteLength _ < _ by decide
    · exact show Utf8.byteLength _ < _ by decide
    · exact show List.length _ < _ by decide
  have hne : (serialize m).dropLast ≠ serialize m := by
    intro h
    have hlen := congrArg List.length h
    have hpos := length_serialize_pos m
    rw [List.length_dropLast] at hlen
    omega
  obtain ⟨hwhole, hcut⟩ := serialize_delimits hm
  exact ⟨hm, hwhole [0xC1], hcut _ (List.dropLast_prefix _) hne⟩

end Interchange.Pack
