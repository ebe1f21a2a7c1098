import Interchange.Proofs.Message
import Interchange.Proofs.Pack.RoundTrip

/-!
# The order of fields

The bytes of a message say what it holds and nothing of how it came to hold it: fields are written
in the order of their numbers, whatever the order in which they were set, and what was set over is
gone (`serialize_canonical`).

Other senders keep to no order. Whatever order the fields of a message stand in on the wire, and
whatever their numbers, they are read as if they were set in that order (`parse_any_order`).
-/

namespace Interchange

namespace Mti

/-- The type of a response is no overflow below `0xFFF0`. -/
theorem toNat_response_of_lt {mti : UInt16} (h : mti.toNat < 0xFFF0) :
    (response mti).toNat = mti.toNat + 0x0010 := by
  have hadd : (response mti).toNat = (mti.toNat + 0x0010) % 65536 := UInt16.toNat_add ..
  rw [hadd, Nat.mod_eq_of_lt (by omega)]

end Mti

namespace Pack

/-- **Different messages have different bytes.** -/
theorem serialize_eq_iff {m n : Message} (hm : m.IsShort) (hn : n.IsShort) :
    serialize m = serialize n ↔ m = n := by
  constructor
  · intro h
    have hread : Except.ok m = Except.ok n :=
      calc Except.ok m = parse (serialize m) := (parse_serialize hm).symm
        _ = parse (serialize n) := by rw [h]
        _ = Except.ok n := parse_serialize hn
    exact Except.ok.inj hread
  · exact congrArg serialize

theorem isShort_setAll {mti : UInt16} {es : List (UInt8 × FieldValue)}
    (hes : ∀ e ∈ es, e.2.IsShort) : ((Message.new mti).setAll es).IsShort :=
  (Message.holds_setAll mti es).forall_entries hes

/-- **The bytes of a message are canonical**: two messages that were set value by value have the
same bytes if and only if they are of one type and the same values were set last. Such a message
holds the values that were set last, in the order of their numbers, and so does its response. -/
theorem serialize_canonical (mti mti' : UInt16) {es es' : List (UInt8 × FieldValue)}
    (hes : ∀ e ∈ es, e.2.IsShort) (hes' : ∀ e ∈ es', e.2.IsShort) :
    (serialize ((Message.new mti).setAll es) = serialize ((Message.new mti').setAll es') ↔
        mti = mti' ∧ ∀ i, Fields.last? es i = Fields.last? es' i) ∧
      ∀ (t : UInt16) (hs : List (UInt8 × FieldValue)), ((Message.new t).setAll hs).Holds t hs ∧
        (t.toNat < 0xFFF0 → (Mti.response t).toNat = t.toNat + 0x0010 ∧
          ((Message.new t).setAll hs).response.Holds (Mti.response t) hs) := by
  refine ⟨?_, fun t hs => ⟨Message.holds_setAll t hs, fun ht => ?_⟩⟩
  · rw [serialize_eq_iff (isShort_setAll hes) (isShort_setAll hes')]
    exact Message.setAll_new_eq_iff mti mti' es es'
  · exact ⟨Mti.toNat_response_of_lt ht, (Message.holds_setAll t hs).response⟩

/-- Three histories, of which the first sets a field over. It leaves what the second leaves, and not
what the third leaves, which differs in the kind of one text. -/
theorem serialize_canonical_set_over :
    let message (es : List (UInt8 × FieldValue)) := (Message.new 0x0200).setAll es
    let es : List (UInt8 × FieldValue) :=
      [(64, .binary [0xC8]), (48, .llvar "é"), (2, .numeric 7 6), (48, .lllvar "é")]
    let es' : List (UInt8 × FieldValue) :=
      [(2, .numeric 7 6), (48, .lllvar "é"), (64, .binary [0xC8])]
    let es'' : List (UInt8 × FieldValue) :=
      [(2, .numeric 7 6), (48, .llvar "é"), (64, .binary [0xC8])]
    (∀ e ∈ es, e.2.IsShort) ∧ (∀ e ∈ es', e.2.IsShort) ∧ (∀ e ∈ es'', e.2.IsShort) ∧
      serialize (message es) = serialize (message es') ∧
      serialize (message es) ≠ serialize (message es'') ∧
      (message es).response.Holds 0x0210 es := by
  intro message es es' es''
  have hes : ∀ e ∈ es, e.2.IsShort := by decide
  have hes' : ∀ e ∈ es', e.2.IsShort := by decide
  have hes'' : ∀ e ∈ es'', e.2.IsShort := by decide
  have hsame : message es = message es' := by decide
  have hdiffers : Fields.last? es 48 ≠ Fields.last? es'' 48 := by decide
  refine ⟨hes, hes', hes'', ?_, ?_, ?_⟩
  · exact (serialize_canonical 0x0200 0x0200 hes hes').1.2 ((Message.setAll_new_eq_iff ..).1 hsame)
  · intro h
    exact hdiffers (((serialize_canonical 0x0200 0x0200 hes hes'').1.1 h).2 48)
  · exact (((serialize_canonical 0x0200 0x0200 hes hes').2 0x0200 es).2 (by decide)).2

/-- **The order of fields on the wire does not matter**, nor which key of the message comes first:
what is read holds the last value of each number. This is so of the forms that are written here, and
of all others. -/
theorem parse_any_order (mti : UInt16) {es : List (UInt8 × FieldValue)}
    (hlength : es.length < UInt32.size) (hes : ∀ e ∈ es, e.2.IsShort) :
    ∃ m : Message, m.Holds mti es ∧
      parse (writeRecord .message (writeNat mti.toNat) (writeEntries es)) = .ok m ∧
      parse (writeSwapped .message (writeNat mti.toNat) (writeEntries es)) = .ok m ∧
      ∀ w, MessageForm mti es w → parse w = .ok m := by
  have hentries := entriesForm_writeEntries hlength hes
  have hparse (w : List UInt8) (hw : MessageForm mti es w) :
      parse w = .ok ((Message.new mti).setAll es) := by
    rw [parse_of_messageForm hw, Message.setAll_new]
  refine ⟨_, Message.holds_setAll mti es, hparse _ ?_, hparse _ ?_, hparse⟩
  · exact recordForm_writeRecord (natForm_mti mti) hentries
  · exact recordForm_writeSwapped (natForm_mti mti) hentries

/-- Fields that descend, with a number that occurs again between them, behind the key that comes
second where the message is written here. -/
theorem parse_any_order_descending :
    let es : List (UInt8 × FieldValue) :=
      [(64, .binary [0xC8]), (48, .llvar "é"), (2, .numeric 7 6), (48, .alpha "é" 3)]
    es.length < UInt32.size ∧ (∀ e ∈ es, e.2.IsShort) ∧
      parse (writeSwapped .message (writeNat 0x0200) (writeEntries es)) =
        .ok ⟨0x0200,
          ⟨[(2, .numeric 7 6), (48, .alpha "é" 3), (64, .binary [0xC8])], by decide⟩⟩ := by
  intro es
  have hlength : es.length < UInt32.size := by decide
  have hes : ∀ e ∈ es, e.2.IsShort := by decide
  refine ⟨hlength, hes, ?_⟩
  obtain ⟨m, hm, -, hswapped, -⟩ := parse_any_order 0x0200 hlength hes
  have hset : (Message.new 0x0200).setAll es =
      ⟨0x0200, ⟨[(2, .numeric 7 6), (48, .alpha "é" 3), (64, .binary [0xC8])], by decide⟩⟩ := by
    decide
  rw [← hset, ← hm.unique (Message.holds_setAll 0x0200 es)]
  exact hswapped

end Pack

end Interchange
