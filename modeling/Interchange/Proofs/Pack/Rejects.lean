import Interchange.Reject
import Interchange.Proofs.Pack.RoundTrip

/-!
# Reject messages on the wire

A reject message carries the wording of a fault, and whoever sent the body that is refused has a
hand in the wording. `detail` cuts it by characters, whereas the wire counts bytes.

* `detail_detail`: what was cut is not cut again.
* `length_serialize_reply_le`: a character takes four bytes at most, so a reject message has a bound
  that no wording exceeds.
* `parse_serialize_reply`: whoever receives a reject message reads it as the message that it is.

`WellFormed` collects what holds of every reject message.
-/

namespace Interchange

/-! ## Characters and bytes -/

namespace Utf8

/-- A character takes four bytes at most. -/
theorem length_encodeChar_le (c : Char) : (encodeChar c).length ≤ 4 := by
  unfold encodeChar
  dsimp only
  split
  · simp
  split
  · simp
  split
  · simp
  · simp

theorem length_encode_le (cs : List Char) : (encode cs).length ≤ cs.length * 4 :=
  Pack.length_flatMap_le fun c _ => length_encodeChar_le c

end Utf8

namespace Pack

/-- The header of a text below 256 bytes. -/
theorem length_textHeader_le_two {n : Nat} (h : n < UInt8.size) : (textHeader n).length ≤ 2 := by
  unfold textHeader
  split
  · simp
  · simp [length_bigEndian]

theorem length_writeText_le_of_lt {s : String} (h : Utf8.byteLength s < UInt8.size) :
    (writeText s).length ≤ 2 + Utf8.byteLength s := by
  have := length_textHeader_le_two h
  simp only [writeText, List.length_append, Utf8.byteLength] at this ⊢
  omega

end Pack

namespace Reject

open Pack

/-! ## The wording -/

section

variable {cs : List Char}

theorem detail_of_le (h : cs.length ≤ detailLimit) : detail cs = cs := if_pos h

theorem detail_of_lt (h : detailLimit < cs.length) : detail cs = cs.take 22 ++ ['.', '.', '.'] :=
  if_neg (Nat.not_le.2 h)

theorem length_detail_le (cs : List Char) : (detail cs).length ≤ detailLimit := by
  rcases Nat.lt_or_ge detailLimit cs.length with h | h
  · rw [detail_of_lt h, List.length_append, List.length_take]
    simp only [detailLimit, List.length_cons, List.length_nil]
    omega
  · rwa [detail_of_le h]

/-- What was cut is not cut again. -/
theorem detail_detail (cs : List Char) : detail (detail cs) = detail cs :=
  detail_of_le (length_detail_le cs)

end

/-- The wording as it stands in field 44. -/
def detailText (text : String) : String := String.ofList (detail text.toList)

theorem toList_detailText (text : String) : (detailText text).toList = detail text.toList :=
  String.toList_ofList

theorem byteLength_detailText_le (text : String) : Utf8.byteLength (detailText text) ≤ 100 := by
  have hcut := length_detail_le text.toList
  have hbytes := Utf8.length_encode_le (detail text.toList)
  rw [Utf8.byteLength, toList_detailText]
  simp only [detailLimit] at hcut
  omega

/-! ## The message -/

section

variable (v : Mti.Version) (text : String)

theorem entries_reply : (reply v text).fields.entries =
    [(reasonField, reason), (detailField, .llvar (detailText text))] := rfl

theorem isShort_reply : (reply v text).IsShort := by
  intro e he
  rw [entries_reply, List.mem_cons, List.mem_singleton] at he
  rcases he with rfl | rfl
  · trivial
  · have hbytes := byteLength_detailText_le text
    show Utf8.byteLength (detailText text) < UInt32.size
    unfold UInt32.size
    omega

/-- **A reject message is read back.** -/
theorem parse_serialize_reply : parse (serialize (reply v text)) = .ok (reply v text) :=
  parse_serialize (isShort_reply v text)

end

/-! ## Its size -/

/-- The bytes in front of the wording. -/
def lead (v : Mti.Version) : List UInt8 :=
  mapHeader 2 ++ writeText "mti" ++ writeNat (Mti.reject v).toNat ++ writeText "fields" ++
    mapHeader 2 ++ writeNat reasonField.toNat ++ writeValue reason ++ writeNat detailField.toNat ++
    mapHeader 1 ++ writeText "LlVar"

theorem length_lead_le (v : Mti.Version) : (lead v).length ≤ 52 := by cases v <;> decide

/-- Only the wording varies. -/
theorem serialize_reply (v : Mti.Version) (text : String) :
    serialize (reply v text) = lead v ++ writeText (detailText text) := by
  rw [serialize, writeRecord, writeEntries, entries_reply]
  simp only [lead, List.append_assoc, List.flatMap_cons, List.flatMap_nil, List.append_nil]
  rfl

/-- **A reject message has a bound** that no wording exceeds. -/
theorem length_serialize_reply_le (v : Mti.Version) (text : String) :
    (serialize (reply v text)).length ≤ 154 := by
  have hbytes := byteLength_detailText_le text
  have htext : (writeText (detailText text)).length ≤ 2 + Utf8.byteLength (detailText text) := by
    refine length_writeText_le_of_lt ?_
    unfold UInt8.size
    omega
  have hlead := length_lead_le v
  rw [serialize_reply, List.length_append]
  omega

/-! ## What a reject message is -/

/-- A body that is a reject message, of any version and with any wording. -/
def IsBody (b : List UInt8) : Prop := ∃ v text, b = serialize (reply v text)

/-- What a reject message says, and what it is on the wire. -/
structure WellFormed (v : Mti.Version) (text : String) (m : Message) : Prop where
  /-- It is an administrative notification of its version. -/
  mti : m.mti = Mti.compose v .administrative .notification .other
  /-- It has two fields. -/
  indices : m.fields.indices = [24, 44]
  /-- One of them gives the reason. -/
  reason : m.field? 24 = some (.numeric 650 3)
  /-- The other one gives the wording. -/
  detail : m.field? 44 = some (.llvar (detailText text))
  /-- A short wording stands there as it is. -/
  whole : text.length ≤ 25 → detailText text = text
  /-- A longer one is cut. -/
  cut : 25 < text.length → detailText text = String.ofList (text.toList.take 22) ++ "..."
  /-- It has 25 characters at most. -/
  length_le : (detailText text).length ≤ 25
  /-- What was cut is not cut again. -/
  again : detailText (detailText text) = detailText text
  /-- The message takes no more than 200 bytes. -/
  size : (serialize m).length ≤ 200
  /-- It is read back. -/
  readBack : parse (serialize m) = .ok m

/-- **Every reject message is well formed**, whatever the wording. -/
theorem wellFormed_reply (v : Mti.Version) (text : String) : WellFormed v text (reply v text) where
  mti := rfl
  indices := rfl
  reason := rfl
  detail := rfl
  whole h := by
    rw [detailText, detail_of_le (by rwa [String.length_toList]), String.ofList_toList]
  cut h := by
    rw [detailText, detail_of_lt (by rwa [String.length_toList]), String.ofList_append]
  length_le := by
    rw [← String.length_toList, toList_detailText]
    exact length_detail_le _
  again := by rw [detailText, toList_detailText, detail_detail, detailText]
  size := Nat.le_trans (length_serialize_reply_le v text) (by decide)
  readBack := parse_serialize_reply v text

end Reject

end Interchange
