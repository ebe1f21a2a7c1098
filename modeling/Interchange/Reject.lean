import Interchange.Message

/-!
# Reject messages

The answer to a body that is no message: an administrative notification with a reason code in
field 24 and the wording of the fault, cut to 25 characters, in field 44.
-/

namespace Interchange.Reject

/-- The number of the field with the reason. -/
def reasonField : UInt8 := 24

/-- The number of the field with the wording. -/
def detailField : UInt8 := 44

/-- The reason: the message cannot be parsed. -/
def reason : FieldValue := .numeric 650 3

/-- The most characters that the wording may have. -/
def detailLimit : Nat := 25

/-- A text of at most `detailLimit` characters: a longer one ends in three dots. -/
def detail (text : List Char) : List Char :=
  if text.length ≤ detailLimit then text else text.take (detailLimit - 3) ++ ['.', '.', '.']

/-- The reject message for a fault with the given wording. -/
def reply (version : Mti.Version) (text : String) : Message :=
  ((Message.new (Mti.reject version)).set reasonField reason).set detailField
    (.llvar (String.ofList (detail text.toList)))

end Interchange.Reject
