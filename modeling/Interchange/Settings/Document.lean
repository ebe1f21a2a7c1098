import Interchange.Json.Parser
import Interchange.Settings.Assignment

/-!
# Settings as documents

Settings are read from a JSON object by the keys of the settings, or for a connector from an array
in the order of the settings. What is missing keeps its default, other keys are skipped, and no key
of a setting may occur twice. A client's settings are an object only, with the key of the time to
wait beside those of its connector, and all of the document must be decodable; beside the name of a
rule it may hold an empty object in place of null.

Main definitions: `Settings.load`, `Settings.print` and the same for `ClientSettings`.
-/

namespace Interchange

open Json

/-! ## Values of settings -/

/-- A natural number below `2 ^ bits`. -/
def readUnsigned? (bits : Nat) : Value → Option Nat
  | .number n => do
    let v ← n.toNat?
    if v < Nat.pow 2 bits then return v else none
  | _ => none

/-- A 64-bit number. -/
def readWord? (v : Value) : Option UInt64 := (readUnsigned? 64 v).map UInt64.ofNat

/-- A signed 32-bit number. -/
def readSigned32? : Value → Option Int32
  | .number n => do
    let v ← n.toInt?
    if Int32.minValue.toInt ≤ v ∧ v ≤ Int32.maxValue.toInt then return Int32.ofInt v else none
  | _ => none

/-- A truth value. -/
def readBool? : Value → Option Bool
  | .boolean b => some b
  | _ => none

/-- A rule: its name, or an object that has the name as its only key, for null. -/
def readRule? : Value → Option EchoRule
  | .text (some s) => EchoRule.named? s
  | .object [(some s, .null)] => EchoRule.named? s
  | _ => none

/-- An array of bytes. -/
def readOctets? : Value → Option (List UInt8)
  | .array vs => vs.mapM fun v => (readUnsigned? 8 v).map UInt8.ofNat
  | _ => none

/-- The value of one of the settings. -/
def SettingName.read? : (name : SettingName) → Json.Value → Option name.Value
  | lengthWidth => readWord?
  | lengthOffset => readWord?
  | lengthAdjustment => readSigned32?
  | lengthDecimal => readBool?
  | maxFrameLength => readWord?
  | idleTimeout => readWord?
  | answerEchoes => readBool?
  | replyOnError => readBool?
  | workerThreads => readWord?
  | failOnListenerError => readBool?
  | echoRule => readRule?
  | logMessages => readBool?
  | logSensitive => readBool?
  | sensitiveFields => readOctets?
  | maxPendingWrites => readWord?

/-- Truth values as they are written. -/
def writeBool (b : Bool) : List Char := (if b then "true" else "false").toList

/-- Several texts with commas between them. -/
def separated : List (List Char) → List Char
  | [] => []
  | [t] => t
  | t :: ts => t ++ ',' :: separated ts

/-- A key or a name, which holds nothing to escape, between quotes. -/
def quote (s : String) : List Char := '"' :: s.toList ++ ['"']

/-- The value of one of the settings as it is written. -/
def SettingName.write : (name : SettingName) → name.Value → List Char
  | lengthWidth, v => Digits.decimal v.toNat
  | lengthOffset, v => Digits.decimal v.toNat
  | lengthAdjustment, v => (Digits.signed v.toInt).toList
  | lengthDecimal, v => writeBool v
  | maxFrameLength, v => Digits.decimal v.toNat
  | idleTimeout, v => Digits.decimal v.toNat
  | answerEchoes, v => writeBool v
  | replyOnError, v => writeBool v
  | workerThreads, v => Digits.decimal v.toNat
  | failOnListenerError, v => writeBool v
  | echoRule, v => quote v.name
  | logMessages, v => writeBool v
  | logSensitive, v => writeBool v
  | sensitiveFields, v => '[' :: separated (v.map fun b => Digits.decimal b.toNat) ++ [']']
  | maxPendingWrites, v => Digits.decimal v.toNat

/-! ## Documents -/

/-- The members of an object whose keys are all text, by key. -/
def textMembers (es : List (Option (List Char) × Value)) : Option (List (List Char × Value)) :=
  es.mapM fun (k, v) => k.map fun k => (k, v)

/-- The assignment that a member makes: none where the key is no setting's. -/
def Assignment.ofMember? (e : List Char × Value) : Option (Option Assignment) :=
  match SettingName.keyed? e.1 with
  | none => some none
  | some name => (name.read? e.2).map fun v => some ⟨name, v⟩

/-- The assignments that the members of an object make, none of them to the same setting. -/
def Assignment.ofMembers? (es : List (List Char × Value)) : Option (List Assignment) := do
  let as := (← es.mapM ofMember?).filterMap id
  if (as.map (·.name)).Nodup then return as else none

/-- The assignments that the elements of an array make, in the order of the settings. -/
def Assignment.ofElements? : List SettingName → List Value → Option (List Assignment)
  | _, [] => some []
  | [], _ :: _ => none
  | name :: names, v :: vs => do
    let v ← name.read? v
    return ⟨name, v⟩ :: (← ofElements? names vs)

/-- A member as it is written. -/
def writeMember (key : String) (value : List Char) : List Char := quote key ++ ':' :: value

/-- An object as it is written. -/
def writeObject (members : List (List Char)) : List Char :=
  '\x7b' :: separated members ++ ['\x7d']

namespace Settings

/-- The settings that a value stands for. -/
def ofValue? : Value → Option Settings
  | .object es => do
    let as ← Assignment.ofMembers? (← textMembers es)
    return build as
  | .array vs => do
    let as ← Assignment.ofElements? SettingName.all vs
    return build as
  | _ => none

/-- The settings of a document. -/
def load (text : String) : Except Fault Settings :=
  match (parse text.toList).bind ofValue? with
  | some s => .ok s
  | none => .error (.json "invalid settings")

/-- The members of the settings' document. -/
def members (s : Settings) : List (List Char) :=
  s.assignments.map fun a => writeMember a.name.key (a.name.write a.value)

/-- The document of the settings. -/
def print (s : Settings) : String := String.ofList (writeObject s.members)

end Settings

namespace ClientSettings

/-- The key of the time to wait before connecting again. -/
def intervalKey : String := "reconnectIntervalMs"

/-- The times to wait that the members of an object give. -/
def intervals? (es : List (List Char × Value)) : Option (List UInt64) :=
  (es.filter (·.1 = intervalKey.toList)).mapM fun e => readWord? e.2

/-- The value of a member, where an empty object beside a name stands for null. -/
def emptyAsNull : Value → Value
  | .object [(name, .object [])] => .object [(name, .null)]
  | v => v

/-- The client's settings that a value stands for. -/
def ofValue? (v : Value) : Option ClientSettings :=
  match v with
  | .object es =>
    if v.isDecodable then do
      let es ← textMembers es
      let as ← Assignment.ofMembers? (es.map fun e => (e.1, emptyAsNull e.2))
      let connector := Settings.build as
      match ← intervals? es with
      | [] => return { connector }
      | [reconnectInterval] => return { connector, reconnectInterval }
      | _ => none
    else none
  | _ => none

/-- The client's settings of a document. -/
def load (text : String) : Except Fault ClientSettings :=
  match (parse text.toList).bind ofValue? with
  | some c => .ok c
  | none => .error (.json "invalid settings")

/-- The document of a client's settings. -/
def print (c : ClientSettings) : String :=
  String.ofList (writeObject (c.connector.members ++
    [writeMember intervalKey (Digits.decimal c.reconnectInterval.toNat)]))

end ClientSettings

end Interchange
