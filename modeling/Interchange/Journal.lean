import Interchange.Settings.Basic

/-!
# The message log

A message is logged as its type and one line for each field. Unless sensitive data may be shown,
the account number in field 2 keeps its first six and its last four characters, and the fields that
count as sensitive show nothing of their values.
-/

namespace Interchange

/-- How messages are logged. -/
structure Logger where
  /-- Whether sensitive fields are shown as they are. -/
  showSensitive : Bool
  /-- The numbers of the sensitive fields. -/
  sensitive : List UInt8
  deriving DecidableEq, Repr

/-- The way a message went. -/
inductive Direction where
  | inbound
  | outbound
  deriving DecidableEq, Repr

/-- A direction in the log. -/
def Direction.name : Direction → String
  | inbound => "inbound"
  | outbound => "outbound"

namespace Logger

/-- The logger of a connector, if it logs messages. -/
def ofSettings? (s : Settings) : Option Logger :=
  if s.logMessages then some ⟨s.logSensitive, s.sensitiveFields⟩ else none

/-- The number of the field with the account number. -/
def accountField : UInt8 := 2

/-- An account number with everything between its first six and its last four characters masked. -/
def maskAccount (cs : List Char) : List Char :=
  let n := cs.length
  cs.zipIdx.map fun (c, i) => if 6 ≤ i ∧ i + 4 < n then '*' else c

/-- What is shown in place of a sensitive value. -/
def mask : List Char := ['*', '*', '*']

/-- The kind of a field value in the log. -/
def kind : FieldValue → String
  | .numeric .. => "NUMERIC"
  | .alpha .. => "ALPHA"
  | .llvar _ => "LLVAR"
  | .lllvar _ => "LLLVAR"
  | .binary _ => "BINARY"

/-- The length of a field value in the log: the display length where it has one, else its bytes. -/
def length : FieldValue → Nat
  | .numeric _ n => n.toNat
  | .alpha _ n => n.toNat
  | .llvar text => Utf8.byteLength text
  | .lllvar text => Utf8.byteLength text
  | .binary bytes => bytes.length

/-- What the log shows of the value at a number. -/
def shown (l : Logger) (i : UInt8) (v : FieldValue) : List Char :=
  if l.showSensitive then v.chars
  else if i = accountField then maskAccount v.chars
  else if l.sensitive.contains i then mask
  else v.chars

/-- The line of one field. -/
def line (l : Logger) (i : UInt8) (v : FieldValue) : List Char :=
  "\n  ".toList ++ Digits.decimal i.toNat ++ ": [".toList ++ (kind v).toList ++ ['(']
    ++ Digits.decimal (length v) ++ ")] = '".toList ++ l.shown i v ++ ['\'']

/-- A message in the log. -/
def format (l : Logger) (m : Message) : String :=
  String.ofList ("MTI: 0x".toList ++ Digits.paddedHex 4 m.mti.toNat
    ++ m.fields.entries.flatMap fun e => l.line e.1 e.2)

end Logger

end Interchange
