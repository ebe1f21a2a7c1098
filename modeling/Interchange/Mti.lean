/-!
# Message type indicators

A message type indicator is a 16-bit number with four hexadecimal digits: the version of the
standard, the class of the message, its function and who originated it. `compose` puts the digits
together, `classOf?` and `functionDigit` read two of them back.
-/

namespace Interchange.Mti

/-- The version of the standard. -/
inductive Version where
  /-- The edition of 1987. -/
  | v1987
  /-- The edition of 1993. -/
  | v1993
  /-- The edition of 2003. -/
  | v2003
  /-- National use. -/
  | national
  /-- Private use. -/
  | privateUse
  deriving DecidableEq, Repr

/-- The version digit. -/
def Version.code : Version → UInt16
  | .v1987 => 0x0000
  | .v1993 => 0x1000
  | .v2003 => 0x2000
  | .national => 0x8000
  | .privateUse => 0x9000

/-- The purpose of a message. -/
inductive Class where
  | authorization
  | financial
  | fileActions
  | reversalChargeback
  | reconciliation
  | administrative
  | feeCollection
  | networkManagement
  deriving DecidableEq, Repr

/-- The class digit. -/
def Class.code : Class → UInt16
  | .authorization => 0x0100
  | .financial => 0x0200
  | .fileActions => 0x0300
  | .reversalChargeback => 0x0400
  | .reconciliation => 0x0500
  | .administrative => 0x0600
  | .feeCollection => 0x0700
  | .networkManagement => 0x0800

/-- The part that a message plays in an exchange. -/
inductive Function where
  | request
  | requestResponse
  | advice
  | adviceResponse
  | notification
  | notificationAck
  | instruction
  | instructionAck
  | reserved8
  | reserved9
  deriving DecidableEq, Repr

/-- The function digit. -/
def Function.code : Function → UInt16
  | .request => 0x0000
  | .requestResponse => 0x0010
  | .advice => 0x0020
  | .adviceResponse => 0x0030
  | .notification => 0x0040
  | .notificationAck => 0x0050
  | .instruction => 0x0060
  | .instructionAck => 0x0070
  | .reserved8 => 0x0080
  | .reserved9 => 0x0090

/-- Who sent a message, and whether it is a repeat. -/
inductive Origin where
  | acquirer
  | acquirerRepeat
  | issuer
  | issuerRepeat
  | other
  | otherRepeat
  deriving DecidableEq, Repr

/-- The origin digit. -/
def Origin.code : Origin → UInt16
  | .acquirer => 0x0000
  | .acquirerRepeat => 0x0001
  | .issuer => 0x0002
  | .issuerRepeat => 0x0003
  | .other => 0x0004
  | .otherRepeat => 0x0005

/-- The indicator with the four given digits. -/
def compose (v : Version) (c : Class) (f : Function) (o : Origin) : UInt16 :=
  v.code + c.code + f.code + o.code

/-- Every class, in the order of its digit. -/
def Class.all : List Class :=
  [.authorization, .financial, .fileActions, .reversalChargeback, .reconciliation,
    .administrative, .feeCollection, .networkManagement]

/-- The class of an indicator, if its class digit is assigned. -/
def classOf? (mti : UInt16) : Option Class := Class.all.find? (·.code = mti &&& 0x0F00)

/-- The function digit of an indicator. -/
def functionDigit (mti : UInt16) : UInt16 := mti &&& 0x00F0

/-- A response has the type of its request with the function digit one higher. -/
def response (mti : UInt16) : UInt16 := mti + 0x0010

/-- The type of an echo request: a network management request from the acquirer. -/
def echoRequest (v : Version) : UInt16 := compose v .networkManagement .request .acquirer

/-- The type of a reject message: an administrative notification from neither end. -/
def reject (v : Version) : UInt16 := compose v .administrative .notification .other

end Interchange.Mti
