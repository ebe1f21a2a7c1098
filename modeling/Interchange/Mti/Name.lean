import Interchange.Mti

/-!
# Names of the parts of a message type

Each part of a message type indicator has a name, which stands for it in words.
-/

namespace Interchange.Mti

/-- Every version. -/
def Version.all : List Version :=
  [.v1987, .v1993, .v2003, .national, .privateUse]

/-- The name of a version. -/
def Version.name : Version → String
  | .v1987 => "V1987"
  | .v1993 => "V1993"
  | .v2003 => "V2003"
  | .national => "National"
  | .privateUse => "Private"

/-- The name of a class. -/
def Class.name : Class → String
  | .authorization => "Authorization"
  | .financial => "Financial"
  | .fileActions => "FileActions"
  | .reversalChargeback => "ReversalChargeback"
  | .reconciliation => "Reconciliation"
  | .administrative => "Administrative"
  | .feeCollection => "FeeCollection"
  | .networkManagement => "NetworkManagement"

/-- Every function. -/
def Function.all : List Function :=
  [.request, .requestResponse, .advice, .adviceResponse, .notification, .notificationAck,
    .instruction, .instructionAck, .reserved8, .reserved9]

/-- The name of a function. -/
def Function.name : Function → String
  | .request => "Request"
  | .requestResponse => "RequestResponse"
  | .advice => "Advice"
  | .adviceResponse => "AdviceResponse"
  | .notification => "Notification"
  | .notificationAck => "NotificationAck"
  | .instruction => "Instruction"
  | .instructionAck => "InstructionAck"
  | .reserved8 => "Reserved8"
  | .reserved9 => "Reserved9"

/-- Every origin. -/
def Origin.all : List Origin :=
  [.acquirer, .acquirerRepeat, .issuer, .issuerRepeat, .other, .otherRepeat]

/-- The name of an origin. -/
def Origin.name : Origin → String
  | .acquirer => "Acquirer"
  | .acquirerRepeat => "AcquirerRepeat"
  | .issuer => "Issuer"
  | .issuerRepeat => "IssuerRepeat"
  | .other => "Other"
  | .otherRepeat => "OtherRepeat"

end Interchange.Mti
