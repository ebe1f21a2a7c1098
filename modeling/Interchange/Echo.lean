import Interchange.Message

/-!
# Echo requests

Which messages a connector answers by itself, and with what. `EchoRule.holds` decides whether a
message is an echo request; the answer is the response to it.
-/

namespace Interchange

/-- When a message is an echo request. -/
inductive EchoRule where
  /-- Its type is that of the connector's own echo request. -/
  | exact
  /-- The network management bit of its class digit is set. -/
  | networkManagementClass
  /-- Its class is network management and its function is a request. -/
  | networkManagementRequest
  deriving DecidableEq, Repr

namespace EchoRule

/-- The name of a rule in settings. -/
def name : EchoRule → String
  | exact => "exact"
  | networkManagementClass => "networkManagementClass"
  | networkManagementRequest => "networkManagementRequest"

/-- Every rule. -/
def all : List EchoRule := [exact, networkManagementClass, networkManagementRequest]

/-- The rule with a name. -/
def named? (name : List Char) : Option EchoRule := all.find? (·.name.toList = name)

/-- Whether a message of type `mti` is an echo request, where the connector's own echo requests have
type `echo`. -/
def holds (rule : EchoRule) (echo mti : UInt16) : Bool :=
  match rule with
  | exact => mti = echo
  | networkManagementClass => mti &&& 0x0800 ≠ 0
  | networkManagementRequest => mti &&& 0x0F00 = 0x0800 ∧ Mti.functionDigit mti = 0

end EchoRule

end Interchange
