import EnhancedAgentBus.Components.RegistryManager

/-!
# Messages

What an agent sends, and what the bus answers.  Of a message there are the fields that the bus and
the components behind it read, all of them chosen by the sender.
-/

namespace EnhancedAgentBus.Bus

inductive MessageType where
  | command
  | query
  | response
  | event
  | notification
  | heartbeat
  | governanceRequest
  | governanceResponse
  | constitutionalValidation
  | taskRequest
  | taskResponse
  | bountySubmission
  | paymentRequest
  | auditLog
  deriving DecidableEq

def MessageType.value : MessageType → String
  | .command => "command"
  | .query => "query"
  | .response => "response"
  | .event => "event"
  | .notification => "notification"
  | .heartbeat => "heartbeat"
  | .governanceRequest => "governance_request"
  | .governanceResponse => "governance_response"
  | .constitutionalValidation => "constitutional_validation"
  | .taskRequest => "task_request"
  | .taskResponse => "task_response"
  | .bountySubmission => "bounty_submission"
  | .paymentRequest => "payment_request"
  | .auditLog => "audit_log"

/-- `Priority`, of which `NORMAL` is another name of `MEDIUM`. -/
inductive Priority where
  | low
  | medium
  | high
  | critical
  deriving DecidableEq

inductive AutonomyTier where
  | advisory
  | humanApproved
  | bounded
  | unrestricted
  deriving DecidableEq

def AutonomyTier.value : AutonomyTier → String
  | .advisory => "advisory"
  | .humanApproved => "human_approved"
  | .bounded => "bounded"
  | .unrestricted => "unrestricted"

inductive MessageStatus where
  | pending
  | processing
  | delivered
  | failed
  | expired
  | pendingDeliberation
  | validated
  deriving DecidableEq

def constitutionalHash : String := "608508a9bd224290"

/-- `AgentMessage`.  A sender may give it an `idempotency_key` as well. -/
structure AgentMessage where
  messageId : String
  conversationId : String
  content : Json := .obj []
  payload : Json := .obj []
  fromAgent : String := ""
  toAgent : String := ""
  messageType : MessageType := .command
  headers : Json := .obj []
  tenantId : Option String := some "default"
  securityContext : Json := .obj []
  priority : Priority := .medium
  autonomyTier : Option AutonomyTier := some .bounded
  constitutionalHash : String := constitutionalHash
  metadata : Json := .obj []
  sessionId : Option String := none
  pqcSignature : Option String := none
  requestedTool : Option String := none
  expiresAt : Option ℕ := none
  impactScore : Option ℚ := none
  idempotencyKey : Option String := none

structure ValidationResult where
  isValid : Bool := true
  errors : List String := []
  metadata : Json := .obj []
  decision : String := "ALLOW"
  status : MessageStatus := .validated

/-- A result to which errors were added, if there are any. -/
def ValidationResult.addErrors (result : ValidationResult) (errors : List String) :
    ValidationResult :=
  if errors.isEmpty then result
  else { result with errors := result.errors ++ errors, isValid := false }

/-- `value.get(key)`, of a dictionary; nothing, of anything else. -/
def getItem (value : Json) (key : String) : Json :=
  match value with
  | .obj members => (Json.lookup key members).getD .null
  | _ => .null

/-- `value[key] = item`, of a dictionary; anything else raises. -/
def setItem (value : Json) (key : String) (item : Json) : Option Json :=
  match value with
  | .obj members => some (.obj (Json.assign key item members))
  | _ => none

end EnhancedAgentBus.Bus
