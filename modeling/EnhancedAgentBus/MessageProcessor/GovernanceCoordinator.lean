import EnhancedAgentBus.MessageProcessor.GovernanceCore

/-!
# Shadow and enforced governance

The gate that asks for an independent validator, and `GovernanceCoordinator.run` behind it, which
asks the legacy core and, in the modes `shadow` and `swarm_enforced`, the swarm core as well.

In the enforced mode the swarm core decides: what is let pass it has allowed, with its peers where
the message needs them.  In the shadow mode it only observes, as long as it raises nothing that the
coordinator does not expect of it.
-/

namespace EnhancedAgentBus.MessageProcessor

open Bus

/-! ## The gate -/

/-- `MessageType.CONSTITUTIONAL_VALIDATION` and `GOVERNANCE_REQUEST` need an independent validation
whatever their impact is. -/
def requiresIndependentValidation (threshold : ℚ) (msg : AgentMessage) : Bool :=
  threshold ≤ msg.impactScore.getD 0 ∨
    msg.messageType = .constitutionalValidation ∨ msg.messageType = .governanceRequest

def strippedText : Json → Option String
  | .str text => some (Constitutional.ProposalEngine.strip text) |>.filter (· ≠ "")
  | _ => none

inductive GateRefusal where
  /-- "Independent validator metadata is required for this message" -/
  | validatorMissing
  /-- "Independent validator must not be the originating agent" -/
  | selfValidation
  /-- "validation_stage must be 'independent' when validator evidence is present" -/
  | invalidStage
  deriving DecidableEq

def enforceIndependentValidatorGate (requireIndependentValidator : Bool) (threshold : ℚ)
    (msg : AgentMessage) : Option GateRefusal :=
  if requireIndependentValidator = false then none
  else if requiresIndependentValidation threshold msg = false then none
  else
    let validatedByAgent := getItem msg.metadata "validated_by_agent"
    let validatorId :=
      if validatedByAgent.truthy then validatedByAgent
      else getItem msg.metadata "independent_validator_id"
    let validationStage := getItem msg.metadata "validation_stage"
    match validatorId with
    | .str text =>
      if strippedText (.str text) = none then some .validatorMissing
      else if text = msg.fromAgent then some .selfValidation
      else match validationStage with
        | .null => none
        | .str "independent" => none
        | _ => some .invalidStage
    | _ => some .validatorMissing

/-! ## The coordinator -/

inductive GovernanceCoreMode where
  | legacy
  | shadow
  | swarmEnforced
  deriving DecidableEq

/-- `failedCount` is the processor's, which `increment_failed_count` counts. -/
structure GovernanceCoordinator where
  governanceCoreMode : GovernanceCoreMode
  constitutionalHash : String
  requireIndependentValidator : Bool
  independentValidatorThreshold : ℚ
  shadowMatches : ℕ := 0
  shadowMismatches : ℕ := 0
  shadowErrors : ℕ := 0
  failedCount : ℕ := 0

inductive ShadowMetadata where
  | error (legacyAllowed : Bool) (text : String)
  /-- the status is "match" if both have allowed the same, and else "mismatch" -/
  | compared (legacyAllowed swarmAllowed : Bool) (legacyReceipt swarmReceipt : GovernanceReceipt)

/-- The part of a `MessageProcessingContext` that governance reads and writes. -/
structure GovernanceContext where
  message : AgentMessage
  governanceInput : Option GovernanceInput := none
  governanceDecision : Option GovernanceDecision := none
  governanceReceipt : Option GovernanceReceipt := none
  governanceShadowMetadata : Option ShadowMetadata := none

/-- The refusal that `build_governance_failure_result` builds. -/
structure GovernanceFailure where
  errors : List String
  rejectionReason : String
  rejectionStage : String := "governance"
  governanceCoreMode : GovernanceCoreMode
  governanceDecision : GovernanceDecision
  governanceReceipt : GovernanceReceipt
  messageId : String
  producerId : String
  actionType : String
  constitutionalHash : String
  governanceShadow : Option ShadowMetadata := none

structure GovernanceEnvironment where
  /-- the digest of the content's encoding, if it can be encoded -/
  contentHash : String → Except Raised String
  now : ℚ

structure GovernanceRun where
  result : Except Raised (Option GovernanceFailure)
  coordinator : GovernanceCoordinator
  context : GovernanceContext

def Raised.expected (raised : Raised) : Bool :=
  raised.kind ∈ [ExceptionClass.attributeError, .keyError, .osError, .runtimeError, .typeError,
    .valueError]

def combine (local_ : GovernanceDecision) (peerValidation : Option PeerValidationDecision)
    (trustScore : Option ℚ) : GovernanceDecision :=
  { allowed := local_.allowed && (peerValidation.map PeerValidationDecision.approved).getD true
    blockingStage := (local_.blockingStage.filter (· ≠ "")).orElse fun _ =>
      peerValidation.bind fun peer => if peer.approved then none else some "peer_validation"
    reasons :=
      match peerValidation with
      | none => local_.reasons
      | some peer =>
        if peer.approved then local_.reasons
        else (local_.reasons ++ [peer.reason]).filter (· ≠ "")
    ruleHits := local_.ruleHits
    peerVotes := peerValidation
    trustScore := trustScore
    constitutionalHash := local_.constitutionalHash
    swarmConstitutionalHash := local_.swarmConstitutionalHash
    engineMode := local_.engineMode }

namespace GovernanceCore

variable (core : GovernanceCore) (input : GovernanceInput)

/-- What `run` asks the legacy core. -/
def legacyDecide : Except Raised (GovernanceDecision × GovernanceReceipt) := do
  let decision ← core.validateLocal input
  let receipt ← core.buildReceipt input decision
  return (decision, receipt)

/-- What `run` asks the swarm core. -/
def swarmDecide : Except Raised (GovernanceDecision × GovernanceReceipt) := do
  let local_ ← core.validateLocal input
  let peerValidation ← if local_.allowed then core.validatePeer input else pure none
  let trustScore ← if local_.allowed then core.scoreGovernance input peerValidation else pure none
  let decision := combine local_ peerValidation trustScore
  let receipt ← core.buildReceipt input decision
  return (decision, receipt)

end GovernanceCore

namespace GovernanceCoordinator

variable (C : GovernanceCoordinator)

def buildGovernanceInput [PrintTable] (env : GovernanceEnvironment) (msg : AgentMessage) :
    Except Raised GovernanceInput :=
  let producerRole :=
    match getItem msg.metadata "maci_role" with
    | .str text =>
      if strippedText (.str text) = none then
        (match getItem msg.securityContext "maci_role" with
          | .str role => some role
          | _ => none)
      else some text
    | _ =>
      match getItem msg.securityContext "maci_role" with
      | .str role => some role
      | _ => none
  let validatorIds := ["validated_by_agent", "independent_validator_id"].filterMap fun key =>
    strippedText (getItem msg.metadata key)
  let content := String.ofList msg.content.pyStr
  (env.contentHash content).map fun contentHash =>
    { tenantId := msg.tenantId, traceId := msg.messageId, messageId := msg.messageId
      producerId := if msg.fromAgent = "" then "unknown-producer" else msg.fromAgent
      producerRole := producerRole, actionType := msg.messageType.value, content := content
      contentHash := contentHash, constitutionalHash := msg.constitutionalHash
      autonomyTier := msg.autonomyTier.map AutonomyTier.value
      requiresIndependentValidator := C.requireIndependentValidator &&
        requiresIndependentValidation C.independentValidatorThreshold msg
      securityScanResult := some "passed", impactScore := msg.impactScore
      validatorIds := validatorIds.eraseDups }

def buildGovernanceFailureResult (input : GovernanceInput) (decision : GovernanceDecision)
    (receipt : GovernanceReceipt) (shadowMetadata : Option ShadowMetadata) : GovernanceFailure :=
  { errors :=
      if decision.reasons = [] then ["Governance validation rejected the message"]
      else decision.reasons
    rejectionReason :=
      (decision.blockingStage.filter (· ≠ "")).getD "governance_core_rejected"
    governanceCoreMode := C.governanceCoreMode, governanceDecision := decision
    governanceReceipt := receipt, messageId := input.messageId, producerId := input.producerId
    actionType := input.actionType, constitutionalHash := input.constitutionalHash
    governanceShadow := shadowMetadata }

def finish (context : GovernanceContext) (input : GovernanceInput) (decision : GovernanceDecision)
    (receipt : GovernanceReceipt) (shadowMetadata : Option ShadowMetadata) : GovernanceRun :=
  -- `store_governance_artifacts`
  let context := { context with
    governanceDecision := some decision
    governanceReceipt := some receipt
    governanceShadowMetadata := shadowMetadata }
  if decision.allowed then ⟨.ok none, C, context⟩
  else
    ⟨.ok (some (C.buildGovernanceFailureResult input decision receipt shadowMetadata)),
      { C with failedCount := C.failedCount + 1 }, context⟩

/-- The decision and the receipt for an exception of the swarm core, in the enforced mode. -/
def swarmError (env : GovernanceEnvironment) (input : GovernanceInput) (raised : Raised) :
    GovernanceFailure :=
  C.buildGovernanceFailureResult input
    { allowed := false, blockingStage := some "swarm_error", reasons := [raised.text]
      constitutionalHash := C.constitutionalHash, engineMode := "swarm" }
    { receiptId := "swarm:" ++ input.messageId, engineMode := "swarm", messageId := input.messageId
      producerId := input.producerId, contentHash := input.contentHash
      constitutionalHash := input.constitutionalHash, allowed := false
      blockingStage := some "swarm_error", reasons := [raised.text], createdAt := env.now }
    none

/-- The swarm core has decided: its decision is compared with the legacy core's, and selected in the
enforced mode. -/
def compare (context : GovernanceContext) (input : GovernanceInput)
    (legacy swarm : GovernanceDecision × GovernanceReceipt) : GovernanceRun :=
  let C' :=
    if legacy.1.allowed = swarm.1.allowed then { C with shadowMatches := C.shadowMatches + 1 }
    else { C with shadowMismatches := C.shadowMismatches + 1 }
  let shadowMetadata :=
    ShadowMetadata.compared legacy.1.allowed swarm.1.allowed legacy.2 swarm.2
  let selected := if C.governanceCoreMode = .swarmEnforced then swarm else legacy
  C'.finish context input selected.1 selected.2 (some shadowMetadata)

def runSwarm (env : GovernanceEnvironment) (swarm : GovernanceCore) (context : GovernanceContext)
    (input : GovernanceInput) (legacy : GovernanceDecision × GovernanceReceipt) : GovernanceRun :=
  match swarm.swarmDecide input with
  | .ok decided => C.compare context input legacy decided
  | .error raised =>
    if raised.expected = false then ⟨.error raised, C, context⟩
    else if C.governanceCoreMode = .swarmEnforced then
      ⟨.ok (some (C.swarmError env input raised)), { C with failedCount := C.failedCount + 1 },
        context⟩
    else
      { C with shadowErrors := C.shadowErrors + 1 }.finish context input legacy.1 legacy.2
        (some (.error legacy.1.allowed raised.text))

def runDecided (env : GovernanceEnvironment) (swarm : GovernanceCore) (context : GovernanceContext)
    (input : GovernanceInput) (legacy : GovernanceDecision × GovernanceReceipt) : GovernanceRun :=
  match C.governanceCoreMode with
  | .legacy => C.finish context input legacy.1 legacy.2 none
  | .swarmEnforced => C.runSwarm env swarm context input legacy
  | .shadow =>
    -- `is_swarm_available`, which nothing guards
    match swarm.isAvailable with
    | .error raised => ⟨.error raised, C, context⟩
    | .ok true => C.runSwarm env swarm context input legacy
    | .ok false =>
      { C with shadowErrors := C.shadowErrors + 1 }.finish context input legacy.1 legacy.2
        (some (.error legacy.1.allowed
          ((swarm.constitutionError.filter (· ≠ "")).getD "swarm unavailable")))

def run [PrintTable] (env : GovernanceEnvironment) (legacy swarm : GovernanceCore)
    (context : GovernanceContext) : GovernanceRun :=
  match C.buildGovernanceInput env context.message with
  | .error raised => ⟨.error raised, C, context⟩
  | .ok input =>
    let context := { context with governanceInput := some input }
    match legacy.legacyDecide input with
    | .error raised => ⟨.error raised, C, context⟩
    | .ok decided => C.runDecided env swarm context input decided

end GovernanceCoordinator

end EnhancedAgentBus.MessageProcessor
