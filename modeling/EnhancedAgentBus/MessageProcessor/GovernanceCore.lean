import EnhancedAgentBus.Bus.Models
import Mathlib.Data.Rat.Floor

/-!
# Governance cores

What a governance core is asked about a message and what it answers, and the two cores there are:
the legacy core checks the constitutional hash, the swarm core asks an agent's constitution and then,
where the message needs it, a mesh of peers.

The constitution, the mesh and the provider of attestations are of other packages.  What they answer
is a parameter, and so is what they raise.  Scores are rational numbers: the code's floats, without
their rounding.
-/

namespace EnhancedAgentBus.MessageProcessor

open Bus

/-! ## The records -/

inductive ExceptionClass where
  | attributeError
  | keyError
  | osError
  | runtimeError
  | typeError
  | valueError
  | constitutionalViolationError
  /-- any other that is derived from `Exception` -/
  | other (name : String)
  deriving DecidableEq

structure Raised where
  kind : ExceptionClass
  text : String

structure GovernanceInput where
  tenantId : Option String
  traceId : String
  messageId : String
  producerId : String
  producerRole : Option String
  actionType : String
  content : String
  contentHash : String
  constitutionalHash : String
  autonomyTier : Option String
  requiresIndependentValidator : Bool
  securityScanResult : Option String
  impactScore : Option ℚ := none
  validatorIds : List String := []

/-! ## Danger signals -/

inductive AdaptiveQuorumMode where
  | majority
  | superMajority
  | unanimous
  deriving DecidableEq

inductive DangerSeverity where
  | low
  | medium
  | high
  | critical
  deriving DecidableEq

structure DangerSignal where
  signalId : String
  severity : DangerSeverity
  score : ℚ
  reason : String

structure AdaptiveQuorumDecision where
  mode : AdaptiveQuorumMode
  riskScore : ℚ
  requiredVotes : ℕ
  totalValidators : ℕ
  signals : List DangerSignal := []

namespace DangerSignalAnalyzer

def clinicalKeywords : List String :=
  ["patient", "phi", "mrn", "diagnosis", "insurance", "clinical", "fhir", "dob"]

def destructiveKeywords : List String :=
  ["override", "disable", "bypass", "delete", "revoke", "transfer", "payment"]

/-- `any(keyword in normalized for keyword in keywords)` -/
def mentions (keywords : List String) (normalized : String) : Bool :=
  keywords.any fun keyword => keyword.toList <:+: normalized.toList

/-- The signals of an input, with `str.lower`. -/
def signals (lower : String → String) (input : GovernanceInput) : List DangerSignal :=
  (match input.impactScore with
    | some score =>
      if 85 / 100 ≤ score then
        [⟨"high_impact_score", if score < 95 / 100 then .high else .critical, min 1 score,
          "Impact score indicates elevated governance risk."⟩]
      else []
    | none => []) ++
  (if mentions clinicalKeywords (lower input.content) then
    [⟨"clinical_data_path", .high, 8 / 10, "Clinical/PHI-adjacent content detected."⟩] else []) ++
  (if mentions destructiveKeywords (lower input.content) then
    [⟨"destructive_or_privileged_action", .critical, 95 / 100,
      "Destructive or privileged action keywords detected."⟩] else []) ++
  (if input.actionType = "governance_request" ∨ input.actionType = "constitutional_validation" then
    [⟨"governance_control_plane", .medium, 65 / 100,
      "Control-plane governance action requires stronger review."⟩] else []) ++
  (if input.requiresIndependentValidator then
    [⟨"independent_validator_required", .medium, 7 / 10,
      "Independent validator gate already classified this action as high-impact."⟩] else []) ++
  (if (input.securityScanResult.filter (· ≠ "")).any fun found => lower found ≠ "passed" then
    [⟨"security_scan_not_clean", .critical, 1, "Security scan indicates unresolved risk."⟩] else [])

def analyze (lower : String → String) (input : GovernanceInput) (validatorCount : ℕ) :
    AdaptiveQuorumDecision :=
  let found := signals lower input
  let riskScore :=
    match found.map DangerSignal.score with
    | [] => max (input.impactScore.getD 0) 0
    | score :: scores => scores.foldl max score
  if validatorCount ≤ 1 then ⟨.unanimous, riskScore, validatorCount, validatorCount, found⟩
  else if 85 / 100 ≤ riskScore then ⟨.unanimous, riskScore, validatorCount, validatorCount, found⟩
  else if 55 / 100 ≤ riskScore then
    ⟨.superMajority, riskScore, ⌈(validatorCount : ℚ) * (2 / 3)⌉.toNat, validatorCount, found⟩
  else ⟨.majority, riskScore, validatorCount / 2 + 1, validatorCount, found⟩

end DangerSignalAnalyzer

/-! ## What a core answers -/

structure PeerValidationDecision where
  approved : Bool
  reason : String := ""
  votesFor : ℤ := 0
  votesAgainst : ℤ := 0
  quorumMet : Bool := false
  assignmentId : Option String := none
  proofRoot : Option String := none
  proofConstitutionalHash : Option String := none
  manifoldSummary : Option Json := none
  trustScore : Option ℚ := none
  adaptiveQuorum : Option AdaptiveQuorumDecision := none

structure GovernanceDecision where
  allowed : Bool
  blockingStage : Option String
  reasons : List String := []
  ruleHits : List String := []
  peerVotes : Option PeerValidationDecision := none
  trustScore : Option ℚ := none
  constitutionalHash : String := ""
  swarmConstitutionalHash : Option String := none
  engineMode : String := "legacy"
  receiptRef : Option String := none

structure GovernanceReceipt where
  receiptId : String
  engineMode : String
  messageId : String
  producerId : String
  contentHash : String
  constitutionalHash : String
  allowed : Bool
  blockingStage : Option String
  reasons : List String := []
  ruleHits : List String := []
  peerValidation : Option PeerValidationDecision := none
  trustScore : Option ℚ := none
  swarmConstitutionalHash : Option String := none
  createdAt : ℚ
  attestation : Option Json := none

/-- `GovernanceCore`: what each method returns or raises, in one run over a message.  A core without
`is_available` is not available. -/
structure GovernanceCore where
  isAvailable : Except Raised Bool
  /-- `_constitution_error` -/
  constitutionError : Option String := none
  validateLocal : GovernanceInput → Except Raised GovernanceDecision
  validatePeer : GovernanceInput → Except Raised (Option PeerValidationDecision)
  scoreGovernance : GovernanceInput → Option PeerValidationDecision → Except Raised (Option ℚ)
  buildReceipt : GovernanceInput → GovernanceDecision → Except Raised GovernanceReceipt

/-- `validate_constitutional_hash`: the errors that it finds. -/
def validateConstitutionalHash (hashValue : String) : List String :=
  if hashValue = constitutionalHash then []
  else
    let safeProvided :=
      if 8 < hashValue.length then String.ofList (hashValue.toList.take 8) ++ "..." else hashValue
    ["Constitutional hash mismatch (provided: " ++ safeProvided ++ ")"]

def receiptOf (engineMode : String) (now : ℚ)
    (attestationProvider : Option (GovernanceReceipt → Except Raised Json))
    (input : GovernanceInput) (decision : GovernanceDecision)
    (swarmConstitutionalHash : Option String) : Except Raised GovernanceReceipt :=
  let receipt : GovernanceReceipt :=
    { receiptId := engineMode ++ ":" ++ input.messageId, engineMode := engineMode
      messageId := input.messageId, producerId := input.producerId
      contentHash := input.contentHash, constitutionalHash := input.constitutionalHash
      allowed := decision.allowed, blockingStage := decision.blockingStage
      reasons := decision.reasons, ruleHits := decision.ruleHits
      peerValidation := decision.peerVotes, trustScore := decision.trustScore
      swarmConstitutionalHash := swarmConstitutionalHash, createdAt := now }
  match attestationProvider with
  | none => .ok receipt
  | some attest => (attest receipt).map fun attestation =>
    { receipt with attestation := some attestation }

/-! ## The legacy core -/

structure LegacyGovernanceCore where
  expectedConstitutionalHash : String
  attestationProvider : Option (GovernanceReceipt → Except Raised Json) := none

namespace LegacyGovernanceCore

def validateLocal (legacy : LegacyGovernanceCore) (input : GovernanceInput) :
    GovernanceDecision :=
  match validateConstitutionalHash input.constitutionalHash with
  | [] =>
    { allowed := true, blockingStage := none
      constitutionalHash := legacy.expectedConstitutionalHash }
  | errors =>
    { allowed := false, blockingStage := some "constitutional_hash", reasons := errors
      constitutionalHash := legacy.expectedConstitutionalHash }

def core (legacy : LegacyGovernanceCore) (now : ℚ) : GovernanceCore where
  isAvailable := .ok true
  validateLocal input := .ok (legacy.validateLocal input)
  validatePeer _ := .ok none
  scoreGovernance _ _ := .ok none
  buildReceipt input decision :=
    receiptOf "legacy" now legacy.attestationProvider input decision none

end LegacyGovernanceCore

/-! ## The swarm core -/

/-- What `AgentDNA.validate` returns. -/
structure LocalResult where
  valid : Bool
  violations : List String

/-- What `full_validation` returns, and what the mesh says after it. -/
structure MeshResult where
  accepted : Bool
  quorumMet : Bool
  votesFor : ℤ
  votesAgainst : ℤ
  assignmentId : Option String
  /-- the root and the constitutional hash of the proof -/
  proof : Option (String × String)
  manifoldSummary : Option Json
  /-- `get_reputation` -/
  reputation : String → ℚ

/-- `ConstitutionalMesh` -/
structure Mesh where
  /-- The mesh is made, with its size and its quorum, and its signers are registered. -/
  register : ℕ → ℕ → GovernanceInput → List String → Except Raised Unit
  fullValidation : ℕ → ℕ → GovernanceInput → List String → Except Raised MeshResult

structure SwarmGovernanceCore where
  expectedConstitutionalHash : String
  enablePeerValidation : Bool := true
  enableDangerSignals : Bool := false
  enableAdaptiveQuorum : Bool := false
  attestationProvider : Option (GovernanceReceipt → Except Raised Json) := none
  /-- `SWARM_AVAILABLE` -/
  swarmAvailable : Bool
  /-- `SWARM_IMPORT_ERROR` -/
  swarmImportError : Option String := none
  /-- the hash of the constitution -/
  constitution : Option String
  constitutionError : Option String := none
  /-- `AgentDNA.validate` -/
  dna : String → Except Raised LocalResult
  mesh : Mesh
  /-- `str.lower` -/
  lower : String → String

def dedupeStrings (values : List String) : List String :=
  (values.filter (· ≠ "")).eraseDups

namespace SwarmGovernanceCore

variable (swarm : SwarmGovernanceCore)

def isAvailable : Bool := swarm.swarmAvailable && swarm.constitution.isSome

def importError : String :=
  ((swarm.constitutionError.filter (· ≠ "")).orElse fun _ => swarm.swarmImportError).getD
    "swarm unavailable"

def extractRuleHits (violations : List String) : List String :=
  let ruleIds := violations.map fun violation =>
    String.ofList (violation.toList.takeWhile (· ≠ ':'))
  (ruleIds.map Constitutional.ProposalEngine.strip).filter (· ≠ "")

/-- A refusal of `validate_local`. -/
def blocked (blockingStage : String) (reasons ruleHits : List String) : GovernanceDecision :=
  { allowed := false, blockingStage := some blockingStage, reasons := reasons, ruleHits := ruleHits
    constitutionalHash := swarm.expectedConstitutionalHash, engineMode := "swarm"
    swarmConstitutionalHash := swarm.constitution }

def validateLocal (input : GovernanceInput) : Except Raised GovernanceDecision :=
  match validateConstitutionalHash input.constitutionalHash with
  | error :: errors => .ok (swarm.blocked "constitutional_hash" (error :: errors) [])
  | [] =>
    if swarm.isAvailable = false then
      .ok (swarm.blocked "swarm_unavailable" [swarm.importError] [])
    else match swarm.dna input.content with
      | .error raised =>
        if raised.kind = .constitutionalViolationError then
          .ok (swarm.blocked "constitutional_rules" [raised.text] [])
        else .error raised
      | .ok localResult =>
        if localResult.valid = false then
          .ok (swarm.blocked "constitutional_rules" localResult.violations
            (extractRuleHits localResult.violations))
        else
          .ok { allowed := true, blockingStage := none
                constitutionalHash := swarm.expectedConstitutionalHash, engineMode := "swarm"
                swarmConstitutionalHash := swarm.constitution }

def resolveRequiredQuorum (input : GovernanceInput) (validatorCount : ℕ) :
    AdaptiveQuorumDecision :=
  let decision := DangerSignalAnalyzer.analyze swarm.lower input validatorCount
  if swarm.enableAdaptiveQuorum then decision
  else
    { decision with
      requiredVotes := validatorCount, totalValidators := validatorCount
      signals := if swarm.enableDangerSignals then decision.signals else [] }

/-- What `validate_peer` makes of the result of a validation. -/
def peerDecision (validatorIds : List String) (quorum : AdaptiveQuorumDecision)
    (result : MeshResult) : PeerValidationDecision :=
  { approved := result.accepted && result.quorumMet
    reason :=
      if result.quorumMet = false then "peer quorum not met"
      else if result.accepted = false then "peer validation rejected content"
      else ""
    votesFor := result.votesFor, votesAgainst := result.votesAgainst, quorumMet := result.quorumMet
    assignmentId := result.assignmentId, proofRoot := result.proof.map Prod.fst
    proofConstitutionalHash := result.proof.map Prod.snd
    manifoldSummary := result.manifoldSummary
    trustScore := some ((validatorIds.map result.reputation).sum / validatorIds.length)
    adaptiveQuorum :=
      if swarm.enableDangerSignals || swarm.enableAdaptiveQuorum then some quorum else none }

def validatePeer (input : GovernanceInput) : Except Raised (Option PeerValidationDecision) :=
  let validatorIds := dedupeStrings input.validatorIds
  if input.requiresIndependentValidator = false then .ok none
  else if swarm.enablePeerValidation = false ∨ validatorIds = [] then .ok none
  else if swarm.isAvailable = false then
    .ok (some { approved := false, reason := swarm.importError })
  else
    let quorum := swarm.resolveRequiredQuorum input validatorIds.length
    match swarm.mesh.register validatorIds.length quorum.requiredVotes input validatorIds with
    | .error raised => .error raised
    | .ok () =>
      match swarm.mesh.fullValidation validatorIds.length quorum.requiredVotes input validatorIds
        with
      | .error raised =>
        if raised.kind = .constitutionalViolationError then
          .ok (some { approved := false, reason := raised.text })
        else .error raised
      | .ok result => .ok (some (swarm.peerDecision validatorIds quorum result))

def core (now : ℚ) : GovernanceCore where
  isAvailable := .ok swarm.isAvailable
  constitutionError := swarm.constitutionError
  validateLocal := swarm.validateLocal
  validatePeer := swarm.validatePeer
  scoreGovernance _ peerResult := .ok (peerResult.bind PeerValidationDecision.trustScore)
  buildReceipt input decision :=
    receiptOf "swarm" now swarm.attestationProvider input decision decision.swarmConstitutionalHash

end SwarmGovernanceCore

/-! ## Peer validation -/

/-- The core has the peers validate every input that requires an independent validator and names
one. -/
def GovernanceCore.PeerValidationEnabled (core : GovernanceCore) : Prop :=
  ∀ input, input.requiresIndependentValidator = true → dedupeStrings input.validatorIds ≠ [] →
    core.validatePeer input ≠ .ok none

theorem SwarmGovernanceCore.peerValidationEnabled {swarm : SwarmGovernanceCore}
    (h : swarm.enablePeerValidation = true) (now : ℚ) :
    (swarm.core now).PeerValidationEnabled := by
  intro input hrequires hids
  unfold core validatePeer
  dsimp only
  rw [if_neg (by rw [hrequires]; nofun), if_neg (by rw [h]; simpa using hids)]
  split
  · nofun
  · split
    · nofun
    · split
      · split
        · nofun
        · nofun
      · nofun

end EnhancedAgentBus.MessageProcessor
