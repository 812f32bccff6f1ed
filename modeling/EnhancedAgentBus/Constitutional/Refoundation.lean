import EnhancedAgentBus.Constitutional.InvariantGuard

/-!
# Refoundations

`RefoundationEngine`: a proposal to change HARD or META invariants collects a decision of each of
the three roles and a sandbox result, and its activation begins a new constitutional epoch.

A function takes the engine to what it returns or raises and to the engine as it leaves it, so that
an exception after a write would show.  The identifiers that `uuid4` draws are arguments.  The
timestamps, which nothing reads, and the metrics of a sandbox run are left out, and so are the log
calls.
-/

namespace EnhancedAgentBus.Constitutional

/-! ## Data -/

inductive RefoundationStatus where
  | drafted
  | submitted
  | underReview
  | sandboxTesting
  | approved
  | activated
  | rejected
  | rolledBack
  deriving DecidableEq

def RefoundationStatus.text : RefoundationStatus → String
  | drafted => "drafted"
  | submitted => "submitted"
  | underReview => "under_review"
  | sandboxTesting => "sandbox_testing"
  | approved => "approved"
  | activated => "activated"
  | rejected => "rejected"
  | rolledBack => "rolled_back"

inductive ConstitutionalRole where
  | legislative
  | executive
  | judicial
  deriving DecidableEq

/-- `_VALID_ROLES`, by their names. -/
def ConstitutionalRole.ofName : String → Option ConstitutionalRole
  | "legislative" => some legislative
  | "executive" => some executive
  | "judicial" => some judicial
  | _ => none

structure RefoundationApproval where
  role : String
  approverId : String
  approved : Bool
  reasoning : String
  deriving DecidableEq

structure SandboxExecutionResult where
  sandboxId : String
  passed : Bool
  degradationDetected : Bool := false
  deriving DecidableEq

/-- `results.passed and not results.degradation_detected` -/
def SandboxExecutionResult.clean (results : SandboxExecutionResult) : Bool :=
  results.passed && !results.degradationDetected

structure ConstitutionalEpoch where
  epochId : String
  epochNumber : ℕ
  invariantManifest : InvariantManifest
  predecessorEpochId : Option String := none
  createdBy : String
  reason : String

structure RefoundationProposal where
  proposalId : String
  status : RefoundationStatus := .drafted
  currentEpochId : String
  proposedInvariantChanges : Dict String String
  proposedManifest : InvariantManifest
  justification : String
  riskAssessment : String
  rollbackPlan : String
  proposerId : String
  proposerRole : String := "human_operator"
  legislativeApproval : Option RefoundationApproval := none
  executiveApproval : Option RefoundationApproval := none
  judicialApproval : Option RefoundationApproval := none
  sandboxResults : Option SandboxExecutionResult := none
  newEpochId : Option String := none

structure RefoundationError where
  message : String
  deriving DecidableEq

namespace RefoundationProposal

/-- `getattr(proposal, f"{role}_approval")` -/
def approvalOf (p : RefoundationProposal) : ConstitutionalRole → Option RefoundationApproval
  | .legislative => p.legislativeApproval
  | .executive => p.executiveApproval
  | .judicial => p.judicialApproval

def setApproval (p : RefoundationProposal) (role : ConstitutionalRole)
    (approval : RefoundationApproval) : RefoundationProposal :=
  match role with
  | .legislative => { p with legislativeApproval := some approval }
  | .executive => { p with executiveApproval := some approval }
  | .judicial => { p with judicialApproval := some approval }

def allApproved (p : RefoundationProposal) : Bool :=
  (p.legislativeApproval.any (·.approved)) && (p.executiveApproval.any (·.approved)) &&
    (p.judicialApproval.any (·.approved))

def withDecision (p : RefoundationProposal) (role : ConstitutionalRole)
    (approval : RefoundationApproval) : RefoundationProposal :=
  let updated := p.setApproval role approval
  { updated with
    status :=
      if ¬approval.approved then .rejected
      else if ¬updated.allApproved then .underReview
      else if updated.sandboxResults.any (·.passed) then .approved
      else .sandboxTesting }

def withSandbox (p : RefoundationProposal) (results : SandboxExecutionResult) :
    RefoundationProposal :=
  { p with
    sandboxResults := some results
    status :=
      if p.allApproved ∧ results.clean then .approved
      else if ¬results.clean then .rejected
      else p.status }

end RefoundationProposal

/-! ## The engine -/

structure RefoundationEngine where
  proposals : Dict String RefoundationProposal := Dict.empty
  epochs : List ConstitutionalEpoch := []
  currentEpoch : Option ConstitutionalEpoch := none

namespace RefoundationEngine

/-- What a method returns or raises, and the engine as it leaves it. -/
abbrev Result (α : Type) := Except RefoundationError α × RefoundationEngine

/-- `raise RefoundationError(message)` -/
def refuse {α : Type} (message : String) (s : RefoundationEngine) : Result α :=
  (.error ⟨message⟩, s)

/-- `_get_proposal`, and what is done with the proposal. -/
def withProposal {α : Type} (proposalId : String)
    (k : RefoundationProposal → RefoundationEngine → Result α) (s : RefoundationEngine) :
    Result α :=
  match s.proposals.get proposalId with
  | none => s.refuse s!"Refoundation proposal '{proposalId}' not found"
  | some proposal => k proposal s

/-- `self._proposals[proposal_id] = updated`, and return it. -/
def store (proposalId : String) (updated : RefoundationProposal) (s : RefoundationEngine) :
    Result RefoundationProposal :=
  (.ok updated, { s with proposals := s.proposals.set proposalId updated })

def createProposal (proposalId proposerId proposerRole currentEpochId : String)
    (proposedInvariantChanges : Dict String String) (proposedManifest : InvariantManifest)
    (justification riskAssessment rollbackPlan : String) (s : RefoundationEngine) :
    Result RefoundationProposal :=
  if proposerRole ≠ "human_operator" then
    s.refuse "Only human operators can propose refoundations"
  else if justification.length < 50 then
    s.refuse "Refoundation justification must be at least 50 characters"
  else
    s.store proposalId
      { proposalId, proposerId, proposerRole, currentEpochId, proposedInvariantChanges
        proposedManifest, justification, riskAssessment, rollbackPlan }

def submitForReview (proposalId : String) : RefoundationEngine → Result RefoundationProposal :=
  withProposal proposalId fun proposal s =>
    if proposal.status ≠ .drafted then
      let current := proposal.status.text
      s.refuse s!"Can only submit proposals in DRAFTED status (current: {current})"
    else s.store proposalId { proposal with status := .submitted }

def addApproval (proposalId role approverId : String) (approved : Bool) (reasoning : String) :
    RefoundationEngine → Result RefoundationProposal :=
  withProposal proposalId fun proposal s =>
    if proposal.status ≠ .submitted ∧ proposal.status ≠ .underReview then
      let current := proposal.status.text
      s.refuse ("Can only add approvals when status is SUBMITTED or UNDER_REVIEW " ++
        s!"(current: {current})")
    else
      match ConstitutionalRole.ofName role with
      | none =>
        s.refuse s!"Invalid role '{role}'. Must be one of: executive, judicial, legislative"
      | some r =>
        if approverId = proposal.proposerId then
          s.refuse ("MACI separation: proposer cannot approve their own refoundation " ++
            "proposal")
        else if (proposal.approvalOf r).isSome then
          s.refuse s!"Role '{role}' has already provided approval for this proposal"
        else
          s.store proposalId (proposal.withDecision r { role, approverId, approved, reasoning })

def recordSandboxResults (proposalId : String) (results : SandboxExecutionResult) :
    RefoundationEngine → Result RefoundationProposal :=
  withProposal proposalId fun proposal s =>
    if proposal.status ≠ .underReview ∧ proposal.status ≠ .sandboxTesting then
      let current := proposal.status.text
      s.refuse ("Can only record sandbox results when status is UNDER_REVIEW or " ++
        s!"SANDBOX_TESTING (current: {current})")
    else s.store proposalId (proposal.withSandbox results)

def nextEpoch (s : RefoundationEngine) (epochId : String) (proposal : RefoundationProposal) :
    ConstitutionalEpoch where
  epochId
  epochNumber := (s.currentEpoch.map (·.epochNumber + 1)).getD 1
  invariantManifest := proposal.proposedManifest
  predecessorEpochId := s.currentEpoch.map (·.epochId)
  createdBy := proposal.proposerId
  reason := proposal.justification

def activate (proposalId epochId : String) : RefoundationEngine → Result ConstitutionalEpoch :=
  withProposal proposalId fun proposal s =>
    if proposal.status ≠ .approved then
      let current := proposal.status.text
      s.refuse s!"Can only activate proposals in APPROVED status (current: {current})"
    else
      match proposal.legislativeApproval, proposal.executiveApproval, proposal.judicialApproval with
      | some legislative, some executive, some judicial =>
        if ¬(legislative.approved ∧ executive.approved ∧ judicial.approved) then
          s.refuse "All three MACI roles must approve (not reject) before activation"
        else
          match proposal.sandboxResults with
          | none => s.refuse "Sandbox execution results required before activation"
          | some results =>
            if ¬results.passed then
              s.refuse "Sandbox execution must pass before activation"
            else if results.degradationDetected then
              s.refuse "Cannot activate: sandbox detected governance degradation"
            else
              let newEpoch := s.nextEpoch epochId proposal
              (.ok newEpoch,
                { proposals := s.proposals.set proposalId
                    { proposal with status := .activated, newEpochId := some epochId }
                  epochs := s.epochs ++ [newEpoch]
                  currentEpoch := some newEpoch })
      | _, _, _ => s.refuse "All three MACI roles must approve before activation"

end RefoundationEngine

/-! ## The calls -/

/-- A call of the engine, with the identifier that it draws if it makes something. -/
inductive RefoundationCall where
  | createProposal (proposalId proposerId proposerRole currentEpochId : String)
      (proposedInvariantChanges : Dict String String) (proposedManifest : InvariantManifest)
      (justification riskAssessment rollbackPlan : String)
  | submitForReview (proposalId : String)
  | addApproval (proposalId role approverId : String) (approved : Bool) (reasoning : String)
  | recordSandboxResults (proposalId : String) (results : SandboxExecutionResult)
  | activate (proposalId epochId : String)

inductive RefoundationReply where
  | proposal (p : RefoundationProposal)
  | epoch (e : ConstitutionalEpoch)

open RefoundationEngine in
def RefoundationCall.perform (s : RefoundationEngine) :
    RefoundationCall → Result RefoundationReply
  | createProposal proposalId proposerId proposerRole currentEpochId changes manifest justification
      riskAssessment rollbackPlan =>
      let (r, s') := s.createProposal proposalId proposerId proposerRole currentEpochId changes
        manifest justification riskAssessment rollbackPlan
      (r.map .proposal, s')
  | submitForReview proposalId =>
    let (r, s') := s.submitForReview proposalId
    (r.map .proposal, s')
  | addApproval proposalId role approverId approved reasoning =>
    let (r, s') := s.addApproval proposalId role approverId approved reasoning
    (r.map .proposal, s')
  | recordSandboxResults proposalId results =>
    let (r, s') := s.recordSandboxResults proposalId results
    (r.map .proposal, s')
  | activate proposalId epochId =>
    let (r, s') := s.activate proposalId epochId
    (r.map .epoch, s')

end EnhancedAgentBus.Constitutional
