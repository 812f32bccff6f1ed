import EnhancedAgentBus.Constitutional.ProposalEngine
import EnhancedAgentBus.Lib.Machine
import Mathlib.Data.List.Dedup

/-!
# The multi-approver workflow

The requests of a `MultiApproverWorkflowEngine`, its approvers and policies, and the calls on them.
`submit_decision` validates and records in one go, gives up control while the channels are notified,
and then processes the result; so a submission is two steps, with the decisions that are between
them in `notifying`.  A cancellation, and what `_process_pending_requests` does to one request, are
one step each: after their notifications they touch the request no more.

Risks and hours are rational numbers: the code's floats, without their rounding.  Of a request the
fields that no decision depends on are left out, and so are the audit callback, which is told of a
decision, and the texts of the notifications.
-/

namespace EnhancedAgentBus.Approvals

abbrev Seconds := ℚ

/-! ## The records -/

inductive ApprovalStatus where
  | pending
  | approved
  | rejected
  | escalated
  | timeout
  | cancelled
  deriving DecidableEq

inductive ApproverRole where
  | securityTeam
  | complianceTeam
  | platformAdmin
  | tenantAdmin
  | policyOwner
  | engineeringLead
  | onCall
  deriving DecidableEq

inductive EscalationLevel where
  | level1
  | level2
  | level3
  | executive
  deriving DecidableEq

def EscalationLevel.value : EscalationLevel → ℕ
  | level1 => 1
  | level2 => 2
  | level3 => 3
  | executive => 4

structure Approver where
  id : String
  name : String
  roles : List ApproverRole
  deriving DecidableEq

structure ApprovalDecision where
  approverId : String
  approverName : String
  decision : ApprovalStatus
  reasoning : String
  deriving DecidableEq

structure ApprovalPolicy where
  name : String
  requiredRoles : List ApproverRole
  minApprovers : ℤ := 1
  requireAllRoles : Bool := false
  timeoutHours : ℚ := 24
  escalationHours : ℚ := 4
  allowSelfApproval : Bool := false
  requireReasoning : Bool := true
  autoApproveLowRisk : Bool := false
  riskThreshold : ℚ := 1 / 2
  deriving DecidableEq

structure ApprovalRequest where
  id : String
  requesterId : String
  riskScore : ℚ
  policy : ApprovalPolicy
  status : ApprovalStatus := .pending
  decisions : List ApprovalDecision := []
  escalationLevel : EscalationLevel := .level1
  createdAt : Seconds
  deadline : Seconds := createdAt + policy.timeoutHours * 3600
  cancellationReason : Option String := none
  deriving DecidableEq

/-! ## The requirements -/

inductive Verdict where
  /-- "All requirements met" -/
  | met
  | needApprovers (needed : ℤ) (got : ℕ)
  | selfApproval
  | missingRoles (roles : List ApproverRole)
  | noRole (roles : List ApproverRole)
  deriving DecidableEq

def approvedDecisions (decisions : List ApprovalDecision) : List ApprovalDecision :=
  decisions.filter fun d => d.decision = .approved

def approvedRoles (approvers : Dict String Approver) (decisions : List ApprovalDecision) :
    List ApproverRole :=
  decisions.flatMap fun d => ((approvers.get d.approverId).map Approver.roles).getD []

theorem mem_approvedRoles {approvers : Dict String Approver} {decisions : List ApprovalDecision}
    {role : ApproverRole} : role ∈ approvedRoles approvers decisions ↔
      ∃ d ∈ decisions, ∃ approver, approvers.get d.approverId = some approver ∧
        role ∈ approver.roles := by
  unfold approvedRoles
  rw [List.mem_flatMap]
  refine exists_congr fun d => and_congr_right fun _ => ?_
  rcases approvers.get d.approverId with _ | approver
  · simp
  · simp

/-- `ApprovalRequirementsValidator.validate_approvals`.  The roles that are missing are a set. -/
def validateApprovals (policy : ApprovalPolicy) (decisions : List ApprovalDecision)
    (approvers : Dict String Approver) (requesterId : String) : Verdict :=
  let approved := approvedDecisions decisions
  if (approved.length : ℤ) < policy.minApprovers then
    .needApprovers policy.minApprovers approved.length
  else if policy.allowSelfApproval = false ∧ ∃ d ∈ approved, d.approverId = requesterId then
    .selfApproval
  else if policy.requiredRoles = [] then .met
  else
    let roles := approvedRoles approvers approved
    if policy.requireAllRoles then
      let missing := policy.requiredRoles.dedup.filter fun role => role ∉ roles
      if missing ≠ [] then .missingRoles missing else .met
    else if ∃ role ∈ policy.requiredRoles, role ∈ roles then .met
    else .noRole policy.requiredRoles

namespace ApprovalPolicy

def checkAllRolesRequired (policy : ApprovalPolicy) (approved : List ApprovalDecision)
    (approvers : Dict String Approver) : Verdict :=
  let missing := policy.requiredRoles.dedup.filter fun role =>
    role ∉ approvedRoles approvers approved
  if missing ≠ [] then .missingRoles missing else .met

def checkAnyRoleRequired (policy : ApprovalPolicy) (approved : List ApprovalDecision)
    (approvers : Dict String Approver) : Verdict :=
  if policy.requiredRoles = [] then .met
  else if ∃ d ∈ approved, ∃ approver ∈ (approvers.get d.approverId).toList,
      ∃ role ∈ approver.roles, role ∈ policy.requiredRoles then .met
  else .noRole policy.requiredRoles

def validateApprovers (policy : ApprovalPolicy) (decisions : List ApprovalDecision)
    (approvers : Dict String Approver) (requesterId : String) : Verdict :=
  let approved := approvedDecisions decisions
  if (approved.length : ℤ) < policy.minApprovers then
    .needApprovers policy.minApprovers approved.length
  else if policy.allowSelfApproval = false ∧ ∃ d ∈ approved, d.approverId = requesterId then
    .selfApproval
  else if policy.requireAllRoles then policy.checkAllRolesRequired approved approvers
  else policy.checkAnyRoleRequired approved approvers

end ApprovalPolicy

theorem validateApprovals_eq_validateApprovers (policy : ApprovalPolicy)
    (decisions : List ApprovalDecision) (approvers : Dict String Approver) (requesterId : String) :
    validateApprovals policy decisions approvers requesterId =
      policy.validateApprovers decisions approvers requesterId := by
  unfold validateApprovals ApprovalPolicy.validateApprovers ApprovalPolicy.checkAllRolesRequired
    ApprovalPolicy.checkAnyRoleRequired
  dsimp only
  have hany : (∃ role ∈ policy.requiredRoles,
      role ∈ approvedRoles approvers (approvedDecisions decisions)) ↔
      ∃ d ∈ approvedDecisions decisions, ∃ approver ∈ (approvers.get d.approverId).toList,
        ∃ role ∈ approver.roles, role ∈ policy.requiredRoles := by
    constructor
    · rintro ⟨role, hrequired, hrole⟩
      obtain ⟨d, hd, approver, happrover, hhas⟩ := mem_approvedRoles.mp hrole
      exact ⟨d, hd, approver, Option.mem_toList.mpr happrover, role, hhas, hrequired⟩
    · rintro ⟨d, hd, approver, happrover, role, hhas, hrequired⟩
      exact ⟨role, hrequired,
        mem_approvedRoles.mpr ⟨d, hd, approver, Option.mem_toList.mp happrover, hhas⟩⟩
  by_cases hroles : policy.requiredRoles = []
  · rw [hroles]
    simp
  · simp only [hroles, if_false, hany]

/-! ## The engine -/

structure MultiApproverWorkflowEngine where
  requests : Dict String ApprovalRequest := .empty
  approvers : Dict String Approver := .empty
  policies : Dict String ApprovalPolicy := .empty
  /-- the decisions that are recorded, with the requests they are on, whose submission still
  notifies the channels -/
  notifying : List (String × ApprovalDecision) := []

/-- What `submit_decision` refuses. -/
inductive Refusal where
  /-- "Request not found" -/
  | requestNotFound
  /-- "Request is not pending (status: ...)" -/
  | notPending (status : ApprovalStatus)
  /-- "Approver not registered" -/
  | notRegistered
  /-- "Approver already submitted decision" -/
  | alreadyDecided
  /-- "Reasoning is required" -/
  | reasoningRequired
  deriving DecidableEq

inductive Outcome where
  /-- "Request rejected" -/
  | requestRejected
  /-- "Request approved" -/
  | requestApproved
  /-- "Decision recorded. ..." -/
  | decisionRecorded (verdict : Verdict)
  deriving DecidableEq

/-- What `create_request` is called with, and what the environment adds. -/
structure Creation where
  requesterId : String
  riskScore : ℚ
  policyId : Option String := none
  /-- the identifier that `uuid4` draws -/
  id : String
  now : Seconds

namespace MultiApproverWorkflowEngine

/-- `_initialize_default_policies` -/
def defaultPolicies : Dict String ApprovalPolicy :=
  (((Dict.empty.set "high_risk_action"
    { name := "High Risk Action", requiredRoles := [.securityTeam, .complianceTeam]
      minApprovers := 2, requireAllRoles := true, timeoutHours := 24, escalationHours := 4
      riskThreshold := 8 / 10 }).set "policy_change"
    { name := "Policy Change", requiredRoles := [.policyOwner, .platformAdmin]
      minApprovers := 2, requireAllRoles := true, timeoutHours := 48, escalationHours := 8
      riskThreshold := 1 / 2 }).set "critical_deployment"
    { name := "Critical Deployment", requiredRoles := [.engineeringLead, .securityTeam, .onCall]
      minApprovers := 3, requireAllRoles := true, timeoutHours := 4, escalationHours := 1
      riskThreshold := 9 / 10 }).set "standard_request"
    { name := "Standard Request", requiredRoles := [.tenantAdmin]
      minApprovers := 1, requireAllRoles := false, timeoutHours := 72, escalationHours := 24
      autoApproveLowRisk := true, riskThreshold := 3 / 10 }

def initial : MultiApproverWorkflowEngine := { policies := defaultPolicies }

def registerApprover (E : MultiApproverWorkflowEngine) (approver : Approver) :
    MultiApproverWorkflowEngine :=
  { E with approvers := E.approvers.set approver.id approver }

def registerPolicy (E : MultiApproverWorkflowEngine) (policyId : String) (policy : ApprovalPolicy) :
    MultiApproverWorkflowEngine :=
  { E with policies := E.policies.set policyId policy }

def selectPolicyForRisk (riskScore : ℚ) : String :=
  if 9 / 10 ≤ riskScore then "critical_deployment"
  else if 7 / 10 ≤ riskScore then "high_risk_action"
  else if 1 / 2 ≤ riskScore then "policy_change"
  else "standard_request"

/-- `create_request`: nothing if there is no such policy. -/
def createRequest (E : MultiApproverWorkflowEngine) (creation : Creation) :
    Option (ApprovalRequest × MultiApproverWorkflowEngine) :=
  let policyId := creation.policyId.getD (selectPolicyForRisk creation.riskScore)
  match E.policies.get policyId with
  | none => none
  | some policy =>
    let status : ApprovalStatus :=
      if policy.autoApproveLowRisk = true ∧ creation.riskScore < policy.riskThreshold then
        .approved
      else .pending
    let request : ApprovalRequest :=
      { id := creation.id, requesterId := creation.requesterId, riskScore := creation.riskScore
        policy := policy, status := status, createdAt := creation.now }
    some (request, { E with requests := E.requests.set creation.id request })

/-- `_validate_decision_submission`: what is refused, or the request and the approver. -/
def validateDecisionSubmission (E : MultiApproverWorkflowEngine)
    (requestId approverId reasoning : String) : Except Refusal (ApprovalRequest × Approver) :=
  match E.requests.get requestId with
  | none => .error .requestNotFound
  | some request =>
    if request.status ≠ .pending then .error (.notPending request.status)
    else match E.approvers.get approverId with
      | none => .error .notRegistered
      | some approver =>
        if ∃ d ∈ request.decisions, d.approverId = approverId then .error .alreadyDecided
        else if request.policy.requireReasoning = true ∧
            Constitutional.ProposalEngine.strip reasoning = "" then
          .error .reasoningRequired
        else .ok (request, approver)

/-- `submit_decision` up to the notifications: the decision is recorded. -/
def recordDecision (E : MultiApproverWorkflowEngine) (requestId approverId : String)
    (decision : ApprovalStatus) (reasoning : String) :
    Except Refusal MultiApproverWorkflowEngine :=
  match E.validateDecisionSubmission requestId approverId reasoning with
  | .error refusal => .error refusal
  | .ok (request, approver) =>
    let approvalDecision : ApprovalDecision :=
      { approverId := approver.id, approverName := approver.name, decision := decision
        reasoning := reasoning }
    .ok { E with
      requests := E.requests.set requestId
        { request with decisions := request.decisions ++ [approvalDecision] }
      notifying := E.notifying ++ [(requestId, approvalDecision)] }

theorem recordDecision_ok {E E' : MultiApproverWorkflowEngine} {requestId approverId reasoning : String}
    {decision : ApprovalStatus}
    (h : E.recordDecision requestId approverId decision reasoning = .ok E') :
    ∃ (request : ApprovalRequest) (approver : Approver) (d : ApprovalDecision),
      E.requests.get requestId = some request ∧ request.status = .pending ∧
      E.approvers.get approverId = some approver ∧
      (∀ d ∈ request.decisions, d.approverId ≠ approverId) ∧
      d.approverId = approver.id ∧ d.decision = decision ∧
      E' = { E with
        requests := E.requests.set requestId { request with decisions := request.decisions ++ [d] }
        notifying := E.notifying ++ [(requestId, d)] } := by
  unfold recordDecision validateDecisionSubmission at h
  rcases hget : E.requests.get requestId with _ | request
  · rw [hget] at h
    cases h
  · rw [hget] at h
    dsimp only at h
    by_cases hpending : request.status = .pending
    · rw [if_neg (not_not_intro hpending)] at h
      rcases happrover : E.approvers.get approverId with _ | approver
      · rw [happrover] at h
        cases h
      · rw [happrover] at h
        dsimp only at h
        split at h
        · cases h
        · rename_i refused result hvalid
          split at hvalid
          · cases hvalid
          · rename_i hfirst
            split at hvalid
            · cases hvalid
            · cases hvalid
              cases h
              exact ⟨request, approver, _, rfl, hpending, rfl,
                fun d hd heq => hfirst ⟨d, hd, heq⟩, rfl, rfl, rfl⟩
    · rw [if_pos hpending] at h
      cases h

def processDecisionResult (E : MultiApproverWorkflowEngine) (requestId : String)
    (request : ApprovalRequest) (decision : ApprovalStatus) :
    Outcome × MultiApproverWorkflowEngine :=
  if decision = .rejected then
    (.requestRejected,
      { E with requests := E.requests.set requestId { request with status := .rejected } })
  else
    let verdict := validateApprovals request.policy request.decisions E.approvers
      request.requesterId
    if verdict = .met then
      (.requestApproved,
        { E with requests := E.requests.set requestId { request with status := .approved } })
    else (.decisionRecorded verdict, E)

def cancelRequest (E : MultiApproverWorkflowEngine) (requestId reason : String) :
    Bool × MultiApproverWorkflowEngine :=
  match E.requests.get requestId with
  | none => (false, E)
  | some request =>
    if request.status ≠ .pending then (false, E)
    else
      (true, { E with
        requests := E.requests.set requestId
          { request with status := .cancelled, cancellationReason := some reason } })

def calculateEscalationLevel (request : ApprovalRequest) (now : Seconds) :
    Option EscalationLevel :=
  let timeSinceCreation := (now - request.createdAt) / 3600
  let escalationHours := request.policy.escalationHours
  if escalationHours * 3 ≤ timeSinceCreation then some .executive
  else if escalationHours * 2 ≤ timeSinceCreation then some .level3
  else if escalationHours ≤ timeSinceCreation then some .level2
  else none

/-- A request that is pending, at the time at which `_process_pending_requests` has started: the
timeout first, then the escalation. -/
def checkPending (request : ApprovalRequest) (now : Seconds) : ApprovalRequest :=
  if request.deadline < now then { request with status := .timeout }
  else match calculateEscalationLevel request now with
    | none => request
    | some level =>
      if request.escalationLevel.value < level.value then
        { request with escalationLevel := level }
      else request

/-- `_process_pending_requests`, where it comes to one request. -/
def processPendingRequest (E : MultiApproverWorkflowEngine) (requestId : String) (now : Seconds) :
    MultiApproverWorkflowEngine :=
  match E.requests.get requestId with
  | none => E
  | some request =>
    if request.status ≠ .pending then E
    else { E with requests := E.requests.set requestId (checkPending request now) }

end MultiApproverWorkflowEngine

/-! ## Runs -/

inductive Event where
  | registerApprover (approver : Approver)
  | registerPolicy (policyId : String) (policy : ApprovalPolicy)
  | create (creation : Creation)
  | submit (requestId approverId : String) (decision : ApprovalStatus) (reasoning : String)
  /-- the channels have been notified of one of the decisions -/
  | notified (index : ℕ)
  /-- a channel raises what the engine does not catch, or the submission is cancelled -/
  | abandoned (index : ℕ)
  | cancel (requestId reason : String)
  | pending (requestId : String) (now : Seconds)

namespace MultiApproverWorkflowEngine

def step (E : MultiApproverWorkflowEngine) : Event → MultiApproverWorkflowEngine
  | .registerApprover approver => E.registerApprover approver
  | .registerPolicy policyId policy => E.registerPolicy policyId policy
  | .create creation =>
    -- `uuid4` draws a new identifier
    if creation.id ∈ E.requests.keys then E
    else match E.createRequest creation with
      | none => E
      | some (_, E') => E'
  | .submit requestId approverId decision reasoning =>
    match E.recordDecision requestId approverId decision reasoning with
    | .error _ => E
    | .ok E' => E'
  | .notified index =>
    match E.notifying[index]? with
    | none => E
    | some (requestId, d) =>
      match E.requests.get requestId with
      | none => E
      | some request =>
        ({ E with notifying := E.notifying.eraseIdx index }.processDecisionResult requestId
          request d.decision).2
  | .abandoned index => { E with notifying := E.notifying.eraseIdx index }
  | .cancel requestId reason => (E.cancelRequest requestId reason).2
  | .pending requestId now => E.processPendingRequest requestId now

end MultiApproverWorkflowEngine

end EnhancedAgentBus.Approvals
