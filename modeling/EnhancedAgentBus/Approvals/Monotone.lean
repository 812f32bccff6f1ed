import EnhancedAgentBus.Approvals.Workflow

/-!
# What further approvals do to a policy

The count and the roles that a policy asks for are monotone in the approvals, the bar on
self-approval is antitone: a policy that is satisfied stays so under further approvals unless one of
them is the requester's, and then it is not satisfied again, however many others approve.
-/

namespace EnhancedAgentBus.Approvals

/-- There are the decisions of the first list in the second, in their order, and in between further
ones, which are all to approve. -/
structure MoreApprovals (decisions more : List ApprovalDecision) : Prop where
  kept : decisions.Sublist more
  approved : ∀ d ∈ more, d ∈ decisions ∨ d.decision = .approved

theorem MoreApprovals.append (decisions : List ApprovalDecision) {further : List ApprovalDecision}
    (h : ∀ d ∈ further, d.decision = .approved) :
    MoreApprovals decisions (decisions ++ further) where
  kept := List.sublist_append_left decisions further
  approved d hd := (List.mem_append.mp hd).imp id (h d)

theorem mem_approvedDecisions {decisions : List ApprovalDecision} {d : ApprovalDecision} :
    d ∈ approvedDecisions decisions ↔ d ∈ decisions ∧ d.decision = .approved := by
  unfold approvedDecisions
  rw [List.mem_filter, decide_eq_true_iff]

namespace ApprovalPolicy

def RolesApproved (policy : ApprovalPolicy) (approvers : Dict String Approver)
    (approved : List ApprovalDecision) : Prop :=
  if policy.requireAllRoles then
    ∀ role ∈ policy.requiredRoles, role ∈ approvedRoles approvers approved
  else policy.requiredRoles = [] ∨
    ∃ role ∈ policy.requiredRoles, role ∈ approvedRoles approvers approved

variable {policy : ApprovalPolicy} {approvers : Dict String Approver} {requesterId : String}
  {decisions more : List ApprovalDecision}

theorem checkAllRolesRequired_met {approved : List ApprovalDecision} :
    policy.checkAllRolesRequired approved approvers = .met ↔
      ∀ role ∈ policy.requiredRoles, role ∈ approvedRoles approvers approved := by
  unfold checkAllRolesRequired
  dsimp only
  have hmissing : policy.requiredRoles.dedup.filter (fun role =>
      role ∉ approvedRoles approvers approved) = [] ↔
      ∀ role ∈ policy.requiredRoles, role ∈ approvedRoles approvers approved := by
    simp [List.filter_eq_nil_iff]
  by_cases hnone : policy.requiredRoles.dedup.filter (fun role =>
      role ∉ approvedRoles approvers approved) = []
  · rw [if_neg (not_not_intro hnone)]
    exact iff_of_true rfl (hmissing.mp hnone)
  · rw [if_pos hnone]
    exact iff_of_false nofun (mt hmissing.mpr hnone)

theorem checkAnyRoleRequired_met {approved : List ApprovalDecision} :
    policy.checkAnyRoleRequired approved approvers = .met ↔
      policy.requiredRoles = [] ∨
        ∃ role ∈ policy.requiredRoles, role ∈ approvedRoles approvers approved := by
  unfold checkAnyRoleRequired
  have hany : (∃ d ∈ approved, ∃ approver ∈ (approvers.get d.approverId).toList,
      ∃ role ∈ approver.roles, role ∈ policy.requiredRoles) ↔
      ∃ role ∈ policy.requiredRoles, role ∈ approvedRoles approvers approved := by
    constructor
    · rintro ⟨d, hd, approver, happrover, role, hhas, hrequired⟩
      exact ⟨role, hrequired, mem_approvedRoles.mpr
        ⟨d, hd, approver, Option.mem_toList.mp happrover, hhas⟩⟩
    · rintro ⟨role, hrequired, hrole⟩
      obtain ⟨d, hd, approver, happrover, hhas⟩ := mem_approvedRoles.mp hrole
      exact ⟨d, hd, approver, Option.mem_toList.mpr happrover, role, hhas, hrequired⟩
  simp only [hany]
  split
  · next hnone => exact iff_of_true rfl (.inl hnone)
  · rename_i hnone
    split
    · next hrole => exact iff_of_true rfl (.inr hrole)
    · next hrole => exact iff_of_false nofun (fun h => h.elim hnone hrole)

theorem validateApprovers_met :
    policy.validateApprovers decisions approvers requesterId = .met ↔
      policy.minApprovers ≤ (approvedDecisions decisions).length ∧
      (policy.allowSelfApproval = true ∨
        ∀ d ∈ approvedDecisions decisions, d.approverId ≠ requesterId) ∧
      policy.RolesApproved approvers (approvedDecisions decisions) := by
  unfold validateApprovers RolesApproved
  dsimp only
  have hself : ¬(policy.allowSelfApproval = false ∧
      ∃ d ∈ approvedDecisions decisions, d.approverId = requesterId) ↔
      policy.allowSelfApproval = true ∨
        ∀ d ∈ approvedDecisions decisions, d.approverId ≠ requesterId := by
    rw [not_and_or, Bool.not_eq_false, not_exists]
    simp only [not_and, ne_eq]
  split
  · next hfew => exact iff_of_false nofun (fun h => absurd h.1 (not_le.mpr hfew))
  · rename_i hmany
    split
    · rename_i hrequester
      exact iff_of_false nofun (fun h => absurd hrequester (hself.mpr h.2.1))
    · rename_i hrequester
      rw [and_iff_right (not_lt.mp hmany), and_iff_right (hself.mp hrequester)]
      split
      · exact checkAllRolesRequired_met
      · exact checkAnyRoleRequired_met

theorem approvedRoles_subset (h : decisions.Sublist more) {role : ApproverRole}
    (hrole : role ∈ approvedRoles approvers (approvedDecisions decisions)) :
    role ∈ approvedRoles approvers (approvedDecisions more) := by
  obtain ⟨d, hd, approver, happrover, hhas⟩ := mem_approvedRoles.mp hrole
  exact mem_approvedRoles.mpr ⟨d, (h.filter _).subset hd, approver, happrover, hhas⟩

theorem RolesApproved.mono (h : decisions.Sublist more)
    (hroles : policy.RolesApproved approvers (approvedDecisions decisions)) :
    policy.RolesApproved approvers (approvedDecisions more) := by
  unfold RolesApproved at hroles ⊢
  split at hroles
  · rename_i hall
    rw [if_pos hall]
    intro role hrequired
    exact approvedRoles_subset h (hroles role hrequired)
  · rename_i hany
    rw [if_neg hany]
    refine hroles.imp id ?_
    rintro ⟨role, hrequired, hrole⟩
    exact ⟨role, hrequired, approvedRoles_subset h hrole⟩

theorem validateApprovers_of_sublist (h : decisions.Sublist more)
    (hmet : policy.validateApprovers decisions approvers requesterId = .met) :
    policy.validateApprovers more approvers requesterId = .met ↔
      policy.allowSelfApproval = true ∨
        ∀ d ∈ approvedDecisions more, d.approverId ≠ requesterId := by
  obtain ⟨hcount, -, hroles⟩ := validateApprovers_met.mp hmet
  have hmore : ((approvedDecisions decisions).length : ℤ) ≤ (approvedDecisions more).length :=
    Int.ofNat_le.mpr (h.filter _).length_le
  rw [validateApprovers_met, and_iff_right (hcount.trans hmore),
    and_iff_left (RolesApproved.mono h hroles)]

end ApprovalPolicy

/-- A policy that is satisfied stays so under further approvals if and only if it allows
self-approval or none of them is the requester's; and a request whose other approvals satisfy its
policy is approved, when a decision that is not a rejection is processed, on the same condition. -/
theorem validateApprovers_more_iff :
    (∀ (policy : ApprovalPolicy) (approvers : Dict String Approver) (requesterId : String)
        (decisions more : List ApprovalDecision), MoreApprovals decisions more →
      policy.validateApprovers decisions approvers requesterId = .met →
      (policy.validateApprovers more approvers requesterId = .met ↔
        policy.allowSelfApproval = true ∨
          ∀ d ∈ more, d ∈ decisions ∨ d.approverId ≠ requesterId)) ∧
    (∀ (E : MultiApproverWorkflowEngine) (requestId : String) (request : ApprovalRequest)
        (decision : ApprovalStatus), decision ≠ .rejected →
      request.policy.validateApprovers
        (request.decisions.filter fun d => d.approverId ≠ request.requesterId) E.approvers
        request.requesterId = .met →
      ((E.processDecisionResult requestId request decision).1 = .requestApproved ↔
        request.policy.allowSelfApproval = true ∨
          ∀ d ∈ request.decisions, d.decision = .approved →
            d.approverId ≠ request.requesterId)) := by
  constructor
  · intro policy approvers requesterId decisions more h hmet
    rw [ApprovalPolicy.validateApprovers_of_sublist h.kept hmet]
    obtain ⟨-, hself, -⟩ := ApprovalPolicy.validateApprovers_met.mp hmet
    refine or_congr_right' fun hbar => ?_
    have hothers := hself.resolve_left hbar
    constructor
    · intro hmore d hd
      refine (h.approved d hd).imp id fun happroved => ?_
      exact hmore d (mem_approvedDecisions.mpr ⟨hd, happroved⟩)
    · intro hmore d hd
      obtain ⟨hd, happroved⟩ := mem_approvedDecisions.mp hd
      rcases hmore d hd with hold | hnew
      · exact hothers d (mem_approvedDecisions.mpr ⟨hold, happroved⟩)
      · exact hnew
  · intro E requestId request decision hdecision hmet
    have hsatisfied := ApprovalPolicy.validateApprovers_of_sublist
      (List.filter_sublist (l := request.decisions)) hmet
    unfold MultiApproverWorkflowEngine.processDecisionResult
    rw [if_neg hdecision]
    dsimp only
    rw [validateApprovals_eq_validateApprovers]
    have happroved : (∀ d ∈ approvedDecisions request.decisions,
        d.approverId ≠ request.requesterId) ↔
        ∀ d ∈ request.decisions, d.decision = .approved → d.approverId ≠ request.requesterId :=
      forall_congr' fun d => by rw [mem_approvedDecisions, and_imp]
    rw [← happroved, ← hsatisfied]
    split
    · next hyes => exact iff_of_true rfl hyes
    · next hno => exact iff_of_false nofun hno

/-- The requester's approval undoes one that is complete. -/
theorem requester_approval_unsatisfies :
    ∃ (policy : ApprovalPolicy) (approvers : Dict String Approver) (requesterId : String)
      (decisions : List ApprovalDecision) (own : ApprovalDecision),
      ((decisions ++ [own]).map ApprovalDecision.approverId).Nodup ∧
      own.decision = .approved ∧ own.approverId = requesterId ∧
      policy.validateApprovers decisions approvers requesterId = .met ∧
      policy.validateApprovers (decisions ++ [own]) approvers requesterId = .selfApproval := by
  refine ⟨{ name := "Standard Request", requiredRoles := [.tenantAdmin] },
    Dict.empty.set "ada" { id := "ada", name := "Ada", roles := [.tenantAdmin] }, "bob",
    [{ approverId := "ada", approverName := "Ada", decision := .approved, reasoning := "fine" }],
    { approverId := "bob", approverName := "Bob", decision := .approved, reasoning := "mine" },
    ?_, rfl, rfl, ?_, ?_⟩ <;> decide +kernel

theorem validateApprovers_more_example :
    (({ name := "Any", requiredRoles := [] } : ApprovalPolicy).validateApprovers
        [⟨"ada", "Ada", .approved, "fine"⟩, ⟨"eve", "Eve", .approved, "fine"⟩] .empty "bob" = .met ↔
      false = true ∨ ∀ d ∈ [(⟨"ada", "Ada", .approved, "fine"⟩ : ApprovalDecision),
        ⟨"eve", "Eve", .approved, "fine"⟩],
        d ∈ [(⟨"ada", "Ada", .approved, "fine"⟩ : ApprovalDecision)] ∨ d.approverId ≠ "bob") ∧
    (({} : MultiApproverWorkflowEngine).processDecisionResult "r"
        { id := "r", requesterId := "bob", riskScore := 0, createdAt := 0
          policy := { name := "Any", requiredRoles := [] }
          decisions := [⟨"ada", "Ada", .approved, "fine"⟩] } .approved).1 = .requestApproved :=
  ⟨validateApprovers_more_iff.1 { name := "Any", requiredRoles := [] } .empty "bob" _ _
      (.append [⟨"ada", "Ada", .approved, "fine"⟩] fun d hd => by
        rw [List.mem_singleton.mp hd]) (by decide +kernel),
    (validateApprovers_more_iff.2 {} "r"
      { id := "r", requesterId := "bob", riskScore := 0, createdAt := 0
        policy := { name := "Any", requiredRoles := [] }
        decisions := [⟨"ada", "Ada", .approved, "fine"⟩] } .approved nofun (by decide +kernel)).mpr
      (.inr (by decide +kernel))⟩

end EnhancedAgentBus.Approvals
