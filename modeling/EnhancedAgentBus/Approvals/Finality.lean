import EnhancedAgentBus.Approvals.Workflow

/-!
# Final and justified outcomes

What the outcome of an approval request is worth, over every interleaving of the calls.  The property
of a step is `Respects`: a request that is no longer pending keeps its status, no approver decides
twice, and a request becomes approved only if its decisions justify that (`Justified`).

Nothing but the second half of a submission breaks it.  The status is looked at before the channels
are notified, and set after it; by then the request may be cancelled, timed out or rejected, or a
rejection may be recorded that is not processed yet.
-/

namespace EnhancedAgentBus.Approvals

open Machine MultiApproverWorkflowEngine

variable {E E' : MultiApproverWorkflowEngine} {requestId : String}
  {request request' : ApprovalRequest}

/-! ## What is asked of a step -/

/-- The decisions of the request contain no rejection and satisfy its policy: enough approvers, none
of them the requester, and the roles that are required. -/
structure Justified (approvers : Dict String Approver) (request : ApprovalRequest) : Prop where
  noRejection : ∀ d ∈ request.decisions, d.decision ≠ .rejected
  enough : request.policy.minApprovers ≤
    ((approvedDecisions request.decisions).map ApprovalDecision.approverId).dedup.length
  notSelf : request.policy.allowSelfApproval = false →
    ∀ d ∈ approvedDecisions request.decisions, d.approverId ≠ request.requesterId
  roles : if request.policy.requireAllRoles then ∀ role ∈ request.policy.requiredRoles,
      role ∈ approvedRoles approvers (approvedDecisions request.decisions)
    else request.policy.requiredRoles = [] ∨ ∃ role ∈ request.policy.requiredRoles,
      role ∈ approvedRoles approvers (approvedDecisions request.decisions)

def DecidedOnce (request : ApprovalRequest) : Prop :=
  (request.decisions.map ApprovalDecision.approverId).Nodup

/-- From one engine to the next: what is not pending stays as it is, nobody has decided twice, and
what becomes approved is justified. -/
structure Respected (E E' : MultiApproverWorkflowEngine) : Prop where
  final : ∀ id request, E.requests.get id = some request → request.status ≠ .pending →
    ∃ request', E'.requests.get id = some request' ∧ request'.status = request.status
  once : ∀ id request', E'.requests.get id = some request' → DecidedOnce request'
  justified : ∀ id request request', E.requests.get id = some request →
    E'.requests.get id = some request' → request.status ≠ .approved →
      request'.status = .approved → Justified E'.approvers request'

/-- The event does to the requests what it may. -/
def Respects (E : MultiApproverWorkflowEngine) (e : Event) : Prop := Respected E (E.step e)

/-! ## What the calls have to see to -/

/-- When the channels have been notified of a rejection, the request is still pending, or rejected
already; when they have been notified of another decision, and the approvals suffice, it is still
pending without a rejection, or approved already. -/
def Sound (E : MultiApproverWorkflowEngine) : Event → Prop
  | .notified index => ∀ requestId d request, E.notifying[index]? = some (requestId, d) →
      E.requests.get requestId = some request →
      if d.decision = .rejected then request.status = .pending ∨ request.status = .rejected
      else
        validateApprovals request.policy request.decisions E.approvers request.requesterId = .met →
          request.status = .approved ∨
            (request.status = .pending ∧ ∀ d ∈ request.decisions, d.decision ≠ .rejected)
  | _ => True

/-! ## One step -/

/-- Approvers are registered under their identifiers, and nobody has decided twice. -/
structure WellFormed (E : MultiApproverWorkflowEngine) : Prop where
  registered : ∀ id approver, E.approvers.get id = some approver → approver.id = id
  once : ∀ id request, E.requests.get id = some request → DecidedOnce request

theorem justified_of_met (hmet : validateApprovals request.policy request.decisions E.approvers
      request.requesterId = .met) (honce : DecidedOnce request)
    (hnone : ∀ d ∈ request.decisions, d.decision ≠ .rejected) : Justified E.approvers request := by
  unfold validateApprovals at hmet
  dsimp only at hmet
  split at hmet
  · cases hmet
  · rename_i henough
    split at hmet
    · cases hmet
    · rename_i hself
      have hnodup : ((approvedDecisions request.decisions).map
          ApprovalDecision.approverId).Nodup :=
        honce.sublist (List.filter_sublist.map _)
      refine ⟨hnone, ?_, fun hnot d hd heq => hself ⟨hnot, d, hd, heq⟩, ?_⟩
      · rw [hnodup.dedup, List.length_map]
        exact not_lt.mp henough
      · by_cases hroles : request.policy.requiredRoles = []
        · rw [hroles]
          split
          · exact fun role h => by cases h
          · exact .inl rfl
        · rw [if_neg hroles] at hmet
          split at hmet
          · rename_i hall
            split at hmet
            · cases hmet
            · rename_i hmissing
              rw [if_pos hall]
              intro role hrole
              rw [not_not, List.filter_eq_nil_iff] at hmissing
              by_contra hnot
              exact hmissing role (List.mem_dedup.mpr hrole) (decide_eq_true hnot)
          · rename_i hall
            split at hmet
            · rename_i hsome
              rw [if_neg hall]
              exact .inr hsome
            · cases hmet

theorem respected_of_requests_eq (hE : WellFormed E) (h : E'.requests = E.requests) :
    Respected E E' where
  final id request hget _ := ⟨request, h ▸ hget, rfl⟩
  once id request hget := hE.once id request (h ▸ hget)
  justified id request request' hget hget' hnot happroved := by
    rw [h, hget, Option.some_inj] at hget'
    exact absurd (hget' ▸ happroved) hnot

theorem respected_set_iff (hE : WellFormed E) (hget : E.requests.get requestId = some request)
    (hrequests : E'.requests = E.requests.set requestId request') (honce : DecidedOnce request') :
    Respected E E' ↔ (request.status ≠ .pending → request'.status = request.status) ∧
      (request.status ≠ .approved → request'.status = .approved →
        Justified E'.approvers request') := by
  have hget' : E'.requests.get requestId = some request' := by
    rw [hrequests, Dict.get_set, if_pos rfl]
  have hother {id : String} (hid : id ≠ requestId) :
      E'.requests.get id = E.requests.get id := by
    rw [hrequests, Dict.get_set, if_neg hid]
  constructor
  · intro h
    refine ⟨fun hstatus => ?_, h.justified requestId request request' hget hget'⟩
    obtain ⟨r, hr, hsame⟩ := h.final requestId request hget hstatus
    rw [hget', Option.some_inj] at hr
    rwa [hr]
  · rintro ⟨hfinal, hjustified⟩
    constructor
    · intro id r hr hstatus
      by_cases hid : id = requestId
      · rw [hid, hget, Option.some_inj] at hr
        exact ⟨request', hid ▸ hget', hr ▸ hfinal (hr ▸ hstatus)⟩
      · exact ⟨r, (hother hid).trans hr, rfl⟩
    · intro id r hr
      by_cases hid : id = requestId
      · rw [hid, hget', Option.some_inj] at hr
        exact hr ▸ honce
      · exact hE.once id r ((hother hid).symm.trans hr)
    · intro id r r' hr hr' hnot happroved
      by_cases hid : id = requestId
      · rw [hid, hget, Option.some_inj] at hr
        rw [hid, hget', Option.some_inj] at hr'
        subst hr hr'
        exact hjustified hnot happroved
      · rw [hother hid, hr, Option.some_inj] at hr'
        exact absurd (hr' ▸ happroved) hnot

theorem respected_create (hE : WellFormed E) {creation : Creation}
    (hnew : creation.id ∉ E.requests.keys) {made : ApprovalRequest}
    (hmade : E.createRequest creation = some (made, E')) : Respected E E' := by
  unfold createRequest at hmade
  dsimp only at hmade
  split at hmade
  · cases hmade
  · rename_i policy _
    cases hmade
    have hother {id : String} {r : ApprovalRequest} (hr : E.requests.get id = some r) :
        ¬ id = creation.id := by
      rintro rfl
      exact hnew (Dict.mem_keys_iff.mpr ⟨r, hr⟩)
    constructor
    · intro id r hr _
      exact ⟨r, by rw [Dict.get_set, if_neg (hother hr), hr], rfl⟩
    · intro id r hr
      rcases Dict.get_set_cases hr with ⟨-, rfl⟩ | ⟨-, hr⟩
      · exact List.nodup_nil
      · exact hE.once id r hr
    · intro id r r' hr hr' hnot happroved
      rw [Dict.get_set, if_neg (hother hr), hr, Option.some_inj] at hr'
      exact absurd (hr' ▸ happroved) hnot

theorem respected_record (hE : WellFormed E) {approverId reasoning : String}
    {decision : ApprovalStatus}
    (hrecorded : E.recordDecision requestId approverId decision reasoning = .ok E') :
    Respected E E' := by
  obtain ⟨request, approver, d, hget, hpending, happrover, hfirst, hid, -, rfl⟩ :=
    recordDecision_ok hrecorded
  have honce : DecidedOnce { request with decisions := request.decisions ++ [d] } := by
    unfold DecidedOnce
    rw [List.map_append, List.nodup_append]
    refine ⟨hE.once requestId request hget, List.nodup_singleton _, ?_⟩
    intro a ha b hb
    obtain ⟨d', hd', rfl⟩ := List.mem_map.mp ha
    rw [List.map_singleton, List.mem_singleton] at hb
    rw [hb, hid, hE.registered approverId approver happrover]
    exact hfirst d' hd'
  refine (respected_set_iff hE hget rfl honce).mpr ⟨fun h => absurd hpending h, fun _ h => ?_⟩
  have h : request.status = .approved := h
  rw [hpending] at h
  cases h

theorem respected_notified (hE : WellFormed E) (hget : E.requests.get requestId = some request)
    (decision : ApprovalStatus) :
    Respected E (E.processDecisionResult requestId request decision).2 ↔
      if decision = .rejected then request.status = .pending ∨ request.status = .rejected
      else
        validateApprovals request.policy request.decisions E.approvers request.requesterId = .met →
          request.status = .approved ∨
            (request.status = .pending ∧ ∀ d ∈ request.decisions, d.decision ≠ .rejected) := by
  have honce := hE.once requestId request hget
  have honce' (status : ApprovalStatus) : DecidedOnce { request with status := status } := honce
  unfold processDecisionResult
  by_cases hrejected : decision = .rejected
  · rw [if_pos hrejected, if_pos hrejected, respected_set_iff hE hget rfl (honce' .rejected)]
    dsimp only
    constructor
    · rintro ⟨hfinal, -⟩
      by_cases hpending : request.status = .pending
      · exact .inl hpending
      · exact .inr (hfinal hpending).symm
    · intro h
      exact ⟨fun hnot => (h.resolve_left hnot).symm, fun _ h => by cases h⟩
  · rw [if_neg hrejected, if_neg hrejected]
    dsimp only
    by_cases hmet : validateApprovals request.policy request.decisions E.approvers
        request.requesterId = .met
    · rw [if_pos hmet, respected_set_iff hE hget rfl (honce' .approved)]
      dsimp only
      constructor
      · rintro ⟨hfinal, hjustified⟩ -
        by_cases happroved : request.status = .approved
        · exact .inl happroved
        · refine .inr ⟨?_, (hjustified happroved rfl).noRejection⟩
          by_contra hpending
          exact happroved (hfinal hpending).symm
      · intro h
        obtain happroved | ⟨hpending, hnone⟩ := h hmet
        · exact ⟨fun _ => happroved.symm, fun hnot => absurd happroved hnot⟩
        · refine ⟨fun hnot => absurd hpending hnot, fun _ _ => ?_⟩
          -- the status is nothing that the requirements depend on
          obtain ⟨hnone, henough, hself, hroles⟩ := justified_of_met hmet honce hnone
          exact ⟨hnone, henough, hself, hroles⟩
    · rw [if_neg hmet]
      exact ⟨fun _ h => absurd h hmet, fun _ => respected_of_requests_eq hE rfl⟩

theorem checkPending_cases (request : ApprovalRequest) (now : Seconds)
    (hpending : request.status = .pending) :
    (checkPending request now).decisions = request.decisions ∧
      (checkPending request now).status ≠ .approved := by
  unfold checkPending
  split
  · exact ⟨rfl, fun h => by cases h⟩
  · have hnot : request.status ≠ .approved := by
      rw [hpending]
      exact fun h => by cases h
    split
    · exact ⟨rfl, hnot⟩
    · split
      · exact ⟨rfl, hnot⟩
      · exact ⟨rfl, hnot⟩

theorem respects_iff (hE : WellFormed E) (e : Event) : Respects E e ↔ Sound E e := by
  cases e with
  | registerApprover approver =>
    exact ⟨fun _ => trivial, fun _ => respected_of_requests_eq hE rfl⟩
  | registerPolicy policyId policy =>
    exact ⟨fun _ => trivial, fun _ => respected_of_requests_eq hE rfl⟩
  | create creation =>
    refine ⟨fun _ => trivial, fun _ => ?_⟩
    unfold Respects step
    dsimp only
    split
    · exact respected_of_requests_eq hE rfl
    · rename_i hnew
      split
      · exact respected_of_requests_eq hE rfl
      · next hmade => exact respected_create hE hnew hmade
  | submit requestId approverId decision reasoning =>
    refine ⟨fun _ => trivial, fun _ => ?_⟩
    unfold Respects step
    dsimp only
    split
    · exact respected_of_requests_eq hE rfl
    · next hrecorded => exact respected_record hE hrecorded
  | notified index =>
    unfold Respects step Sound
    dsimp only
    rcases hnotifying : E.notifying[index]? with _ | entry
    · exact ⟨fun _ _ _ _ h => (by cases h), fun _ => respected_of_requests_eq hE rfl⟩
    · obtain ⟨requestId, d⟩ := entry
      dsimp only
      rcases hget : E.requests.get requestId with _ | request
      · refine ⟨fun _ id d' request h hrequest => ?_, fun _ => respected_of_requests_eq hE rfl⟩
        cases h
        rw [hget] at hrequest
        cases hrequest
      · let E₁ := { E with notifying := E.notifying.eraseIdx index }
        have hE₁ : WellFormed E₁ := ⟨hE.registered, hE.once⟩
        have hget₁ : E₁.requests.get requestId = some request := hget
        have h := respected_notified hE₁ hget₁ d.decision
        constructor
        · intro hrespected id d' request' hentry hrequest
          cases hentry
          rw [hget, Option.some_inj] at hrequest
          subst hrequest
          exact h.mp ⟨hrespected.final, hrespected.once, hrespected.justified⟩
        · intro hsound
          have hrespected := h.mpr (hsound requestId d request rfl hget)
          exact ⟨hrespected.final, hrespected.once, hrespected.justified⟩
  | abandoned index => exact ⟨fun _ => trivial, fun _ => respected_of_requests_eq hE rfl⟩
  | cancel requestId reason =>
    refine ⟨fun _ => trivial, fun _ => ?_⟩
    unfold Respects step cancelRequest
    dsimp only
    split
    · exact respected_of_requests_eq hE rfl
    · rename_i request hget
      by_cases hpending : request.status = .pending
      · have honce : DecidedOnce { request with
            status := .cancelled, cancellationReason := some reason } :=
          hE.once requestId request hget
        rw [if_neg (not_not_intro hpending)]
        exact (respected_set_iff hE hget rfl honce).mpr
          ⟨fun h => absurd hpending h, fun _ h => by cases h⟩
      · rw [if_pos hpending]
        exact respected_of_requests_eq hE rfl
  | pending requestId now =>
    refine ⟨fun _ => trivial, fun _ => ?_⟩
    unfold Respects step processPendingRequest
    dsimp only
    split
    · exact respected_of_requests_eq hE rfl
    · rename_i request hget
      by_cases hpending : request.status = .pending
      · obtain ⟨hdecisions, hnot⟩ := checkPending_cases request now hpending
        rw [if_neg (not_not_intro hpending)]
        have honce : DecidedOnce (checkPending request now) := by
          unfold DecidedOnce
          rw [hdecisions]
          exact hE.once requestId request hget
        exact (respected_set_iff hE hget rfl honce).mpr
          ⟨fun h => absurd hpending h, fun _ h => absurd h hnot⟩
      · rw [if_pos hpending]
        exact respected_of_requests_eq hE rfl

theorem processDecisionResult_approvers (E : MultiApproverWorkflowEngine) (requestId : String)
    (request : ApprovalRequest) (decision : ApprovalStatus) :
    (E.processDecisionResult requestId request decision).2.approvers = E.approvers := by
  unfold processDecisionResult
  split
  · rfl
  · dsimp only
    split <;> rfl

theorem registered_step (hE : WellFormed E) (e : Event) :
    ∀ id approver, (E.step e).approvers.get id = some approver → approver.id = id := by
  have hsame (h : (E.step e).approvers = E.approvers) :
      ∀ id approver, (E.step e).approvers.get id = some approver → approver.id = id := by
    rw [h]
    exact hE.registered
  cases e with
  | registerApprover approver =>
    intro id approver' hget
    rcases Dict.get_set_cases hget with ⟨hid, rfl⟩ | ⟨-, hget⟩
    · exact hid.symm
    · exact hE.registered id approver' hget
  | registerPolicy policyId policy => exact hE.registered
  | create creation =>
    refine hsame ?_
    unfold step createRequest
    dsimp only
    split
    · rfl
    · split
      · rfl
      · rename_i h
        split at h
        · cases h
        · cases h
          rfl
  | submit requestId approverId decision reasoning =>
    refine hsame ?_
    unfold step
    dsimp only
    split
    · rfl
    · rename_i hrecorded
      obtain ⟨request, approver, d, -, -, -, -, -, -, rfl⟩ := recordDecision_ok hrecorded
      rfl
  | notified index =>
    refine hsame ?_
    unfold step
    dsimp only
    split
    · rfl
    · split
      · rfl
      · exact processDecisionResult_approvers ..
  | abandoned index => exact hE.registered
  | cancel requestId reason =>
    refine hsame ?_
    unfold step cancelRequest
    dsimp only
    split
    · rfl
    · split <;> rfl
  | pending requestId now =>
    refine hsame ?_
    unfold step processPendingRequest
    dsimp only
    split
    · rfl
    · split <;> rfl

theorem WellFormed.step (hE : WellFormed E) {e : Event} (h : Respects E e) :
    WellFormed (E.step e) := ⟨registered_step hE e, h.once⟩

/-! ## Runs -/

/-- **The outcomes are final and justified exactly where the submissions see to it**: over every run
of an engine, every event does to the requests what it may if and only if every event is `Sound` in
the state that it finds. -/
theorem outcomes_final_iff (es : List Event) :
    Along step Respects initial es ↔ Along step Sound initial es := by
  have hinitial : WellFormed initial := ⟨(fun _ _ h => by cases h), (fun _ _ h => by cases h)⟩
  exact along_iff WellFormed hinitial (fun _ e hE => respects_iff hE e) fun _ _ hE h => hE.step h

/-- A request of the lowest risk that still needs an approver, and the approver's decision. -/
def approvedWhileNotifying : List Event :=
  [.registerApprover ⟨"a", "A", [.tenantAdmin]⟩,
    .create { requesterId := "r", riskScore := 2 / 5, id := "q", now := 0 },
    .submit "q" "a" .approved "fine"]

/-- While the channels are notified of the approval the request is cancelled; then it is approved. -/
theorem cancelled_approved :
    ¬ Along step Respects initial (approvedWhileNotifying ++ [.cancel "q" "late", .notified 0]) := by
  rintro ⟨-, -, -, -, hlast, -⟩
  have hbefore : ((run step initial (approvedWhileNotifying ++ [.cancel "q" "late"])).requests.get
      "q").map ApprovalRequest.status = some .cancelled := by decide +kernel
  have hafter : ((run step initial (approvedWhileNotifying ++
      [.cancel "q" "late", .notified 0])).requests.get "q").map ApprovalRequest.status =
      some .approved := by decide +kernel
  obtain ⟨request, hget, hcancelled⟩ := Option.map_eq_some_iff.mp hbefore
  obtain ⟨request', hget', hsame⟩ := hlast.final "q" request hget (by rw [hcancelled]; decide)
  have hget' : (run step initial (approvedWhileNotifying ++
      [.cancel "q" "late", .notified 0])).requests.get "q" = some request' := hget'
  rw [hget', Option.map_some, hsame, hcancelled] at hafter
  cases hafter

end EnhancedAgentBus.Approvals
