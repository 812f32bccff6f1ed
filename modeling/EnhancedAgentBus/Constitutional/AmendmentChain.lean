import EnhancedAgentBus.Constitutional.ActivationSaga

/-!
# Amendments one after another

Each amendment is proposed against the version that is active then, approved and activated, and every
call is answered.  Already the first activation is not completed (`activatesInTurn_iff`).
-/

namespace EnhancedAgentBus.Constitutional

open Async Deliberation ProposalEngine

/-! ## What is asked of a sequence -/

def approvedAmendment (proposal : AmendmentProposal) : Amendment where
  proposalId := proposal.proposalId
  proposedChanges := proposal.proposedChanges
  justification := proposal.justification
  proposerAgentId := proposal.proposerAgentId
  targetVersion := proposal.targetVersion
  newVersion := some proposal.newVersion
  status := .approved
  impactScore := some proposal.impact.score
  requiresDeliberation := proposal.impact.requiresDeliberation
  metadata := proposal.metadata

/-- The amendment was made by `create_proposal` against the active version, and approved. -/
def Proposed [PrintTable] (s : Stores) (amendment : Amendment) : Prop :=
  ∃ engine answers request response active,
    s.activeVersion = .ok (some active) ∧ answers.activeVersion = .ok (some active) ∧
    answers.saveAmendment = .ok true ∧ createProposal engine answers request = .ok response ∧
    amendment = approvedAmendment response.proposal

/-- The activation is completed, and the version of the amendment is active, with the content of the
version before it and the proposed changes. -/
structure AmendmentActivated (s : Stores) (amendment : Amendment)
    (out : Outcome Raised (SagaResult ActivationContext)) (s' : Stores) : Prop where
  completed : ∃ result, out = .returned result ∧ result.status = .completed
  active : ∃ previous version, s.activeVersion = .ok (some previous) ∧
    s'.activeVersion = .ok (some version) ∧ some version.version = amendment.newVersion ∧
    version.content = mergeChanges previous.content amendment.proposedChanges

/-- The amendments, each of which is proposed against the version that is active then, are activated
one after another. -/
def ActivatesInTurn [PrintTable] : Stores → List (Amendment × ActivationSetting) → Prop
  | _, [] => True
  | s, (amendment, setting) :: rest =>
    Proposed s amendment → ∀ out s',
      Exec CallServed (activateAmendment setting amendment.proposalId)
        { s with amendments := s.amendments.set amendment.proposalId amendment } out s' →
      out.ended = true →
        AmendmentActivated s amendment out s' ∧ ActivatesInTurn s' rest

/-! ## When it is met -/

theorem callServed_total (s : Stores) (o : SagaOp) : ∃ r s', CallServed s o r s' :=
  ⟨_, _, rfl⟩

/-- **A sequence of amendments.**  Its amendments are activated one after another just if there are
none. -/
theorem activatesInTurn_iff [PrintTable] {s : Stores}
    {amendments : List (Amendment × ActivationSetting)}
    (hfirst : ∀ first ∈ amendments.head?, Proposed s first.1) :
    ActivatesInTurn s amendments ↔ amendments = [] := by
  constructor
  · intro hturn
    rcases amendments with _ | ⟨first, rest⟩
    · rfl
    · obtain ⟨amendment, setting⟩ := first
      obtain ⟨out, s', hrun, hended⟩ := Exec.exists_ended callServed_total
        (activateAmendment setting amendment.proposalId)
        { s with amendments := s.amendments.set amendment.proposalId amendment }
      obtain ⟨result, rfl, hcompleted⟩ :=
        (hturn (hfirst _ rfl) out s' hrun hended).1.completed
      exact absurd hcompleted
        (activateAmendment_not_completed setting amendment.proposalId hrun)
  · rintro rfl
    trivial

/-! ## A first amendment -/

/-- The version that `sampleAnswers` has as the active one. -/
def firstVersion : ConstitutionalVersion where
  versionId := "v1"
  version := "1.0.0"
  constitutionalHash := constitutionalHash
  content := Dict.empty
  status := .active
  createdAt := 0

def firstStores : Stores where
  versions := Versions.empty.put firstVersion
  amendments := Dict.empty

/-- `{"quota": null}` -/
def firstRequest : ProposalRequest where
  proposedChanges := Dict.empty.set "quota" .null
  justification := "introduce a quota"
  proposerAgentId := "agent-1"
  newVersion := some "1.1.0"

def firstProposal : Except ProposalFailure ProposalResponse :=
  @createProposal plainTable sampleEngine sampleAnswers firstRequest

theorem firstProposal_ok : ∃ response, firstProposal = .ok response := by
  have hok : firstProposal.isOk = true := by decide +kernel
  cases h : firstProposal with
  | ok response => exact ⟨response, rfl⟩
  | error failure =>
    rw [h] at hok
    cases hok

/-- Surroundings in which every text is a version number, and all contents have one digest. -/
def plainSetting : ActivationSetting where
  hexdigest _ := String.ofList (List.replicate 64 '0')
  length_hexdigest _ := by rw [String.length_ofList, List.length_replicate]
  isSemanticVersion _ := true
  redisClient := false
  auditClient := false
  newVersionId := "v2"
  now := 0

/-- The first amendment is not activated. -/
theorem first_not_activated :
    ∃ amendment, @ActivatesInTurn plainTable firstStores [(amendment, plainSetting)] ↔
      [(amendment, plainSetting)] = [] := by
  obtain ⟨response, hresponse⟩ := firstProposal_ok
  refine ⟨approvedAmendment response.proposal, @activatesInTurn_iff plainTable _ _ ?_⟩
  intro first hfirst
  obtain rfl := Option.some.inj hfirst
  exact ⟨sampleEngine, sampleAnswers, firstRequest, response, firstVersion, rfl, rfl, rfl,
    hresponse, rfl⟩

/-- Not every amendment that is proposed and approved can be activated. -/
theorem not_every_amendment_activated :
    ¬∀ s amendment, @Proposed plainTable s amendment →
      @ActivatesInTurn plainTable s [(amendment, plainSetting)] := by
  intro h
  obtain ⟨response, hresponse⟩ := firstProposal_ok
  have hproposed : @Proposed plainTable firstStores (approvedAmendment response.proposal) :=
    ⟨sampleEngine, sampleAnswers, firstRequest, response, firstVersion, rfl, rfl, rfl, hresponse,
      rfl⟩
  obtain ⟨out, s', hrun, hended⟩ := Exec.exists_ended callServed_total
    (activateAmendment plainSetting (approvedAmendment response.proposal).proposalId)
    { firstStores with
      amendments := firstStores.amendments.set (approvedAmendment response.proposal).proposalId
        (approvedAmendment response.proposal) }
  obtain ⟨result, rfl, hcompleted⟩ :=
    (h firstStores _ hproposed hproposed out s' hrun hended).1.completed
  exact activateAmendment_not_completed plainSetting _ hrun hcompleted

end EnhancedAgentBus.Constitutional
