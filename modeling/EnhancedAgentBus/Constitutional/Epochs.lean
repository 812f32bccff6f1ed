import EnhancedAgentBus.Constitutional.Refoundation
import EnhancedAgentBus.Lib.HashChain

/-!
# The epochs of a constitution

A refoundation engine, run from the start by any calls: how each epoch of its history has come
about (`RefoundationRun.epochsEarned`), and whether an epoch replaces the one that its proposal was
written against (`RefoundationRun.neverOverwrites_iff`).

`Effect` says once what a call that returns has done, and a call that raises has done nothing
(`perform_cases`).  A proposal that is rejected or activated stays so, and what its status says of
its decisions and of its sandbox result (`RefoundationProposal.Sound`) is what the checks of
`activate` then find.

Identifiers are drawn by `uuid4`, so a run never draws a text that an earlier call drew or named.
-/

namespace EnhancedAgentBus.Constitutional

/-! ## One call -/

namespace RefoundationProposal

@[simp] theorem approvalOf_setApproval (p : RefoundationProposal) (role role' : ConstitutionalRole)
    (a : RefoundationApproval) :
    (p.setApproval role a).approvalOf role' =
      if role' = role then some a else p.approvalOf role' := by
  cases role <;> cases role' <;> rfl

theorem setApproval_eq (p : RefoundationProposal) (role : ConstitutionalRole)
    (a : RefoundationApproval) :
    ∃ legislative executive judicial, p.setApproval role a =
      { p with
        legislativeApproval := legislative
        executiveApproval := executive
        judicialApproval := judicial } := by
  cases role with
  | legislative => exact ⟨_, _, _, rfl⟩
  | executive => exact ⟨_, _, _, rfl⟩
  | judicial => exact ⟨_, _, _, rfl⟩

end RefoundationProposal

def ConstitutionalRole.name : ConstitutionalRole → String
  | legislative => "legislative"
  | executive => "executive"
  | judicial => "judicial"

theorem ConstitutionalRole.ofName_eq_some {name : String} {role : ConstitutionalRole}
    (h : ofName name = some role) : name = role.name := by
  unfold ofName at h
  split at h <;> cases h <;> rfl

inductive Effect (s : RefoundationEngine) :
    RefoundationCall → RefoundationReply → RefoundationEngine → Prop
  | created (proposalId proposerId proposerRole currentEpochId : String)
      (changes : Dict String String) (manifest : InvariantManifest)
      (justification riskAssessment rollbackPlan : String) (p : RefoundationProposal)
      (hrole : proposerRole = "human_operator")
      (hp : p =
        { proposalId, proposerId, proposerRole, currentEpochId
          proposedInvariantChanges := changes, proposedManifest := manifest
          justification, riskAssessment, rollbackPlan }) :
      Effect s
        (.createProposal proposalId proposerId proposerRole currentEpochId changes manifest
          justification riskAssessment rollbackPlan)
        (.proposal p) { s with proposals := s.proposals.set proposalId p }
  | submitted (proposalId : String) (p : RefoundationProposal)
      (hp : s.proposals.get proposalId = some p) (hstatus : p.status = .drafted) :
      Effect s (.submitForReview proposalId) (.proposal { p with status := .submitted })
        { s with proposals := s.proposals.set proposalId { p with status := .submitted } }
  | decided (proposalId : String) (role : ConstitutionalRole) (a : RefoundationApproval)
      (p : RefoundationProposal) (hp : s.proposals.get proposalId = some p)
      (hstatus : p.status = .submitted ∨ p.status = .underReview)
      (hrole : a.role = role.name) (hother : a.approverId ≠ p.proposerId)
      (hfirst : p.approvalOf role = none) :
      Effect s (.addApproval proposalId a.role a.approverId a.approved a.reasoning)
        (.proposal (p.withDecision role a))
        { s with proposals := s.proposals.set proposalId (p.withDecision role a) }
  | tested (proposalId : String) (results : SandboxExecutionResult) (p : RefoundationProposal)
      (hp : s.proposals.get proposalId = some p)
      (hstatus : p.status = .underReview ∨ p.status = .sandboxTesting) :
      Effect s (.recordSandboxResults proposalId results) (.proposal (p.withSandbox results))
        { s with proposals := s.proposals.set proposalId (p.withSandbox results) }
  | activated (proposalId epochId : String) (p : RefoundationProposal)
      (results : SandboxExecutionResult) (hp : s.proposals.get proposalId = some p)
      (hstatus : p.status = .approved)
      (hroles : ∀ role, ∃ a, p.approvalOf role = some a ∧ a.approved = true)
      (hresults : p.sandboxResults = some results) (hclean : results.clean = true) :
      Effect s (.activate proposalId epochId) (.epoch (s.nextEpoch epochId p))
        { proposals := s.proposals.set proposalId
            { p with status := .activated, newEpochId := some epochId }
          epochs := s.epochs ++ [s.nextEpoch epochId p]
          currentEpoch := some (s.nextEpoch epochId p) }

namespace RefoundationEngine

variable {α β : Type} {s : RefoundationEngine}

def Did (s : RefoundationEngine) (call : RefoundationCall) (f : α → RefoundationReply)
    (r : Result α) : Prop :=
  ((∃ e, r.1 = .error e) ∧ r.2 = s) ∨ ∃ a, r.1 = .ok a ∧ Effect s call (f a) r.2

theorem did_refuse {call : RefoundationCall} {f : α → RefoundationReply} (message : String) :
    Did s call f (s.refuse message) :=
  .inl ⟨⟨_, rfl⟩, rfl⟩

theorem did_store {call : RefoundationCall} {proposalId : String} {p : RefoundationProposal}
    (h : Effect s call (.proposal p) { s with proposals := s.proposals.set proposalId p }) :
    Did s call .proposal (s.store proposalId p) :=
  .inr ⟨p, rfl, h⟩

theorem did_withProposal {call : RefoundationCall} {f : α → RefoundationReply}
    {proposalId : String} {k : RefoundationProposal → RefoundationEngine → Result α}
    (h : ∀ p, s.proposals.get proposalId = some p → Did s call f (k p s)) :
    Did s call f (withProposal proposalId k s) := by
  unfold withProposal
  rcases hp : s.proposals.get proposalId with _ | p
  · exact did_refuse _
  · exact h p hp

end RefoundationEngine

namespace RefoundationEngine

variable {s : RefoundationEngine}

theorem did_createProposal (proposalId proposerId proposerRole currentEpochId : String)
    (changes : Dict String String) (manifest : InvariantManifest)
    (justification riskAssessment rollbackPlan : String) :
    Did s (.createProposal proposalId proposerId proposerRole currentEpochId changes manifest
        justification riskAssessment rollbackPlan) .proposal
      (s.createProposal proposalId proposerId proposerRole currentEpochId changes manifest
        justification riskAssessment rollbackPlan) := by
  unfold createProposal
  split
  · exact did_refuse _
  · rename_i hrole
    split
    · exact did_refuse _
    · exact did_store (.created _ _ _ _ _ _ _ _ _ _ (not_not.mp hrole) rfl)

theorem did_submitForReview (proposalId : String) :
    Did s (.submitForReview proposalId) .proposal (s.submitForReview proposalId) := by
  apply did_withProposal
  intro p hp
  split
  · exact did_refuse _
  · rename_i hstatus
    exact did_store (.submitted _ p hp (not_not.mp hstatus))

theorem did_addApproval (proposalId role approverId : String) (approved : Bool)
    (reasoning : String) :
    Did s (.addApproval proposalId role approverId approved reasoning) .proposal
      (s.addApproval proposalId role approverId approved reasoning) := by
  apply did_withProposal
  intro p hp
  split
  · exact did_refuse _
  rename_i hstatus
  split
  · exact did_refuse _
  rename_i r hr
  split
  · exact did_refuse _
  rename_i hother
  split
  · exact did_refuse _
  rename_i hfirst
  refine did_store (.decided _ r ⟨role, approverId, approved, reasoning⟩ p hp ?_
    (ConstitutionalRole.ofName_eq_some hr) hother (by simpa using hfirst))
  by_contra hnot
  exact hstatus (not_or.mp hnot)

theorem did_recordSandboxResults (proposalId : String) (results : SandboxExecutionResult) :
    Did s (.recordSandboxResults proposalId results) .proposal
      (s.recordSandboxResults proposalId results) := by
  apply did_withProposal
  intro p hp
  split
  · exact did_refuse _
  · rename_i hstatus
    refine did_store (.tested _ results p hp ?_)
    by_contra hnot
    exact hstatus (not_or.mp hnot)

theorem did_activate (proposalId epochId : String) :
    Did s (.activate proposalId epochId) .epoch (s.activate proposalId epochId) := by
  apply did_withProposal
  intro p hp
  split
  · exact did_refuse _
  rename_i hstatus
  split
  · rename_i legislative executive judicial hl he hj
    split
    · exact did_refuse _
    rename_i happroved
    split
    · exact did_refuse _
    rename_i results hresults
    split
    · exact did_refuse _
    rename_i hpassed
    split
    · exact did_refuse _
    rename_i hclean
    refine .inr ⟨_, rfl, .activated _ _ p results hp (not_not.mp hstatus) ?_ hresults ?_⟩
    · obtain ⟨hl', he', hj'⟩ := not_not.mp happroved
      intro role
      cases role with
      | legislative => exact ⟨legislative, hl, hl'⟩
      | executive => exact ⟨executive, he, he'⟩
      | judicial => exact ⟨judicial, hj, hj'⟩
    · simp [SandboxExecutionResult.clean, not_not.mp hpassed, hclean]
  · exact did_refuse _

theorem Did.map {α : Type} {call : RefoundationCall} {f : α → RefoundationReply} {r : Result α}
    (h : Did s call f r) : Did s call id (r.1.map f, r.2) := by
  rcases h with ⟨⟨e, he⟩, hs⟩ | ⟨a, ha, heffect⟩
  · exact .inl ⟨⟨e, by rw [he]; rfl⟩, hs⟩
  · exact .inr ⟨f a, by rw [ha]; rfl, heffect⟩

end RefoundationEngine

open RefoundationEngine in
/-- **One call**: it raises and leaves the engine as it was, or it has one of the five effects. -/
theorem RefoundationCall.perform_cases (s : RefoundationEngine) (call : RefoundationCall) :
    Did s call id (call.perform s) := by
  cases call with
  | createProposal => exact (did_createProposal ..).map
  | submitForReview => exact (did_submitForReview ..).map
  | addApproval => exact (did_addApproval ..).map
  | recordSandboxResults => exact (did_recordSandboxResults ..).map
  | activate => exact (did_activate ..).map

/-! ## What a proposal's status tells -/

namespace RefoundationProposal

/-- **A proposal, at any time.** -/
structure Sound (p : RefoundationProposal) : Prop where
  human : p.proposerRole = "human_operator"
  decision : ∀ role a, p.approvalOf role = some a → a.role = role.name ∧ a.approverId ≠ p.proposerId
  veto : ∀ role a, p.approvalOf role = some a → a.approved = false → p.status = .rejected
  sandbox : ∀ results, p.sandboxResults = some results → results.clean = false →
    p.status = .rejected
  epoch : p.newEpochId.isSome ↔ p.status = .activated

def Final (p : RefoundationProposal) : Prop := p.status = .rejected ∨ p.status = .activated

variable {p : RefoundationProposal}

theorem Sound.approved (h : p.Sound) (hstatus : p.status ≠ .rejected) {role : ConstitutionalRole}
    {a : RefoundationApproval} (ha : p.approvalOf role = some a) : a.approved = true := by
  by_contra hnot
  exact hstatus (h.veto role a ha (by simpa using hnot))

theorem Sound.clean (h : p.Sound) (hstatus : p.status ≠ .rejected)
    {results : SandboxExecutionResult} (hresults : p.sandboxResults = some results) :
    results.clean = true := by
  by_contra hnot
  exact hstatus (h.sandbox results hresults (by simpa using hnot))

theorem Sound.newEpochId_eq_none (h : p.Sound) (hstatus : p.status ≠ .activated) :
    p.newEpochId = none := by
  rw [← Option.not_isSome_iff_eq_none]
  exact fun hsome => hstatus (h.epoch.mp hsome)

theorem Sound.submit (h : p.Sound) (hstatus : p.status = .drafted) :
    Sound { p with status := .submitted } := by
  have hopen : p.status ≠ .rejected := by simp [hstatus]
  refine ⟨h.human, h.decision, fun role a ha hno => ?_, fun results hr hno => ?_, ?_⟩
  · rw [h.approved hopen ha] at hno
    cases hno
  · rw [h.clean hopen hr] at hno
    cases hno
  · have hnone := h.newEpochId_eq_none (by simp [hstatus])
    simp [hnone]

theorem Sound.withDecision (h : p.Sound) (hstatus : p.status = .submitted ∨ p.status = .underReview)
    {role : ConstitutionalRole} {a : RefoundationApproval} (hrole : a.role = role.name)
    (hother : a.approverId ≠ p.proposerId) : (p.withDecision role a).Sound := by
  have hopen : p.status ≠ .rejected := by rcases hstatus with hs | hs <;> simp [hs]
  have hnone : p.newEpochId = none :=
    h.newEpochId_eq_none (by rcases hstatus with hs | hs <;> simp [hs])
  obtain ⟨legislative, executive, judicial, heq⟩ := p.setApproval_eq role a
  have happrovals (role' : ConstitutionalRole) : (p.withDecision role a).approvalOf role' =
      if role' = role then some a else p.approvalOf role' := by
    rw [← approvalOf_setApproval]
    cases role' <;> rfl
  refine ⟨?_, fun role' a' ha' => ?_, fun role' a' ha' hno => ?_, fun results hr hno => ?_, ?_⟩
  · rw [RefoundationProposal.withDecision, heq]
    exact h.human
  · have hproposer : (p.withDecision role a).proposerId = p.proposerId := by
      rw [RefoundationProposal.withDecision, heq]
    rw [happrovals] at ha'
    rw [hproposer]
    split at ha'
    · obtain rfl := Option.some_inj.mp ha'
      subst role'
      exact ⟨hrole, hother⟩
    · exact h.decision role' a' ha'
  · rw [happrovals] at ha'
    split at ha'
    · obtain rfl := Option.some_inj.mp ha'
      simp [RefoundationProposal.withDecision, hno]
    · rw [h.approved hopen ha'] at hno
      cases hno
  · have hsandbox : (p.withDecision role a).sandboxResults = p.sandboxResults := by
      rw [RefoundationProposal.withDecision, heq]
    rw [h.clean hopen (hsandbox ▸ hr)] at hno
    cases hno
  · have hepoch : (p.withDecision role a).newEpochId = none := by
      rw [RefoundationProposal.withDecision, heq]
      exact hnone
    have hactive : (p.withDecision role a).status ≠ .activated := by
      simp only [RefoundationProposal.withDecision]
      split_ifs <;> simp
    simp [hepoch, hactive]

theorem Sound.withSandbox (h : p.Sound)
    (hstatus : p.status = .underReview ∨ p.status = .sandboxTesting)
    (results : SandboxExecutionResult) : (p.withSandbox results).Sound := by
  have hopen : p.status ≠ .rejected := by rcases hstatus with hs | hs <;> simp [hs]
  have hnone : p.newEpochId = none :=
    h.newEpochId_eq_none (by rcases hstatus with hs | hs <;> simp [hs])
  have happrovals (role : ConstitutionalRole) :
      (p.withSandbox results).approvalOf role = p.approvalOf role := by cases role <;> rfl
  refine ⟨h.human, fun role a ha => ?_, fun role a ha hno => ?_, fun results' hr hno => ?_, ?_⟩
  · exact h.decision role a (happrovals role ▸ ha)
  · rw [h.approved hopen (happrovals role ▸ ha)] at hno
    cases hno
  · obtain rfl : results = results' := Option.some_inj.mp hr
    simp [RefoundationProposal.withSandbox, hno]
  · have hepoch : (p.withSandbox results).newEpochId = none := hnone
    have hactive : (p.withSandbox results).status ≠ .activated := by
      simp only [RefoundationProposal.withSandbox]
      split_ifs
      · simp
      · rcases hstatus with hs | hs <;> simp [hs]
      · simp
    simp [hepoch, hactive]

theorem Sound.activate (h : p.Sound) (hstatus : p.status = .approved) (epochId : String) :
    Sound { p with status := .activated, newEpochId := some epochId } := by
  have hopen : p.status ≠ .rejected := by simp [hstatus]
  refine ⟨h.human, h.decision, fun role a ha hno => ?_, fun results hr hno => ?_, by simp⟩
  · rw [h.approved hopen ha] at hno
    cases hno
  · rw [h.clean hopen hr] at hno
    cases hno

end RefoundationProposal

/-! ## What a call does to the proposals and to the epochs -/

namespace RefoundationCall

def draws : RefoundationCall → Option String
  | createProposal proposalId .. => some proposalId
  | activate _ epochId => some epochId
  | _ => none

/-- The texts that a call draws, or names as an epoch. -/
def names : RefoundationCall → List String
  | createProposal proposalId _ _ currentEpochId .. => [proposalId, currentEpochId]
  | activate _ epochId => [epochId]
  | _ => []

/-- The proposal that a call drafts, and the epoch that it is written against. -/
def drafts : RefoundationCall → Option (String × String)
  | createProposal proposalId _ _ currentEpochId .. => some (proposalId, currentEpochId)
  | _ => none

/-- The proposal that a call rejects: by a role's decision, or by its sandbox result. -/
def rejects : RefoundationCall → Option String
  | addApproval proposalId _ _ approved _ => if approved then none else some proposalId
  | recordSandboxResults proposalId results => if results.clean then none else some proposalId
  | _ => none

def activates : RefoundationCall → Option String
  | activate proposalId _ => some proposalId
  | _ => none

variable {call : RefoundationCall} {pid u : String}

theorem mem_names_of_draws (call : RefoundationCall) (h : call.draws = some u) :
    u ∈ call.names := by
  cases call with
  | createProposal => exact Option.some_inj.mp h ▸ List.mem_cons_self
  | activate => exact Option.some_inj.mp h ▸ List.mem_cons_self
  | _ => cases h

theorem drafts_eq_some {id : String} (h : call.drafts = some (pid, id)) :
    call.draws = some pid ∧ call.activates = none ∧ id ∈ call.names := by
  cases call with
  | createProposal =>
    obtain ⟨rfl, rfl⟩ := Prod.mk.inj (Option.some_inj.mp h)
    exact ⟨rfl, rfl, List.mem_cons_of_mem _ List.mem_cons_self⟩
  | _ => cases h

end RefoundationCall

namespace Effect

variable {s s' : RefoundationEngine} {call : RefoundationCall} {reply : RefoundationReply}
variable {pid : String} {p p' : RefoundationProposal}

/-- The identifier that a call draws is not one of a proposal's. -/
def New (s : RefoundationEngine) (call : RefoundationCall) : Prop :=
  ∀ u, call.draws = some u → s.proposals.get u = none

theorem sound_set (hs : ∀ pid p, s.proposals.get pid = some p → p.Sound) (hp' : p'.Sound)
    {pid' : String} (hp : (s.proposals.set pid' p').get pid = some p) : p.Sound := by
  rcases Dict.get_set_cases hp with ⟨-, rfl⟩ | ⟨-, hp⟩
  · exact hp'
  · exact hs pid p hp

theorem sound (h : Effect s call reply s') (hs : ∀ pid p, s.proposals.get pid = some p → p.Sound)
    (hp : s'.proposals.get pid = some p) : p.Sound := by
  cases h with
  | created _ _ _ _ _ _ _ _ _ q hrole hq =>
    refine sound_set hs ?_ hp
    subst hq
    refine ⟨hrole, fun role a ha => ?_, fun role a ha => ?_, by simp, by simp⟩
    · cases role <;> cases ha
    · cases role <;> cases ha
  | submitted _ q hq hstatus => exact sound_set hs ((hs _ q hq).submit hstatus) hp
  | decided _ role a q hq hstatus hrole hother =>
    exact sound_set hs ((hs _ q hq).withDecision hstatus hrole hother) hp
  | tested _ results q hq hstatus =>
    exact sound_set hs ((hs _ q hq).withSandbox hstatus results) hp
  | activated _ epochId q _ hq hstatus =>
    exact sound_set hs ((hs _ q hq).activate hstatus epochId) hp

theorem wrote (h : Effect s call reply s') : ∃ pid q, s'.proposals = s.proposals.set pid q ∧
    ((call.draws = some pid ∧ call.drafts = some (pid, q.currentEpochId)) ∨
      ∃ p, s.proposals.get pid = some p ∧ ¬p.Final ∧ q.currentEpochId = p.currentEpochId) := by
  cases h with
  | created pid _ _ _ _ _ _ _ _ q _ hq =>
    subst hq
    exact ⟨pid, _, rfl, .inl ⟨rfl, rfl⟩⟩
  | submitted pid p hp hstatus =>
    exact ⟨pid, _, rfl, .inr ⟨p, hp, by simp [RefoundationProposal.Final, hstatus], rfl⟩⟩
  | decided pid role a p hp hstatus =>
    obtain ⟨legislative, executive, judicial, heq⟩ := p.setApproval_eq role a
    refine ⟨pid, _, rfl, .inr ⟨p, hp, ?_, ?_⟩⟩
    · rcases hstatus with hs | hs <;> simp [RefoundationProposal.Final, hs]
    · rw [RefoundationProposal.withDecision, heq]
  | tested pid results p hp hstatus =>
    refine ⟨pid, _, rfl, .inr ⟨p, hp, ?_, rfl⟩⟩
    rcases hstatus with hs | hs <;> simp [RefoundationProposal.Final, hs]
  | activated pid epochId p _ hp hstatus =>
    exact ⟨pid, _, rfl, .inr ⟨p, hp, by simp [RefoundationProposal.Final, hstatus], rfl⟩⟩

theorem final (h : Effect s call reply s') (hnew : New s call)
    (hp : s.proposals.get pid = some p) (hfinal : p.Final) : s'.proposals.get pid = some p := by
  obtain ⟨pid', q, heq, hwrote⟩ := h.wrote
  rw [heq, Dict.get_set, if_neg, hp]
  rintro rfl
  rcases hwrote with ⟨hdraws, _⟩ | ⟨p', hp', hopen, _⟩
  · rw [hnew pid hdraws] at hp
    cases hp
  · obtain rfl := Option.some_inj.mp (hp.symm.trans hp')
    exact hopen hfinal

theorem before (h : Effect s call reply s') (hp : s'.proposals.get pid = some p') :
    (∃ p, s.proposals.get pid = some p ∧ p'.currentEpochId = p.currentEpochId) ∨
      call.drafts = some (pid, p'.currentEpochId) := by
  obtain ⟨pid', q, heq, hwrote⟩ := h.wrote
  rw [heq] at hp
  rcases Dict.get_set_cases hp with ⟨rfl, rfl⟩ | ⟨-, hp⟩
  · rcases hwrote with ⟨_, hdrafts⟩ | ⟨p, hp, _, hbase⟩
    · exact .inr hdrafts
    · exact .inl ⟨p, hp, hbase⟩
  · exact .inl ⟨p', hp, rfl⟩

theorem epochs (h : Effect s call reply s') (hnone : call.activates = none) :
    s'.epochs = s.epochs ∧ s'.currentEpoch = s.currentEpoch := by
  cases h with
  | activated => cases hnone
  | _ => exact ⟨rfl, rfl⟩

theorem activation (h : Effect s call reply s') (hpid : call.activates = some pid) :
    ∃ epochId p, call = .activate pid epochId ∧ reply = .epoch (s.nextEpoch epochId p) ∧
      s.proposals.get pid = some p ∧ p.status = .approved ∧
      (∀ role, ∃ a, p.approvalOf role = some a ∧ a.approved = true) ∧
      (∃ results, p.sandboxResults = some results ∧ results.clean = true) ∧
      s' =
        { proposals := s.proposals.set pid
            { p with status := .activated, newEpochId := some epochId }
          epochs := s.epochs ++ [s.nextEpoch epochId p]
          currentEpoch := some (s.nextEpoch epochId p) } := by
  cases h with
  | activated pid' epochId p results hp hstatus hroles hresults hclean =>
    obtain rfl := Option.some_inj.mp hpid
    exact ⟨epochId, p, rfl, rfl, hp, hstatus, hroles, ⟨results, hresults, hclean⟩, rfl⟩
  | _ => cases hpid

theorem grows (h : Effect s call reply s') :
    (call.activates = none ∧ s'.epochs = s.epochs ∧ s'.currentEpoch = s.currentEpoch) ∨
      ∃ pid epochId p, call = .activate pid epochId ∧ reply = .epoch (s.nextEpoch epochId p) ∧
        s'.epochs = s.epochs ++ [s.nextEpoch epochId p] ∧
        s'.currentEpoch = some (s.nextEpoch epochId p) := by
  rcases hactivates : call.activates with _ | pid
  · exact .inl ⟨rfl, h.epochs hactivates⟩
  · obtain ⟨epochId, p, hcall, hreply, -, -, -, -, rfl⟩ := h.activation hactivates
    exact .inr ⟨pid, epochId, p, hcall, hreply, rfl, rfl⟩

theorem rejection (h : Effect s call reply s') (hpid : call.rejects = some pid) :
    ∃ p, s'.proposals.get pid = some p ∧ p.status = .rejected := by
  cases h with
  | decided pid' role a p hp =>
    have hpid' : (if a.approved then none else some pid') = some pid := hpid
    split at hpid'
    · cases hpid'
    · rename_i hno
      obtain rfl := Option.some_inj.mp hpid'
      refine ⟨p.withDecision role a, by simp, ?_⟩
      simp [RefoundationProposal.withDecision, hno]
  | tested pid' results p hp =>
    have hpid' : (if results.clean then none else some pid') = some pid := hpid
    split at hpid'
    · cases hpid'
    · rename_i hno
      obtain rfl := Option.some_inj.mp hpid'
      refine ⟨p.withSandbox results, by simp, ?_⟩
      simp [RefoundationProposal.withSandbox, hno]
  | _ => cases hpid

end Effect

/-! ## Runs -/

/-- A call that was made: the engine it found, and what came of it. -/
structure RefoundationEntry where
  before : RefoundationEngine
  call : RefoundationCall
  reply : Except RefoundationError RefoundationReply
  after : RefoundationEngine

namespace RefoundationEntry

def Succeeded (e : RefoundationEntry) : Prop := ∃ reply, e.reply = .ok reply

/-- It drafted the proposal, written against an epoch. -/
def Drafts (e : RefoundationEntry) (pid currentEpochId : String) : Prop :=
  e.Succeeded ∧ e.call.drafts = some (pid, currentEpochId)

def Rejects (e : RefoundationEntry) (pid : String) : Prop :=
  e.Succeeded ∧ e.call.rejects = some pid

/-- It activated the proposal, and an epoch began. -/
def Activates (e : RefoundationEntry) (pid : String) (epoch : ConstitutionalEpoch) : Prop :=
  e.call.activates = some pid ∧ e.reply = .ok (.epoch epoch)

end RefoundationEntry

/-- `uuid4` draws no text that an earlier call drew or named. -/
def RefoundationCall.Fresh (log : List RefoundationEntry) (call : RefoundationCall) : Prop :=
  ∀ u, call.draws = some u → ∀ e ∈ log, u ∉ e.call.names

/-- The calls made of a new engine, latest first, and the engine they leave. -/
inductive RefoundationRun : List RefoundationEntry → RefoundationEngine → Prop
  | nil : RefoundationRun [] {}
  | call {log : List RefoundationEntry} {s : RefoundationEngine} (c : RefoundationCall)
      (hrun : RefoundationRun log s) (hfresh : c.Fresh log) :
      RefoundationRun (⟨s, c, (c.perform s).1, (c.perform s).2⟩ :: log) (c.perform s).2

namespace RefoundationRun

variable {log : List RefoundationEntry} {s : RefoundationEngine} {e e' : RefoundationEntry}

theorem earlier (hrun : RefoundationRun log s) (he : e ∈ log) :
    ∃ log', e :: log' <:+ log ∧ RefoundationRun log' e.before ∧ e.call.Fresh log' ∧
      (e.reply, e.after) = e.call.perform e.before := by
  induction hrun with
  | nil => cases he
  | call c hrun hfresh ih =>
    rcases List.mem_cons.mp he with rfl | he
    · exact ⟨_, List.suffix_rfl, hrun, hfresh, rfl⟩
    · obtain ⟨log', hsuffix, hrest⟩ := ih he
      exact ⟨log', hsuffix.trans (List.suffix_cons _ _), hrest⟩

theorem effect (hrun : RefoundationRun log s) (he : e ∈ log) {reply : RefoundationReply}
    (hreply : e.reply = .ok reply) : Effect e.before e.call reply e.after := by
  obtain ⟨_, -, -, -, heq⟩ := hrun.earlier he
  have hcases := e.call.perform_cases e.before
  rw [← heq] at hcases
  rcases hcases with ⟨⟨error, herror⟩, -⟩ | ⟨reply', hreply', heffect⟩
  · rw [show e.reply = .error error from herror] at hreply
    cases hreply
  · obtain rfl := Except.ok.inj (hreply.symm.trans hreply')
    exact heffect

theorem raised (hrun : RefoundationRun log s) (he : e ∈ log) {error : RefoundationError}
    (hreply : e.reply = .error error) : e.after = e.before := by
  obtain ⟨_, -, -, -, heq⟩ := hrun.earlier he
  have hcases := e.call.perform_cases e.before
  rw [← heq] at hcases
  rcases hcases with ⟨-, hsame⟩ | ⟨reply, hreply', -⟩
  · exact hsame
  · rw [show e.reply = .ok reply from hreply'] at hreply
    cases hreply

theorem draws_unique (hrun : RefoundationRun log s) {u : String} (he : e ∈ log) (he' : e' ∈ log)
    (hu : e.call.draws = some u) (hu' : e'.call.draws = some u) : e = e' := by
  induction hrun with
  | nil => cases he
  | call c hrun hfresh ih =>
    rcases List.mem_cons.mp he with rfl | he
    · rcases List.mem_cons.mp he' with rfl | he'
      · rfl
      · exact absurd (e'.call.mem_names_of_draws hu') (hfresh u hu e' he')
    · rcases List.mem_cons.mp he' with rfl | he'
      · exact absurd (e.call.mem_names_of_draws hu) (hfresh u hu' e he)
      · exact ih he he'

end RefoundationRun

/-! ## What a log tells of the engine -/

/-- The epochs are numbered from 1, and each but the first names the one before it. -/
abbrev Numbered (epochs : List ConstitutionalEpoch) : Prop :=
  HashChain.Grown (fun epoch => some epoch.epochId) (·.predecessorEpochId)
    (fun epoch => (epoch.epochNumber : ℤ)) none epochs

/-- **The engine, as the calls made of it have left it.** -/
structure History (log : List RefoundationEntry) (s : RefoundationEngine) : Prop where
  sound : ∀ pid p, s.proposals.get pid = some p → p.Sound
  drafted : ∀ pid p, s.proposals.get pid = some p → ∃ d ∈ log, d.Drafts pid p.currentEpochId
  known : ∀ d ∈ log, ∀ pid id, d.Drafts pid id → ∀ epoch ∈ s.epochs, epoch.epochId = id →
    epoch ∈ d.before.epochs
  rejected : ∀ e ∈ log, ∀ pid, e.Rejects pid →
    ∃ p, s.proposals.get pid = some p ∧ p.status = .rejected
  activated : ∀ e ∈ log, ∀ pid epoch, e.Activates pid epoch →
    ∃ p, s.proposals.get pid = some p ∧ p.status = .activated
  begun : ∀ epoch ∈ s.epochs, ∃ e ∈ log, ∃ pid, e.Activates pid epoch ∧
    e.call.draws = some epoch.epochId
  kept : ∀ e ∈ log, e.before.epochs <+: s.epochs ∧ e.after.epochs <+: s.epochs
  numbered : Numbered s.epochs
  current : s.currentEpoch = s.epochs.getLast?

namespace History

variable {log : List RefoundationEntry} {s s' : RefoundationEngine} {c : RefoundationCall}
variable {reply : RefoundationReply}

theorem init : History [] {} := by
  refine ⟨fun _ _ h => ?_, fun _ _ h => ?_, by simp, by simp, by simp, by simp, by simp,
    HashChain.grown_nil none, rfl⟩
  · cases h
  · cases h

theorem refused (h : History log s) {error : RefoundationError} :
    History (⟨s, c, .error error, s⟩ :: log) s := by
  refine ⟨h.sound, fun pid p hp => ?_, fun d hd pid id hdrafts => ?_, fun e he pid hrejects => ?_,
    fun e he pid epoch hactivates => ?_, fun epoch hepoch => ?_, fun e he => ?_, h.numbered,
    h.current⟩
  · obtain ⟨d, hd, hdrafts⟩ := h.drafted pid p hp
    exact ⟨d, List.mem_cons_of_mem _ hd, hdrafts⟩
  · rcases List.mem_cons.mp hd with rfl | hd
    · obtain ⟨⟨_, hreply⟩, -⟩ := hdrafts
      cases hreply
    · exact h.known d hd pid id hdrafts
  · rcases List.mem_cons.mp he with rfl | he
    · obtain ⟨⟨_, hreply⟩, -⟩ := hrejects
      cases hreply
    · exact h.rejected e he pid hrejects
  · rcases List.mem_cons.mp he with rfl | he
    · cases hactivates.2
    · exact h.activated e he pid epoch hactivates
  · obtain ⟨e, he, hrest⟩ := h.begun epoch hepoch
    exact ⟨e, List.mem_cons_of_mem _ he, hrest⟩
  · rcases List.mem_cons.mp he with rfl | he
    · exact ⟨List.prefix_rfl, List.prefix_rfl⟩
    · exact h.kept e he

theorem new (h : History log s) (hfresh : c.Fresh log) : Effect.New s c := by
  intro u hu
  by_contra hsome
  obtain ⟨p, hp⟩ := Option.ne_none_iff_exists'.mp hsome
  obtain ⟨d, hd, -, hdrafts⟩ := h.drafted u p hp
  exact hfresh u hu d hd (d.call.mem_names_of_draws (RefoundationCall.drafts_eq_some hdrafts).1)

theorem stays (h : History log s) (hfresh : c.Fresh log) (heffect : Effect s c reply s')
    {pid : String} {p : RefoundationProposal} (hp : s.proposals.get pid = some p)
    (hfinal : p.Final) : s'.proposals.get pid = some p :=
  heffect.final (h.new hfresh) hp hfinal

theorem numbered_nextEpoch (h : History log s) (epochId : String) (p : RefoundationProposal) :
    Numbered (s.epochs ++ [s.nextEpoch epochId p]) := by
  refine h.numbered.append ?_ ?_
  · have hnumber := h.numbered.position_eq (s.epochs.length - 1)
    simp only [RefoundationEngine.nextEpoch, h.current, List.getLast?_eq_getElem?]
    rcases hepochs : s.epochs with _ | ⟨first, rest⟩
    · rfl
    · rw [hepochs] at hnumber
      have hlast := hnumber (by simp)
      rw [List.getElem?_eq_getElem (by simp)]
      simp only [Option.map_some, Option.getD_some, Int.natCast_add, Int.cast_ofNat_Int]
      rw [hlast]
      simp
  · simp only [RefoundationEngine.nextEpoch, h.current]
    rcases s.epochs.getLast? with _ | epoch
    · rfl
    · rfl

theorem next (h : History log s) (hfresh : c.Fresh log) (heffect : Effect s c reply s') :
    History (⟨s, c, .ok reply, s'⟩ :: log) s' := by
  have hgrows := heffect.grows
  have hpre : s.epochs <+: s'.epochs := by
    rcases hgrows with ⟨-, hepochs, -⟩ | ⟨pid, epochId, p, -, -, hepochs, -⟩
    · exact hepochs ▸ List.prefix_rfl
    · exact hepochs ▸ List.prefix_append _ _
  refine ⟨fun pid p hp => heffect.sound h.sound hp, fun pid p' hp' => ?_,
    fun d hlog pid id hdrafts epoch hepoch hid => ?_, fun e he pid hrejects => ?_,
    fun e he pid epoch hactivates => ?_, fun epoch hepoch => ?_, fun e he => ?_, ?_, ?_⟩
  · rcases heffect.before hp' with ⟨p, hp, hbase⟩ | hdrafts
    · obtain ⟨d, hd, hdrafts⟩ := h.drafted pid p hp
      exact ⟨d, List.mem_cons_of_mem _ hd, hbase ▸ hdrafts⟩
    · exact ⟨_, List.mem_cons_self, ⟨reply, rfl⟩, hdrafts⟩
  · rcases List.mem_cons.mp hlog with rfl | hd
    · rw [(heffect.epochs (RefoundationCall.drafts_eq_some hdrafts.2).2.1).1] at hepoch
      exact hepoch
    · rcases hgrows with ⟨-, hepochs, -⟩ | ⟨pid', epochId, p, rfl, -, hepochs, -⟩
      · exact h.known d hd pid id hdrafts epoch (hepochs ▸ hepoch) hid
      · rw [hepochs, List.mem_append, List.mem_singleton] at hepoch
        rcases hepoch with hepoch | rfl
        · exact h.known d hd pid id hdrafts epoch hepoch hid
        · subst hid
          exact absurd (RefoundationCall.drafts_eq_some hdrafts.2).2.2 (hfresh epochId rfl d hd)
  · rcases List.mem_cons.mp he with rfl | he
    · exact heffect.rejection hrejects.2
    · obtain ⟨p, hp, hstatus⟩ := h.rejected e he pid hrejects
      exact ⟨p, h.stays hfresh heffect hp (.inl hstatus), hstatus⟩
  · rcases List.mem_cons.mp he with rfl | he
    · obtain ⟨epochId, p, -, -, -, -, -, -, rfl⟩ := heffect.activation hactivates.1
      exact ⟨_, by rw [Dict.get_set, if_pos rfl], rfl⟩
    · obtain ⟨p, hp, hstatus⟩ := h.activated e he pid epoch hactivates
      exact ⟨p, h.stays hfresh heffect hp (.inr hstatus), hstatus⟩
  · rcases hgrows with ⟨-, hepochs, -⟩ | ⟨pid, epochId, p, rfl, rfl, hepochs, -⟩
    · obtain ⟨e, he, hrest⟩ := h.begun epoch (hepochs ▸ hepoch)
      exact ⟨e, List.mem_cons_of_mem _ he, hrest⟩
    · rw [hepochs, List.mem_append, List.mem_singleton] at hepoch
      rcases hepoch with hepoch | rfl
      · obtain ⟨e, he, hrest⟩ := h.begun epoch hepoch
        exact ⟨e, List.mem_cons_of_mem _ he, hrest⟩
      · exact ⟨_, List.mem_cons_self, pid, ⟨rfl, rfl⟩, rfl⟩
  · rcases List.mem_cons.mp he with rfl | he
    · exact ⟨hpre, List.prefix_rfl⟩
    · exact ⟨(h.kept e he).1.trans hpre, (h.kept e he).2.trans hpre⟩
  · rcases hgrows with ⟨-, hepochs, -⟩ | ⟨pid, epochId, p, -, -, hepochs, -⟩
    · rw [hepochs]
      exact h.numbered
    · rw [hepochs]
      exact h.numbered_nextEpoch epochId p
  · rcases hgrows with ⟨-, hepochs, hcurrent⟩ | ⟨pid, epochId, p, -, -, hepochs, hcurrent⟩
    · rw [hepochs, hcurrent]
      exact h.current
    · rw [hepochs, hcurrent, List.getLast?_concat]

end History

theorem RefoundationRun.history {log : List RefoundationEntry} {s : RefoundationEngine}
    (hrun : RefoundationRun log s) : History log s := by
  induction hrun with
  | nil => exact History.init
  | @call log s c hrun hfresh ih =>
    rcases c.perform_cases s with ⟨⟨error, hreply⟩, hsame⟩ | ⟨reply, hreply, heffect⟩
    · rw [hreply, hsame]
      exact ih.refused
    · rw [hreply]
      exact ih.next hfresh heffect

/-- A list of calls, latest first, made of a new engine. -/
def replay : List RefoundationCall → List RefoundationEntry × RefoundationEngine
  | [] => ([], {})
  | c :: calls =>
    let (log, s) := replay calls
    let (reply, s') := c.perform s
    (⟨s, c, reply, s'⟩ :: log, s')

theorem replay_calls (calls : List RefoundationCall) : (replay calls).1.map (·.call) = calls := by
  induction calls with
  | nil => rfl
  | cons c calls ih => exact congrArg (c :: ·) ih

theorem replay_run {calls : List RefoundationCall}
    (h : calls.Pairwise fun later earlier => ∀ u ∈ later.draws, u ∉ earlier.names) :
    RefoundationRun (replay calls).1 (replay calls).2 := by
  induction h with
  | nil => exact .nil
  | @cons c calls hfresh h ih =>
    refine .call c ih fun u hu e he => hfresh e.call ?_ u hu
    rw [← replay_calls calls]
    exact List.mem_map_of_mem he

/-! ## Every epoch is earned -/

/-- What a proposal carries when it is activated. -/
structure RefoundationProposal.Earned (p : RefoundationProposal) : Prop where
  human : p.proposerRole = "human_operator"
  approvals : ∀ role, ∃ a, p.approvalOf role = some a ∧ a.role = role.name ∧ a.approved = true ∧
    a.approverId ≠ p.proposerId
  sandbox : ∃ results, p.sandboxResults = some results ∧ results.passed = true ∧
    results.degradationDetected = false

/-- **An epoch history, with the calls that have made it.** -/
structure EpochsEarned (log : List RefoundationEntry) (epochs : List ConstitutionalEpoch) :
    Prop where
  /-- Each epoch comes of the activation of exactly one proposal. -/
  created : ∀ epoch ∈ epochs, ∃! pid, ∃ e ∈ log, e.Activates pid epoch
  /-- A proposal that is activated is one that has earned it. -/
  earned : ∀ e ∈ log, ∀ pid epoch, e.Activates pid epoch →
    ∃ p, e.before.proposals.get pid = some p ∧ p.Earned ∧ epoch.createdBy = p.proposerId
  /-- A proposal that is rejected is activated neither before nor after. -/
  neverBoth : ∀ e ∈ log, ∀ e' ∈ log, ∀ pid epoch, e.Rejects pid → ¬e'.Activates pid epoch
  number : ∀ i (h : i < epochs.length), epochs[i].epochNumber = i + 1
  first : ∀ h : 0 < epochs.length, epochs[0].predecessorEpochId = none
  predecessor : ∀ i (h : i + 1 < epochs.length),
    epochs[i + 1].predecessorEpochId = some epochs[i].epochId
  /-- The epochs that a call has left are the first ones for good. -/
  kept : ∀ e ∈ log, e.before.epochs <+: e.after.epochs ∧ e.after.epochs <+: epochs
  raises : ∀ e ∈ log, ∀ error, e.reply = .error error → e.after = e.before

namespace RefoundationRun

variable {log : List RefoundationEntry} {s : RefoundationEngine} {e e' : RefoundationEntry}
variable {pid pid' : String} {epoch : ConstitutionalEpoch}

theorem activation (hrun : RefoundationRun log s) (he : e ∈ log)
    (hactivates : e.Activates pid epoch) :
    ∃ p, e.before.proposals.get pid = some p ∧ p.Earned ∧
      e.call.draws = some epoch.epochId ∧
      epoch = e.before.nextEpoch epoch.epochId p ∧
      e.after.epochs = e.before.epochs ++ [epoch] := by
  obtain ⟨log', -, hbefore, -, -⟩ := hrun.earlier he
  obtain ⟨epochId, p, hcall, hreply, hp, hstatus, hroles, ⟨results, hresults, hclean⟩, hafter⟩ :=
    (hrun.effect he hactivates.2).activation hactivates.1
  obtain rfl : epoch = e.before.nextEpoch epochId p := by
    injection hreply
  have hsound := hbefore.history.sound pid p hp
  refine ⟨p, hp, ⟨hsound.human, fun role => ?_, results, hresults, ?_⟩, ?_, rfl, ?_⟩
  · obtain ⟨a, ha, happroved⟩ := hroles role
    obtain ⟨hname, hother⟩ := hsound.decision role a ha
    exact ⟨a, ha, hname, happroved, hother⟩
  · simpa [SandboxExecutionResult.clean] using hclean
  · rw [hcall]
    rfl
  · rw [hafter]

/-- **Every constitutional epoch is earned**, and the epochs are a chain. -/
theorem epochsEarned (hrun : RefoundationRun log s) : EpochsEarned log s.epochs := by
  have hhistory := hrun.history
  refine ⟨fun epoch hepoch => ?_, fun e he pid epoch hactivates => ?_,
    fun e he e' he' pid epoch hrejects hactivates => ?_, fun i hi => ?_, hhistory.numbered.first,
    hhistory.numbered.next, fun e he => ⟨?_, (hhistory.kept e he).2⟩, fun e he error =>
      hrun.raised he⟩
  · obtain ⟨e, he, pid, hactivates, hdraws⟩ := hhistory.begun epoch hepoch
    refine ⟨pid, ⟨e, he, hactivates⟩, ?_⟩
    rintro pid' ⟨e', he', hactivates'⟩
    obtain ⟨-, -, -, hdraws', -, -⟩ := hrun.activation he' hactivates'
    obtain rfl := hrun.draws_unique he he' hdraws hdraws'
    exact Option.some_inj.mp (hactivates'.1.symm.trans hactivates.1)
  · obtain ⟨p, hp, hearned, -, hnext, -⟩ := hrun.activation he hactivates
    exact ⟨p, hp, hearned, by rw [hnext]; rfl⟩
  · obtain ⟨p, hp, hrejected⟩ := hhistory.rejected e he pid hrejects
    obtain ⟨p', hp', hactivated⟩ := hhistory.activated e' he' pid epoch hactivates
    obtain rfl := Option.some_inj.mp (hp.symm.trans hp')
    rw [hrejected] at hactivated
    cases hactivated
  · have hnumber := hhistory.numbered.position_eq i hi
    omega
  · rcases hreply : e.reply with error | reply
    · exact hrun.raised he hreply ▸ List.prefix_rfl
    · rcases (hrun.effect he hreply).grows with ⟨-, hepochs, -⟩ | ⟨_, _, _, -, -, hepochs, -⟩
      · exact hepochs ▸ List.prefix_rfl
      · exact hepochs ▸ List.prefix_append _ _

/-- **A settled proposal stays as it is**: whatever call has found it rejected or activated, it is
still the same at the end. -/
theorem final_kept (hrun : RefoundationRun log s) : ∀ e ∈ log, ∀ pid p,
    e.before.proposals.get pid = some p → p.Final → s.proposals.get pid = some p := by
  induction hrun with
  | nil => exact fun e he => absurd he List.not_mem_nil
  | @call log s c hrun hfresh ih =>
    intro e he pid p hp hfinal
    -- found by the last call or by an earlier one, it was there before the last
    have hs : s.proposals.get pid = some p := by
      rcases List.mem_cons.mp he with rfl | he
      · exact hp
      · exact ih e he pid p hp hfinal
    rcases c.perform_cases s with ⟨-, hsame⟩ | ⟨reply, -, heffect⟩
    · rwa [hsame]
    · exact hrun.history.stays hfresh heffect hs hfinal

end RefoundationRun

/-- A proposal written against an epoch, approved by the three roles, tested and activated: the
calls, latest first. -/
def refound (proposalId currentEpochId epochId : String) : List RefoundationCall :=
  [.activate proposalId epochId,
    .recordSandboxResults proposalId ⟨"sandbox", true, false⟩,
    .addApproval proposalId "judicial" "judge" true "",
    .addApproval proposalId "executive" "minister" true "",
    .addApproval proposalId "legislative" "member" true "",
    .submitForReview proposalId,
    .createProposal proposalId "founder" "human_operator" currentEpochId Dict.empty
      { invariantHash := "" } "A justification that is long enough: at least fifty characters."
      "" ""]

theorem epochsEarned_first :
    (replay (refound "p1" "" "e1")).2.epochs.map (·.createdBy) = ["founder"] ∧
      EpochsEarned (replay (refound "p1" "" "e1")).1 (replay (refound "p1" "" "e1")).2.epochs :=
  ⟨by decide, RefoundationRun.epochsEarned (replay_run (by decide))⟩

/-- The proposal is activated once more, which is refused. -/
theorem final_kept_activated :
    ((replay (.activate "p1" "e2" :: refound "p1" "" "e1")).2.proposals.get "p1").map
      (·.newEpochId) = some (some "e1") := by
  have hrun : RefoundationRun (replay (.activate "p1" "e2" :: refound "p1" "" "e1")).1
    (replay (.activate "p1" "e2" :: refound "p1" "" "e1")).2 := replay_run (by decide)
  rw [hrun.final_kept _ List.mem_cons_self "p1" _ rfl (.inr rfl)]
  rfl

/-! ## Which epoch an epoch replaces -/

/-- The proposal is activated, and was written against the epoch. -/
def RefoundationEntry.Replaces (e : RefoundationEntry) (pid currentEpochId : String) : Prop :=
  ∃ epoch p, e.Activates pid epoch ∧ e.before.proposals.get pid = some p ∧
    p.currentEpochId = currentEpochId

/-- **No lost update**: an epoch replaces the one that its proposal was written against. -/
structure NeverOverwrites (log : List RefoundationEntry) : Prop where
  named : ∀ e ∈ log, ∀ pid id, e.Replaces pid id → ∀ current, e.before.currentEpoch = some current →
    current.epochId = id
  /-- Of two proposals written against one epoch, at most one is activated. -/
  atMostOne : ∀ e ∈ log, ∀ e' ∈ log, ∀ pid pid' id, e.Replaces pid id → e'.Replaces pid' id →
    pid = pid'

/-- Each proposal that is activated names the epoch that was current when it was drafted, if there
was one, and no other proposal was activated between its draft and its activation. -/
def DraftedAgainst (log : List RefoundationEntry) : Prop :=
  ∀ e ∈ log, ∀ pid epoch, e.Activates pid epoch → ∃ d ∈ log, ∃ id, d.Drafts pid id ∧
    d.before.epochs = e.before.epochs ∧
    ∀ current, d.before.currentEpoch = some current → current.epochId = id

namespace RefoundationRun

variable {log : List RefoundationEntry} {s : RefoundationEngine} {e e' d : RefoundationEntry}
variable {pid pid' id id' : String} {epoch epoch' : ConstitutionalEpoch}

theorem before_history (hrun : RefoundationRun log s) (he : e ∈ log) :
    ∃ log', (∀ d ∈ log', d ∈ log) ∧ History log' e.before := by
  obtain ⟨log', hsuffix, hbefore, -, -⟩ := hrun.earlier he
  exact ⟨log', fun d hd => hsuffix.subset (List.mem_cons_of_mem _ hd), hbefore.history⟩

theorem drafts_unique (hrun : RefoundationRun log s) (hd : d ∈ log) (he : e ∈ log)
    (hdrafts : d.Drafts pid id) (hdrafts' : e.Drafts pid id') : d = e ∧ id = id' := by
  obtain rfl := hrun.draws_unique hd he (RefoundationCall.drafts_eq_some hdrafts.2).1
    (RefoundationCall.drafts_eq_some hdrafts'.2).1
  exact ⟨rfl, (Prod.mk.inj (Option.some_inj.mp (hdrafts.2.symm.trans hdrafts'.2))).2⟩

theorem replaces_drafts (hrun : RefoundationRun log s) (he : e ∈ log) (h : e.Replaces pid id) :
    ∃ d ∈ log, d.Drafts pid id ∧ d.before.epochs <+: e.before.epochs ∧
      ∀ current ∈ e.before.epochs, current.epochId = id → current ∈ d.before.epochs := by
  obtain ⟨log', hsub, hhistory⟩ := hrun.before_history he
  obtain ⟨epoch, p, -, hp, rfl⟩ := h
  obtain ⟨d, hd, hdrafts⟩ := hhistory.drafted pid p hp
  exact ⟨d, hsub d hd, hdrafts, (hhistory.kept d hd).1, hhistory.known d hd pid _ hdrafts⟩

theorem ordered (hrun : RefoundationRun log s) (he : e ∈ log) (he' : e' ∈ log) :
    e = e' ∨ (e'.after.epochs <+: e.before.epochs ∧ e.before.epochs <+: s.epochs) ∨
      (e.after.epochs <+: e'.before.epochs ∧ e'.before.epochs <+: s.epochs) := by
  have hhistory := hrun.history
  have hkept := (hhistory.kept e he).1
  have hkept' := (hhistory.kept e' he').1
  clear hhistory
  induction hrun with
  | nil => cases he
  | @call log t c hrun hfresh ih =>
    rcases List.mem_cons.mp he with rfl | hmem
    · rcases List.mem_cons.mp he' with rfl | hmem'
      · exact .inl rfl
      · exact .inr (.inl ⟨(hrun.history.kept e' hmem').2, hkept⟩)
    · rcases List.mem_cons.mp he' with rfl | hmem'
      · exact .inr (.inr ⟨(hrun.history.kept e hmem).2, hkept'⟩)
      · rcases ih hmem hmem' (hrun.history.kept e hmem).1 (hrun.history.kept e' hmem').1 with
          heq | ⟨hafter, -⟩ | ⟨hafter, -⟩
        · exact .inl heq
        · exact .inr (.inl ⟨hafter, hkept⟩)
        · exact .inr (.inr ⟨hafter, hkept'⟩)

end RefoundationRun

theorem Numbered.prefix_eq {epochs before : List ConstitutionalEpoch}
    {current : ConstitutionalEpoch} (h : Numbered epochs) (hpre : before <+: epochs)
    (hcurrent : epochs.getLast? = some current)
    (hmem : current ∈ before) : before = epochs := by
  obtain ⟨i, hi, hget⟩ := List.getElem_of_mem hmem
  rw [List.getLast?_eq_getElem?, List.getElem?_eq_some_iff] at hcurrent
  obtain ⟨hlast, hgetLast⟩ := hcurrent
  have hi' : i < epochs.length := Nat.lt_of_lt_of_le hi hpre.length_le
  have hnumber := h.position_eq i hi'
  have hnumberLast := h.position_eq _ hlast
  rw [← hpre.getElem hi, hget] at hnumber
  rw [hgetLast] at hnumberLast
  exact hpre.eq_of_length_le (by omega)

namespace RefoundationRun

variable {log : List RefoundationEntry} {s : RefoundationEngine} {e e' : RefoundationEntry}
variable {pid pid' id : String}

theorem current_eq (hrun : RefoundationRun log s) (he : e ∈ log) :
    e.before.currentEpoch = e.before.epochs.getLast? := by
  obtain ⟨_, -, hhistory⟩ := hrun.before_history he
  exact hhistory.current

theorem numbered (hrun : RefoundationRun log s) (he : e ∈ log) : Numbered e.before.epochs := by
  obtain ⟨_, -, hhistory⟩ := hrun.before_history he
  exact hhistory.numbered

theorem not_replaces_again (hrun : RefoundationRun log s) (he : e ∈ log) (he' : e' ∈ log)
    (hnamed : ∀ current, e.before.currentEpoch = some current → current.epochId = id)
    (h' : e'.Replaces pid' id) (hafter : e'.after.epochs <+: e.before.epochs)
    (hlater : e.before.epochs <+: s.epochs) : False := by
  obtain ⟨d, hd, hdrafts, hpre, -⟩ := hrun.replaces_drafts he' h'
  obtain ⟨epoch, -, hactivates, -⟩ := h'
  obtain ⟨-, -, -, -, -, hepochs⟩ := hrun.activation he' hactivates
  rw [hepochs] at hafter
  rcases hcurrent : e.before.epochs.getLast? with _ | current
  · rw [List.getLast?_eq_none_iff.mp hcurrent, List.prefix_nil] at hafter
    exact absurd hafter (List.append_ne_nil_of_right_ne_nil _ (List.cons_ne_nil _ _))
  · have hid := hnamed current (hrun.current_eq he ▸ hcurrent)
    have hmem := hrun.history.known d hd pid' id hdrafts current
      (hlater.subset (List.mem_of_getLast? hcurrent)) hid
    have hbefore := (List.prefix_append _ _).trans hafter
    have heq := (hrun.numbered he).prefix_eq hbefore hcurrent (hpre.subset hmem)
    have hlength := hafter.length_le
    rw [heq, List.length_append, List.length_singleton] at hlength
    omega

/-- **When no epoch is overwritten**: exactly where each proposal that is activated was written
against the epoch that it replaces. -/
theorem neverOverwrites_iff (hrun : RefoundationRun log s) :
    NeverOverwrites log ↔ DraftedAgainst log := by
  constructor
  · intro h e he pid epoch hactivates
    obtain ⟨p, hp, -⟩ := hrun.activation he hactivates
    have hreplaces : e.Replaces pid p.currentEpochId := ⟨epoch, p, hactivates, hp, rfl⟩
    obtain ⟨d, hd, hdrafts, hpre, hknown⟩ := hrun.replaces_drafts he hreplaces
    have hnamed := h.named e he pid _ hreplaces
    have hepochs : d.before.epochs = e.before.epochs := by
      rcases hcurrent : e.before.epochs.getLast? with _ | current
      · rw [List.getLast?_eq_none_iff.mp hcurrent] at hpre ⊢
        exact List.prefix_nil.mp hpre
      · exact (hrun.numbered he).prefix_eq hpre hcurrent
          (hknown current (List.mem_of_getLast? hcurrent)
            (hnamed current (hrun.current_eq he ▸ hcurrent)))
    refine ⟨d, hd, _, hdrafts, hepochs, fun current hcurrent => hnamed current ?_⟩
    rw [hrun.current_eq he, ← hepochs, ← hrun.current_eq hd]
    exact hcurrent
  · intro h
    have hnamed : ∀ e ∈ log, ∀ pid id, e.Replaces pid id →
        ∀ current, e.before.currentEpoch = some current → current.epochId = id := by
      intro e he pid id hreplaces current hcurrent
      obtain ⟨d, hd, hdrafts, -⟩ := hrun.replaces_drafts he hreplaces
      obtain ⟨epoch, -, hactivates, -⟩ := hreplaces
      obtain ⟨d', hd', id', hdrafts', hepochs, hnamed⟩ := h e he pid epoch hactivates
      obtain ⟨rfl, rfl⟩ := hrun.drafts_unique hd hd' hdrafts hdrafts'
      refine hnamed current ?_
      rw [hrun.current_eq hd, hepochs, ← hrun.current_eq he]
      exact hcurrent
    refine ⟨hnamed, fun e he e' he' pid pid' id hreplaces hreplaces' => ?_⟩
    rcases hrun.ordered he he' with rfl | ⟨hafter, hlater⟩ | ⟨hafter, hlater⟩
    · obtain ⟨_, _, hactivates, -⟩ := hreplaces
      obtain ⟨_, _, hactivates', -⟩ := hreplaces'
      exact Option.some_inj.mp (hactivates.1.symm.trans hactivates'.1)
    · exact (hrun.not_replaces_again he he' (hnamed e he pid id hreplaces) hreplaces' hafter
        hlater).elim
    · exact (hrun.not_replaces_again he' he (hnamed e' he' pid' id hreplaces') hreplaces hafter
        hlater).elim

end RefoundationRun

theorem neverOverwrites_first :
    NeverOverwrites (replay (refound "p1" "" "e1")).1 ↔
      DraftedAgainst (replay (refound "p1" "" "e1")).1 :=
  RefoundationRun.neverOverwrites_iff (replay_run (by decide))

/-- Two proposals written against the first epoch, the second drafted before the first is activated:
the calls, latest first. -/
def overlapping : List RefoundationCall :=
  (refound "p2" "e0" "e2").dropLast ++ refound "p1" "e0" "e1" ++
    (refound "p2" "e0" "e2").getLast?.toList ++ refound "p0" "" "e0"

/-- Both are activated: the second replaces the epoch that the first has begun, and names the one
before. -/
theorem overlapping_overwrites :
    RefoundationRun (replay overlapping).1 (replay overlapping).2 ∧
      ¬NeverOverwrites (replay overlapping).1 := by
  refine ⟨replay_run (by decide), fun h => ?_⟩
  have hnamed := h.named _ List.mem_cons_self "p2" "e0" ⟨_, _, ⟨rfl, rfl⟩, rfl, rfl⟩ _ rfl
  revert hnamed
  decide

end EnhancedAgentBus.Constitutional
