import EnhancedAgentBus.MessageProcessor.GovernanceCoordinator

/-!
# The shadow observes, the enforced core decides

In the shadow mode a run refuses what it refuses in the legacy mode, and one of the three counters
counts it, exactly where the legacy core answers and nothing that is asked of the swarm core raises
what the coordinator does not expect.  In the enforced mode the swarm core is never passed by: a
message that needs an independent validator names one, if it came through the gate, so its peers
have been asked.
-/

namespace EnhancedAgentBus.MessageProcessor

open Bus

namespace GovernanceCore

variable {core : GovernanceCore} {input : GovernanceInput}

/-- The core has validated the input locally, and if it is allowed, asked the peers and given a
score. -/
structure Validates (core : GovernanceCore) (input : GovernanceInput)
    (localDecision : GovernanceDecision) (peerValidation : Option PeerValidationDecision)
    (trustScore : Option ℚ) : Prop where
  validated : core.validateLocal input = .ok localDecision
  asked : if localDecision.allowed then
      core.validatePeer input = .ok peerValidation ∧
        core.scoreGovernance input peerValidation = .ok trustScore
    else peerValidation = none ∧ trustScore = none

/-- A call of the swarm core in a run over the input raises. -/
inductive SwarmRaises (core : GovernanceCore) (input : GovernanceInput) (raised : Raised) : Prop
  | validateLocal (h : core.validateLocal input = .error raised)
  | validatePeer (localDecision : GovernanceDecision)
      (hlocal : core.validateLocal input = .ok localDecision)
      (hallowed : localDecision.allowed = true) (h : core.validatePeer input = .error raised)
  | scoreGovernance (localDecision : GovernanceDecision)
      (peerValidation : Option PeerValidationDecision)
      (hlocal : core.validateLocal input = .ok localDecision)
      (hallowed : localDecision.allowed = true)
      (hpeer : core.validatePeer input = .ok peerValidation)
      (h : core.scoreGovernance input peerValidation = .error raised)
  | buildReceipt (localDecision : GovernanceDecision)
      (peerValidation : Option PeerValidationDecision) (trustScore : Option ℚ)
      (hvalidates : core.Validates input localDecision peerValidation trustScore)
      (h : core.buildReceipt input (combine localDecision peerValidation trustScore) =
        .error raised)

theorem swarmDecide_cases (core : GovernanceCore) (input : GovernanceInput) :
    (∃ raised, core.swarmDecide input = .error raised ∧ core.SwarmRaises input raised) ∨
    (∃ localDecision peerValidation trustScore receipt,
      core.swarmDecide input = .ok (combine localDecision peerValidation trustScore, receipt) ∧
      core.Validates input localDecision peerValidation trustScore ∧
      core.buildReceipt input (combine localDecision peerValidation trustScore) = .ok receipt) := by
  unfold swarmDecide
  rcases hlocal : core.validateLocal input with raised | localDecision
  · exact .inl ⟨raised, rfl, .validateLocal hlocal⟩
  · have hlast : ∀ peerValidation trustScore,
        core.Validates input localDecision peerValidation trustScore →
        (∃ raised, (core.buildReceipt input (combine localDecision peerValidation trustScore)) =
          .error raised ∧ core.SwarmRaises input raised) ∨
        ∃ receipt, core.buildReceipt input (combine localDecision peerValidation trustScore) =
          .ok receipt := by
      intro peerValidation trustScore hvalidates
      cases hreceipt :
          core.buildReceipt input (combine localDecision peerValidation trustScore) with
      | error raised =>
        exact .inl ⟨raised, rfl, .buildReceipt localDecision _ _ hvalidates hreceipt⟩
      | ok receipt => exact .inr ⟨receipt, rfl⟩
    rcases hallowed : localDecision.allowed with _ | _
    · have hvalidates : core.Validates input localDecision none none :=
        ⟨hlocal, by rw [hallowed]; exact ⟨rfl, rfl⟩⟩
      rcases hlast none none hvalidates with ⟨raised, hreceipt, hraises⟩ | ⟨receipt, hreceipt⟩
      · refine .inl ⟨raised, ?_, hraises⟩
        simp [bind, Except.bind, pure, Except.pure, hallowed, hreceipt]
      · refine .inr ⟨localDecision, none, none, receipt, ?_, hvalidates, hreceipt⟩
        simp [bind, Except.bind, pure, Except.pure, hallowed, hreceipt]
    · rcases hpeer : core.validatePeer input with raised | peerValidation
      · refine .inl ⟨raised, ?_, .validatePeer localDecision hlocal hallowed hpeer⟩
        simp [bind, Except.bind, hallowed]
      · rcases hscore : core.scoreGovernance input peerValidation with raised | trustScore
        · refine .inl ⟨raised, ?_,
            .scoreGovernance localDecision peerValidation hlocal hallowed hpeer hscore⟩
          simp [bind, Except.bind, hallowed, hscore]
        · have hvalidates : core.Validates input localDecision peerValidation trustScore :=
            ⟨hlocal, by rw [hallowed]; exact ⟨hpeer, hscore⟩⟩
          rcases hlast peerValidation trustScore hvalidates with
            ⟨raised, hreceipt, hraises⟩ | ⟨receipt, hreceipt⟩
          · refine .inl ⟨raised, ?_, hraises⟩
            simp [bind, Except.bind, hallowed, hscore, hreceipt]
          · refine .inr ⟨localDecision, peerValidation, trustScore, receipt, ?_, hvalidates,
              hreceipt⟩
            simp [bind, Except.bind, pure, Except.pure, hallowed, hscore, hreceipt]

theorem swarmDecide_of_raises {raised : Raised} (h : core.SwarmRaises input raised) :
    core.swarmDecide input = .error raised := by
  unfold swarmDecide
  cases h with
  | validateLocal h => simp [bind, Except.bind, h]
  | validatePeer localDecision hlocal hallowed h =>
    simp [bind, Except.bind, hlocal, hallowed, h]
  | scoreGovernance localDecision peerValidation hlocal hallowed hpeer h =>
    simp [bind, Except.bind, hlocal, hallowed, hpeer, h]
  | buildReceipt localDecision peerValidation trustScore hvalidates h =>
    obtain ⟨hlocal, hasked⟩ := hvalidates
    rcases hallowed : localDecision.allowed with _ | _
    · rw [hallowed] at hasked
      obtain ⟨rfl, rfl⟩ := hasked
      simp [bind, Except.bind, pure, Except.pure, hlocal, hallowed, h]
    · rw [hallowed] at hasked
      obtain ⟨hpeer, hscore⟩ := hasked
      simp [bind, Except.bind, hlocal, hallowed, hpeer, hscore, h]

theorem swarmDecide_error_iff {raised : Raised} :
    core.swarmDecide input = .error raised ↔ core.SwarmRaises input raised := by
  constructor
  · intro h
    rcases core.swarmDecide_cases input with ⟨raised', h', hraises⟩ | ⟨_, _, _, _, h', -⟩
    · rw [h] at h'
      cases h'
      exact hraises
    · rw [h] at h'
      cases h'
  · exact swarmDecide_of_raises

def LegacyAnswers (core : GovernanceCore) (input : GovernanceInput) : Prop :=
  ∃ decision receipt, core.validateLocal input = .ok decision ∧
    core.buildReceipt input decision = .ok receipt

theorem legacyDecide_ok_iff :
    (∃ decided, core.legacyDecide input = .ok decided) ↔ core.LegacyAnswers input := by
  unfold legacyDecide LegacyAnswers
  rcases hlocal : core.validateLocal input with raised | decision
  · simp [bind, Except.bind]
  · rcases hreceipt : core.buildReceipt input decision with raised | receipt
    · simp [bind, Except.bind, hreceipt]
    · simp [bind, Except.bind, pure, Except.pure, hreceipt]

end GovernanceCore

/-! ## The shadow mode -/

def GovernanceRun.Refuses (r : GovernanceRun) : Prop := ∃ failure, r.result = .ok (some failure)

def GovernanceRun.passes (r : GovernanceRun) : Bool :=
  match r.result with
  | .ok none => true
  | _ => false

theorem GovernanceRun.passes_iff {r : GovernanceRun} : r.passes = true ↔ r.result = .ok none := by
  unfold passes
  split
  · next h => simp [h]
  · next h => simpa using h

namespace GovernanceCoordinator

def inMode (C : GovernanceCoordinator) (mode : GovernanceCoreMode) : GovernanceCoordinator :=
  { C with governanceCoreMode := mode }

/-- Exactly one of the counters of the shadow mode has grown, by one. -/
def OneGrows (C C' : GovernanceCoordinator) : Prop :=
  (C'.shadowMatches, C'.shadowMismatches, C'.shadowErrors) ∈
    [(C.shadowMatches + 1, C.shadowMismatches, C.shadowErrors),
      (C.shadowMatches, C.shadowMismatches + 1, C.shadowErrors),
      (C.shadowMatches, C.shadowMismatches, C.shadowErrors + 1)]

variable {C C' : GovernanceCoordinator}

theorem not_oneGrows_self {mode : GovernanceCoreMode} : ¬OneGrows C (C.inMode mode) := by
  unfold OneGrows inMode
  simp

section Finish

variable {context : GovernanceContext} {input : GovernanceInput} {decision : GovernanceDecision}
  {receipt : GovernanceReceipt} {shadowMetadata : Option ShadowMetadata}

theorem finish_decision :
    (C.finish context input decision receipt shadowMetadata).context.governanceDecision =
      some decision := by
  unfold finish
  dsimp only
  split
  · rfl
  · rfl

theorem finish_refuses :
    (C.finish context input decision receipt shadowMetadata).Refuses ↔ decision.allowed = false := by
  unfold GovernanceRun.Refuses finish
  dsimp only
  split
  · next hallowed => simp [hallowed]
  · next hrefused => simp [hrefused]

theorem finish_passes
    (h : (C.finish context input decision receipt shadowMetadata).result = .ok none) :
    decision.allowed = true := by
  unfold finish at h
  dsimp only at h
  split at h
  · next hallowed => exact hallowed
  · cases h

theorem oneGrows_finish :
    OneGrows C (C'.finish context input decision receipt shadowMetadata).coordinator ↔
      OneGrows C C' := by
  unfold finish OneGrows
  dsimp only
  split
  · exact Iff.rfl
  · exact Iff.rfl

end Finish

variable [PrintTable] (C) (env : GovernanceEnvironment) (legacy swarm : GovernanceCore)
  (context : GovernanceContext)

/-- The shadow mode refuses what the legacy mode refuses, stores the same decision, and counts the
run once. -/
structure ShadowObserves : Prop where
  refuses : ((C.inMode .shadow).run env legacy swarm context).Refuses ↔
    ((C.inMode .legacy).run env legacy swarm context).Refuses
  decision : ((C.inMode .shadow).run env legacy swarm context).context.governanceDecision =
    ((C.inMode .legacy).run env legacy swarm context).context.governanceDecision
  counted : OneGrows C ((C.inMode .shadow).run env legacy swarm context).coordinator

/-- The input is built, the legacy core answers, and of the swarm core nothing is asked that raises
what the coordinator does not expect. -/
def ShadowServed : Prop :=
  ∃ input, C.buildGovernanceInput env context.message = .ok input ∧ legacy.LegacyAnswers input ∧
    (swarm.isAvailable = .ok false ∨ swarm.isAvailable = .ok true ∧
      ∀ raised, swarm.SwarmRaises input raised → raised.expected = true)

variable {C env legacy swarm context}

theorem run_of_legacy_error {mode : GovernanceCoreMode} {input : GovernanceInput} {raised : Raised}
    (hbuild : C.buildGovernanceInput env context.message = .ok input)
    (hlegacy : legacy.legacyDecide input = .error raised) :
    (C.inMode mode).run env legacy swarm context =
      ⟨.error raised, C.inMode mode, { context with governanceInput := some input }⟩ := by
  have hbuild' : (C.inMode mode).buildGovernanceInput env context.message = .ok input := hbuild
  unfold run
  rw [hbuild']
  dsimp only
  rw [hlegacy]

theorem run_of_legacy_ok {mode : GovernanceCoreMode} {input : GovernanceInput}
    {decided : GovernanceDecision × GovernanceReceipt}
    (hbuild : C.buildGovernanceInput env context.message = .ok input)
    (hlegacy : legacy.legacyDecide input = .ok decided) :
    (C.inMode mode).run env legacy swarm context =
      (C.inMode mode).runDecided env swarm { context with governanceInput := some input } input
        decided := by
  have hbuild' : (C.inMode mode).buildGovernanceInput env context.message = .ok input := hbuild
  unfold run
  rw [hbuild']
  dsimp only
  rw [hlegacy]

theorem observes_of_finish {input : GovernanceInput}
    {decided : GovernanceDecision × GovernanceReceipt} {shadowMetadata : Option ShadowMetadata}
    (hbuild : C.buildGovernanceInput env context.message = .ok input)
    (hlegacy : legacy.legacyDecide input = .ok decided) (hgrows : OneGrows C C')
    (hshadow : (C.inMode .shadow).run env legacy swarm context =
      C'.finish { context with governanceInput := some input } input decided.1 decided.2
        shadowMetadata) : C.ShadowObserves env legacy swarm context := by
  have hrun : (C.inMode .legacy).run env legacy swarm context =
      (C.inMode .legacy).finish { context with governanceInput := some input } input decided.1
        decided.2 none := by
    have hbuild' : (C.inMode .legacy).buildGovernanceInput env context.message = .ok input := hbuild
    unfold run
    rw [hbuild']
    dsimp only
    rw [hlegacy]
    rfl
  refine ⟨?_, ?_, ?_⟩
  · rw [hrun, hshadow, finish_refuses, finish_refuses]
  · rw [hrun, hshadow, finish_decision, finish_decision]
  · rw [hshadow]
    exact oneGrows_finish.mpr hgrows

theorem not_observes_of_raised {raised : Raised} {context' : GovernanceContext}
    (hshadow : (C.inMode .shadow).run env legacy swarm context =
      ⟨.error raised, C.inMode .shadow, context'⟩) : ¬C.ShadowObserves env legacy swarm context := by
  intro h
  have hcounted := h.counted
  rw [hshadow] at hcounted
  exact not_oneGrows_self hcounted

theorem shadowObserves_of_available {input : GovernanceInput}
    {decided : GovernanceDecision × GovernanceReceipt}
    (hbuild : C.buildGovernanceInput env context.message = .ok input)
    (hlegacy : legacy.legacyDecide input = .ok decided)
    (hrun : (C.inMode .shadow).run env legacy swarm context =
      (C.inMode .shadow).runSwarm env swarm { context with governanceInput := some input } input
        decided) :
    C.ShadowObserves env legacy swarm context ↔
      ∀ raised, swarm.swarmDecide input = .error raised → raised.expected = true := by
  unfold runSwarm at hrun
  cases hswarm : swarm.swarmDecide input with
  | ok swarmDecided =>
    rw [hswarm] at hrun
    refine iff_of_true (observes_of_finish hbuild hlegacy ?_ hrun) nofun
    unfold OneGrows inMode
    dsimp only
    split
    · simp
    · simp
  | error raised =>
    rw [hswarm] at hrun
    dsimp only at hrun
    rcases hexpected : raised.expected with _ | _
    · rw [if_pos hexpected] at hrun
      refine iff_of_false (not_observes_of_raised hrun) fun h => ?_
      have htrue := h raised rfl
      rw [hexpected] at htrue
      cases htrue
    · rw [if_neg (by rw [hexpected]; nofun), if_neg nofun] at hrun
      refine iff_of_true (observes_of_finish hbuild hlegacy ?_ hrun) ?_
      · unfold OneGrows
        simp [inMode]
      · rintro _ ⟨⟩
        exact hexpected

theorem shadowObserves_iff : C.ShadowObserves env legacy swarm context ↔
    C.ShadowServed env legacy swarm context := by
  rcases hbuild : C.buildGovernanceInput env context.message with raised | input
  · have hbuild' : (C.inMode .shadow).buildGovernanceInput env context.message = .error raised :=
      hbuild
    have hrun : (C.inMode .shadow).run env legacy swarm context =
        ⟨.error raised, C.inMode .shadow, context⟩ := by
      unfold run
      rw [hbuild']
    refine iff_of_false (not_observes_of_raised hrun) ?_
    · rintro ⟨input, hinput, -⟩
      rw [hbuild] at hinput
      cases hinput
  · have hserved : C.ShadowServed env legacy swarm context ↔ legacy.LegacyAnswers input ∧
        (swarm.isAvailable = .ok false ∨ swarm.isAvailable = .ok true ∧
          ∀ raised, swarm.SwarmRaises input raised → raised.expected = true) := by
      unfold ShadowServed
      rw [hbuild]
      simp
    rcases hlegacy : legacy.legacyDecide input with raised | decided
    · refine iff_of_false (not_observes_of_raised (run_of_legacy_error hbuild hlegacy)) ?_
      rw [hserved, ← GovernanceCore.legacyDecide_ok_iff, hlegacy]
      rintro ⟨⟨_, ⟨⟩⟩, -⟩
    · have hanswers : legacy.LegacyAnswers input :=
        GovernanceCore.legacyDecide_ok_iff.mp ⟨decided, hlegacy⟩
      rw [and_iff_right hanswers] at hserved
      have hrun : (C.inMode .shadow).run env legacy swarm context =
          (C.inMode .shadow).runDecided env swarm { context with governanceInput := some input }
            input decided := run_of_legacy_ok hbuild hlegacy
      unfold runDecided at hrun
      dsimp only [inMode] at hrun
      rcases havailable : swarm.isAvailable with raised | available
      · rw [havailable] at hrun
        refine iff_of_false (not_observes_of_raised hrun) ?_
        rw [hserved, havailable]
        rintro (h | ⟨h, -⟩) <;> cases h
      · rw [havailable] at hrun
        rcases available with _ | _
        · refine iff_of_true (observes_of_finish hbuild hlegacy ?_ hrun)
            (hserved.mpr (.inl havailable))
          unfold OneGrows
          simp
        · have hserved : C.ShadowServed env legacy swarm context ↔
              ∀ raised, swarm.swarmDecide input = .error raised →
                raised.expected = true := by
            rw [hserved, havailable]
            simp [GovernanceCore.swarmDecide_error_iff]
          rw [hserved]
          exact shadowObserves_of_available hbuild hlegacy hrun

end GovernanceCoordinator

/-! ## The enforced mode -/

theorem strippedText_ne {value : Json} {text : String} (h : strippedText value = some text) :
    text ≠ "" := by
  unfold strippedText at h
  split at h
  · exact of_decide_eq_true (Option.filter_eq_some_iff.mp h).2
  · cases h

theorem exists_validator_of_gate {threshold : ℚ} {msg : AgentMessage}
    (hneeds : requiresIndependentValidation threshold msg = true)
    (hgate : enforceIndependentValidatorGate true threshold msg = none) :
    ∃ key ∈ ["validated_by_agent", "independent_validator_id"],
      strippedText (getItem msg.metadata key) ≠ none := by
  unfold enforceIndependentValidatorGate at hgate
  rw [if_neg nofun, if_neg (by rw [hneeds]; nofun)] at hgate
  dsimp only at hgate
  split at hgate
  · rename_i text hvalidator
    split at hgate
    · cases hgate
    · rename_i htext
      split at hvalidator
      · exact ⟨"validated_by_agent", by simp, by rwa [hvalidator]⟩
      · exact ⟨"independent_validator_id", by simp, by rwa [hvalidator]⟩
  · cases hgate

theorem combine_allowed {localDecision : GovernanceDecision}
    {peerValidation : Option PeerValidationDecision} {trustScore : Option ℚ} :
    (combine localDecision peerValidation trustScore).allowed = true ↔
      localDecision.allowed = true ∧ ∀ peer, peerValidation = some peer → peer.approved = true := by
  unfold combine
  rcases peerValidation with _ | peer
  · simp
  · simp

namespace GovernanceCoordinator

variable {C : GovernanceCoordinator} {env : GovernanceEnvironment} {legacy swarm : GovernanceCore}
  {context : GovernanceContext}

theorem runSwarm_passes {input : GovernanceInput}
    {decided : GovernanceDecision × GovernanceReceipt}
    (hmode : C.governanceCoreMode = .swarmEnforced)
    (h : (C.runSwarm env swarm context input decided).result = .ok none) :
    ∃ swarmDecided, swarm.swarmDecide input = .ok swarmDecided ∧
      swarmDecided.1.allowed = true := by
  unfold runSwarm at h
  cases hdecide : swarm.swarmDecide input with
  | ok swarmDecided =>
    rw [hdecide] at h
    unfold compare at h
    dsimp only at h
    rw [if_pos hmode] at h
    exact ⟨swarmDecided, rfl, finish_passes h⟩
  | error raised =>
    rw [hdecide] at h
    dsimp only at h
    rw [if_pos hmode] at h
    split at h
    · cases h
    · cases h

variable [PrintTable]

variable (C env swarm) in
/-- The swarm core has allowed the message locally, a peer validation of it was approved if it
requires an independent validator, and no call of the swarm core has failed. -/
def SwarmLetsPass (msg : AgentMessage) : Prop :=
  ∃ input, C.buildGovernanceInput env msg = .ok input ∧
    (∃ localDecision, swarm.validateLocal input = .ok localDecision ∧
      localDecision.allowed = true) ∧
    (C.requireIndependentValidator = true →
      requiresIndependentValidation C.independentValidatorThreshold msg = true →
      ∃ peer, swarm.validatePeer input = .ok (some peer) ∧ peer.approved = true) ∧
    ∀ raised, ¬swarm.SwarmRaises input raised

theorem names_validator {msg : AgentMessage} {input : GovernanceInput}
    (hbuild : C.buildGovernanceInput env msg = .ok input)
    (hgate : enforceIndependentValidatorGate C.requireIndependentValidator
      C.independentValidatorThreshold msg = none)
    (hrequire : C.requireIndependentValidator = true)
    (hneeds : requiresIndependentValidation C.independentValidatorThreshold msg = true) :
    input.requiresIndependentValidator = true ∧ dedupeStrings input.validatorIds ≠ [] := by
  rw [hrequire] at hgate
  obtain ⟨key, hkey, hnamed⟩ := exists_validator_of_gate hneeds hgate
  obtain ⟨validatorId, hvalidator⟩ := Option.ne_none_iff_exists'.mp hnamed
  unfold buildGovernanceInput at hbuild
  dsimp only at hbuild
  rcases hhash : env.contentHash (String.ofList msg.content.pyStr) with raised | contentHash
  · rw [hhash] at hbuild
    cases hbuild
  · rw [hhash] at hbuild
    cases hbuild
    dsimp only
    rw [hrequire, hneeds]
    refine ⟨rfl, List.ne_nil_of_mem (a := validatorId) ?_⟩
    unfold dedupeStrings
    rw [List.mem_eraseDups, List.mem_filter, List.mem_eraseDups, List.mem_filterMap]
    exact ⟨⟨key, hkey, hvalidator⟩, decide_eq_true (strippedText_ne hvalidator)⟩

/-- **The enforced core decides.** -/
theorem swarmLetsPass (henabled : swarm.PeerValidationEnabled)
    (hgate : enforceIndependentValidatorGate C.requireIndependentValidator
      C.independentValidatorThreshold context.message = none)
    (hpasses : ((C.inMode .swarmEnforced).run env legacy swarm context).result = .ok none) :
    C.SwarmLetsPass env swarm context.message := by
  rcases hbuild : C.buildGovernanceInput env context.message with raised | input
  · have hbuild' : (C.inMode .swarmEnforced).buildGovernanceInput env context.message =
      .error raised := hbuild
    unfold run at hpasses
    rw [hbuild'] at hpasses
    cases hpasses
  · rcases hlegacy : legacy.legacyDecide input with raised | decided
    · rw [run_of_legacy_error hbuild hlegacy] at hpasses
      cases hpasses
    · rw [run_of_legacy_ok hbuild hlegacy] at hpasses
      obtain ⟨swarmDecided, hdecide, hallowed⟩ := runSwarm_passes rfl hpasses
      rcases swarm.swarmDecide_cases input with ⟨raised, hdecide', -⟩ |
        ⟨localDecision, peerValidation, trustScore, receipt, hdecide', hvalidates, -⟩
      · rw [hdecide] at hdecide'
        cases hdecide'
      · rw [hdecide] at hdecide'
        cases hdecide'
        obtain ⟨hlocal, hpeers⟩ := combine_allowed.mp hallowed
        obtain ⟨hvalidated, hasked⟩ := hvalidates
        rw [hlocal] at hasked
        refine ⟨input, hbuild, ⟨localDecision, hvalidated, hlocal⟩, fun hrequire hneeds => ?_,
          fun raised hraises => ?_⟩
        · obtain ⟨hrequires, hids⟩ := names_validator hbuild hgate hrequire hneeds
          rcases hpeer : peerValidation with _ | peer
          · rw [hpeer] at hasked
            exact absurd hasked.1 (henabled input hrequires hids)
          · rw [hpeer] at hasked
            exact ⟨peer, hasked.1, hpeers peer hpeer⟩
        · rw [GovernanceCore.swarmDecide_of_raises hraises] at hdecide
          cases hdecide

/-- **The shadow observes exactly where it is served, and the enforced core decides.**  Over every
message, every legacy and every swarm core: the shadow mode observes if and only if the legacy core
answers and the swarm core raises nothing unexpected; what the enforced mode lets pass, from behind
the gate, the swarm core has allowed with its peers, if it has peers validate; and so does the swarm
core that there is, with peer validation enabled. -/
theorem governance_modes :
    (∀ (C : GovernanceCoordinator) (env : GovernanceEnvironment) (legacy swarm : GovernanceCore)
        (context : GovernanceContext),
      C.ShadowObserves env legacy swarm context ↔ C.ShadowServed env legacy swarm context) ∧
    (∀ (C : GovernanceCoordinator) (env : GovernanceEnvironment) (legacy swarm : GovernanceCore)
        (context : GovernanceContext), swarm.PeerValidationEnabled →
      enforceIndependentValidatorGate C.requireIndependentValidator
        C.independentValidatorThreshold context.message = none →
      ((C.inMode .swarmEnforced).run env legacy swarm context).result = .ok none →
      C.SwarmLetsPass env swarm context.message) ∧
    (∀ (swarm : SwarmGovernanceCore) (now : ℚ), swarm.enablePeerValidation = true →
      (swarm.core now).PeerValidationEnabled) :=
  ⟨fun _ _ _ _ _ => shadowObserves_iff,
    fun _ _ _ _ _ henabled hgate hpasses => swarmLetsPass henabled hgate hpasses,
    fun _ now h => SwarmGovernanceCore.peerValidationEnabled h now⟩

end GovernanceCoordinator

/-! ## Two runs -/

section Runs

def coordinator : GovernanceCoordinator :=
  { governanceCoreMode := .legacy, constitutionalHash := constitutionalHash
    requireIndependentValidator := true, independentValidatorThreshold := 4 / 5 }

def environment : GovernanceEnvironment := { contentHash := .ok, now := 0 }

def validatedMessage : AgentMessage :=
  { messageId := "m", conversationId := "c", content := .str "deploy", fromAgent := "a"
    impactScore := some 1, metadata := .obj [("validated_by_agent", .str "v")] }

/-- A swarm core whose constitution answers so, and whose peers accept everything. -/
def swarmWith (dna : String → Except Raised LocalResult) : SwarmGovernanceCore :=
  { expectedConstitutionalHash := constitutionalHash, swarmAvailable := true
    constitution := some constitutionalHash, dna := dna, lower := id
    mesh :=
      { register := fun _ _ _ _ => .ok ()
        fullValidation := fun _ _ _ _ =>
          .ok { accepted := true, quorumMet := true, votesFor := 1, votesAgainst := 0
                assignmentId := none, proof := none, manifoldSummary := none
                reputation := fun _ => 1 } } }

/-- The constitution divides by zero: the shadow mode raises what the legacy mode lets pass, and
counts nothing. -/
theorem shadow_raises :
    ¬(letI : PrintTable := asciiPrintable
      coordinator.ShadowObserves environment
        (({ expectedConstitutionalHash := constitutionalHash } : LegacyGovernanceCore).core 0)
        ((swarmWith fun _ => .error ⟨.other "ZeroDivisionError", "division by zero"⟩).core 0)
        { message := validatedMessage }) := by
  intro h
  let _ : PrintTable := asciiPrintable
  have hcounted := h.counted
  unfold GovernanceCoordinator.OneGrows at hcounted
  revert hcounted
  decide +kernel

/-- A message that its validator accepts. -/
theorem governance_modes_accepted :
    letI := asciiPrintable
    coordinator.SwarmLetsPass environment
      ((swarmWith fun _ => .ok ⟨true, []⟩).core 0) validatedMessage :=
  (@GovernanceCoordinator.governance_modes asciiPrintable).2.1 coordinator environment
    (({ expectedConstitutionalHash := constitutionalHash } : LegacyGovernanceCore).core 0)
    ((swarmWith fun _ => .ok ⟨true, []⟩).core 0) { message := validatedMessage }
    ((@GovernanceCoordinator.governance_modes asciiPrintable).2.2 (swarmWith fun _ => .ok ⟨true, []⟩)
      0 rfl)
    (by decide +kernel) (GovernanceRun.passes_iff.mp (by decide +kernel))

end Runs

end EnhancedAgentBus.MessageProcessor
