import EnhancedAgentBus.MessageProcessor.ShadowGovernance

/-!
# Whether a validator is independent

The gate reads one of two keys and compares its text with the sender as it stands; the input of
governance takes both keys, without the space around their texts.  So the sender can be a validator
of its own message, under the other key or with a blank before its name (`Distinct`).
-/

namespace EnhancedAgentBus.MessageProcessor

open Bus Constitutional.ProposalEngine

def GateRefusal.result : GateRefusal → ValidationResult
  | .validatorMissing =>
    { isValid := false
      errors := ["Independent validator metadata is required for this message"]
      metadata := .obj [("rejection_reason", .str "independent_validator_missing")] }
  | .selfValidation =>
    { isValid := false
      errors := ["Independent validator must not be the originating agent"]
      metadata := .obj [("rejection_reason", .str "independent_validator_self_validation")] }
  | .invalidStage =>
    { isValid := false
      errors := ["validation_stage must be 'independent' when validator evidence is present"]
      metadata := .obj [("rejection_reason", .str "independent_validator_invalid_stage")] }

def runMessageValidationGates (autonomyGate securityScan independentValidatorGate
    promptInjectionGate : AgentMessage → Option ValidationResult) (msg : AgentMessage) :
    Option ValidationResult :=
  (autonomyGate msg).or <| (securityScan msg).or <|
    (independentValidatorGate msg).or <| promptInjectionGate msg

/-- The coordinator, over any rules of the tiers and any scanner. -/
structure GateCoordinator where
  requireIndependentValidator : Bool
  independentValidatorThreshold : ℚ
  enforceAutonomyTier : AgentMessage → Option ValidationResult
  performSecurityScan : AgentMessage → Option ValidationResult
  detectPromptInjection : AgentMessage → Option ValidationResult

namespace GateCoordinator

variable (G : GateCoordinator)

def gates (msg : AgentMessage) : Option ValidationResult :=
  runMessageValidationGates G.enforceAutonomyTier G.performSecurityScan
    (fun msg => (enforceIndependentValidatorGate G.requireIndependentValidator
      G.independentValidatorThreshold msg).map GateRefusal.result) G.detectPromptInjection msg

/-- `run`, with the result of governance for a message that the gates let pass. -/
def run (msg : AgentMessage) (governanceRunner : AgentMessage → Option ValidationResult) :
    Option ValidationResult :=
  match G.gates msg with
  | some refusal => some refusal
  | none => governanceRunner msg

/-- The coordinator passes a message to governance. -/
def PassesOn (msg : AgentMessage) : Prop :=
  ∀ governanceRunner, G.run msg governanceRunner = governanceRunner msg

variable {G}

theorem PassesOn.gate {msg : AgentMessage} (h : G.PassesOn msg) :
    enforceIndependentValidatorGate G.requireIndependentValidator G.independentValidatorThreshold
      msg = none := by
  have hgates : G.gates msg = none := by
    have hrun := h fun _ => none
    rw [run] at hrun
    split at hrun
    · cases hrun
    · assumption
  simp only [gates, runMessageValidationGates, Option.or_eq_none_iff] at hgates
  exact Option.map_eq_none_iff.mp hgates.2.2.1

end GateCoordinator

def gateValidator (msg : AgentMessage) : Json :=
  if (getItem msg.metadata "validated_by_agent").truthy then
    getItem msg.metadata "validated_by_agent"
  else getItem msg.metadata "independent_validator_id"

theorem gateValidator_of_gate {threshold : ℚ} {msg : AgentMessage}
    (hneeds : requiresIndependentValidation threshold msg = true)
    (hgate : enforceIndependentValidatorGate true threshold msg = none) :
    ∃ text, gateValidator msg = .str text ∧ strippedText (.str text) ≠ none ∧
      text ≠ msg.fromAgent := by
  unfold enforceIndependentValidatorGate at hgate
  rw [if_neg Bool.false_ne_true.symm, hneeds, if_neg Bool.false_ne_true.symm] at hgate
  dsimp only at hgate
  split at hgate
  · next text hvalidator =>
    split at hgate
    · cases hgate
    · next htext =>
      split at hgate
      · cases hgate
      · next hother => exact ⟨text, hvalidator, htext, hother⟩
  · cases hgate

/-- **The condition**: the validator that the gate reads is not the sender with other space around
its name, and no other validator is the sender. -/
structure Distinct (msg : AgentMessage) : Prop where
  spelled : ∀ text, gateValidator msg = .str text → strip text = strip msg.fromAgent →
    text = msg.fromAgent
  other : (getItem msg.metadata "validated_by_agent").truthy = true →
    strippedText (getItem msg.metadata "independent_validator_id") ≠ some (strip msg.fromAgent)

theorem strippedText_of_not_truthy {value : Json} (h : value.truthy = false) :
    strippedText value = none := by
  cases value with
  | str text =>
    have hempty : text.toList = [] := by simpa [Json.truthy] using h
    rw [strippedText, strip, hempty]
    rfl
  | _ => rfl

theorem strippedText_str {text : String} (h : strippedText (.str text) ≠ none) :
    strippedText (.str text) = some (strip text) := by
  obtain ⟨stripped, hstripped⟩ := Option.ne_none_iff_exists'.mp h
  rw [hstripped]
  unfold strippedText at hstripped
  exact (Option.filter_eq_some_iff.mp hstripped).1.symm

theorem mem_validatorIds [PrintTable] {C : GovernanceCoordinator} {env : GovernanceEnvironment}
    {msg : AgentMessage} {input : GovernanceInput}
    (hbuild : C.buildGovernanceInput env msg = .ok input) (validatorId : String) :
    validatorId ∈ input.validatorIds ↔
      strippedText (getItem msg.metadata "validated_by_agent") = some validatorId ∨
        strippedText (getItem msg.metadata "independent_validator_id") = some validatorId := by
  unfold GovernanceCoordinator.buildGovernanceInput at hbuild
  dsimp only at hbuild
  rcases hhash : env.contentHash (String.ofList msg.content.pyStr) with raised | contentHash
  · rw [hhash] at hbuild
    cases hbuild
  · rw [hhash] at hbuild
    cases hbuild
    simp only [List.mem_eraseDups, List.mem_filterMap, List.mem_cons, List.not_mem_nil, or_false,
      exists_eq_or_imp, exists_eq_left]

/-- **The validators are others than the sender**, of a message that was passed on, if its
validators are distinct from it. -/
theorem validators_independent_iff [PrintTable] (G : GateCoordinator) (C : GovernanceCoordinator)
    (env : GovernanceEnvironment) {msg : AgentMessage} {input : GovernanceInput}
    (hrequire : G.requireIndependentValidator = true)
    (hneeds : requiresIndependentValidation G.independentValidatorThreshold msg = true)
    (hpasses : G.PassesOn msg) (hbuild : C.buildGovernanceInput env msg = .ok input) :
    (input.validatorIds ≠ [] ∧ ∀ validatorId ∈ input.validatorIds,
      validatorId ≠ strip msg.fromAgent) ↔ Distinct msg := by
  obtain ⟨text, hvalidator, hblank, hsender⟩ :=
    gateValidator_of_gate hneeds (hrequire ▸ hpasses.gate)
  have hstripped := strippedText_str hblank
  have hspelled : (∀ text', gateValidator msg = .str text' → strip text' = strip msg.fromAgent →
      text' = msg.fromAgent) ↔ strip text ≠ strip msg.fromAgent := by
    constructor
    · exact fun h heq => hsender (h text hvalidator heq)
    · intro h text' hvalidator' heq
      obtain rfl := Json.str.inj (hvalidator.symm.trans hvalidator')
      exact absurd heq h
  rw [← hvalidator] at hstripped
  have hiff : Distinct msg ↔ _ ∧ _ := ⟨fun h => ⟨h.spelled, h.other⟩, fun h => ⟨h.1, h.2⟩⟩
  rw [hiff, hspelled]
  unfold gateValidator at hstripped
  split at hstripped
  · next htruthy =>
    have hne := List.ne_nil_of_mem ((mem_validatorIds hbuild (strip text)).mpr (.inl hstripped))
    simp only [hne, ne_eq, not_false_eq_true, true_and, mem_validatorIds hbuild, hstripped, htruthy,
      forall_const]
    constructor
    · exact fun h => ⟨h (strip text) (.inl rfl), fun hother => h _ (.inr hother) rfl⟩
    · rintro ⟨hspelled, hother⟩ validatorId (hfirst | hsecond) rfl
      · exact hspelled (Option.some_inj.mp hfirst)
      · exact hother hsecond
  · next htruthy =>
    have hnone := strippedText_of_not_truthy (Bool.eq_false_iff.mpr htruthy)
    have hne := List.ne_nil_of_mem ((mem_validatorIds hbuild (strip text)).mpr (.inr hstripped))
    simp only [hne, ne_eq, not_false_eq_true, true_and, mem_validatorIds hbuild, hstripped, htruthy,
      hnone, false_imp_iff, and_true, reduceCtorEq, false_or, Option.some_inj, forall_eq']

/-- Gates that let everything pass but what names no independent validator. -/
def openGates : GateCoordinator :=
  { requireIndependentValidator := true, independentValidatorThreshold := 4 / 5
    enforceAutonomyTier := fun _ => none, performSecurityScan := fun _ => none
    detectPromptInjection := fun _ => none }

theorem openGates_passesOn {msg : AgentMessage} (h : (openGates.gates msg).isNone = true) :
    openGates.PassesOn msg := fun governanceRunner => by
  rw [GateCoordinator.run, Option.isNone_iff_eq_none.mp h]

theorem validators_independent_iff_validated : letI := asciiPrintable
    ∃ input, coordinator.buildGovernanceInput environment validatedMessage = .ok input ∧
      input.validatorIds ≠ [] ∧ ∀ validatorId ∈ input.validatorIds,
        validatorId ≠ strip validatedMessage.fromAgent := by
  let _ : PrintTable := asciiPrintable
  obtain ⟨input, hbuild⟩ : ∃ input, coordinator.buildGovernanceInput environment
      validatedMessage = .ok input := ⟨_, rfl⟩
  refine ⟨input, hbuild, (validators_independent_iff openGates coordinator environment rfl
    (by decide +kernel) (openGates_passesOn (by decide +kernel)) hbuild).mpr ⟨?_, ?_⟩⟩
  · rintro text htext hsame
    obtain rfl := Json.str.inj htext
    exact absurd hsame (by decide +kernel)
  · exact fun _ => by decide +kernel

def ownMessage : AgentMessage :=
  { validatedMessage with
    metadata := .obj [("validated_by_agent", .str "v"), ("independent_validator_id", .str "a")] }

theorem ownMessage_validates_itself : letI := asciiPrintable
    openGates.PassesOn ownMessage ∧
      requiresIndependentValidation openGates.independentValidatorThreshold ownMessage = true ∧
      ∃ input, coordinator.buildGovernanceInput environment ownMessage = .ok input ∧
        strip ownMessage.fromAgent ∈ input.validatorIds := by
  let _ : PrintTable := asciiPrintable
  refine ⟨openGates_passesOn (by decide +kernel), by decide +kernel, _, rfl, ?_⟩
  decide +kernel

end EnhancedAgentBus.MessageProcessor
