import EnhancedAgentBus.Maci.Registry

/-!
# The enforcer

`validate_action` with the checks it makes on the target of a validation: the agent aimed at, and
the producer of the output aimed at.  A check answers with the exception that it raises, if any, and
with what it writes to the validation log.

Nothing is awaited but the registry, whose lock is free, so an action is validated in one step.
Instants and the hash of results are left out.
-/

namespace EnhancedAgentBus.Maci

structure MACIValidationResult where
  isValid : Bool
  violationType : Option String := none
  errorMessage : Option String := none
  details : List (String × String) := []
  sessionId : Option String := none
  deriving DecidableEq

/-- `MACIError` and its kinds -/
inductive MACIError where
  | roleViolation (agentId role action : String) (allowedRoles : List String)
  | selfValidation (agentId action : String) (outputId : Option String)
  | crossRoleValidation (validatorAgent validatorRole targetAgent targetRole reason : String)
  | roleNotAssigned (agentId operation : String)
  deriving DecidableEq

/-- What a check raises, and what it adds to the log. -/
abbrev Checked := Option MACIError × List MACIValidationResult

/-- The `target_type` of `_verify_target_role_constraint` -/
inductive TargetType where
  | agent
  | producer
  deriving DecidableEq

/-- `target_type` -/
def TargetType.text : TargetType → String
  | agent => "agent"
  | producer => "producer"

def TargetType.capitalize : TargetType → String
  | agent => "Agent"
  | producer => "Producer"

def maxMaciValidationHistory : ℕ := 10000

structure MACIEnforcer where
  registry : MACIRoleRegistry := {}
  strictMode : Bool := true
  validationLog : List MACIValidationResult := []

namespace MACIEnforcer

variable (enforcer : MACIEnforcer)

/-- The bounded deque: the oldest results are forgotten. -/
def boundedLog (log : List MACIValidationResult) : List MACIValidationResult :=
  log.drop (log.length - maxMaciValidationHistory)

/-- `self._validation_log.append` -/
def appendLog (results : List MACIValidationResult) : MACIEnforcer :=
  { enforcer with validationLog := boundedLog (enforcer.validationLog ++ results) }

@[simp] theorem appendLog_registry (results : List MACIValidationResult) :
    (enforcer.appendLog results).registry = enforcer.registry := by
  rw [appendLog]

def verifyTargetRoleConstraint (record : MACIAgentRecord) (agentId : String)
    (targetAgent : Option MACIAgentRecord) (targetId : String) (targetType : TargetType)
    (sessionId : Option String) (notFoundActionName : String) : Checked :=
  match targetAgent with
  | none =>
    if enforcer.strictMode then
      -- raised for an agent only: a producer not found is logged, and let through
      (if targetType = .agent then some (.roleNotAssigned targetId notFoundActionName) else none,
        [{ isValid := false
           violationType := some "target_not_found"
           errorMessage := some (targetType.capitalize ++ " " ++ targetId ++ " not found")
           sessionId := sessionId
           details := [("target_" ++ targetType.text ++ "_id", targetId)] }])
    else (none, [])
  | some target =>
    if !record.canValidateRole target.role then
      (some (.crossRoleValidation agentId record.role.value target.agentId target.role.value
          "Role constraint violation"),
        [{ isValid := false
           violationType := some "cross_role"
           sessionId := sessionId
           details := [("agent_id", agentId), ("agent_role", record.role.value),
             ("target_" ++ targetType.text ++ "_id", target.agentId),
             (targetType.text ++ "_role", target.role.value)] }])
    else (none, [])

def checkCrossAgentConstraint (record : MACIAgentRecord) (agentId targetAgentId : String)
    (sessionId : Option String) : Checked :=
  if agentId = targetAgentId then
    (some (.selfValidation agentId MACIAction.validate.value none),
      [{ isValid := false
         violationType := some "self_validation"
         sessionId := sessionId
         details := [("agent_id", agentId), ("action", MACIAction.validate.value)] }])
  else
    enforcer.verifyTargetRoleConstraint record agentId
      (enforcer.registry.getAgent targetAgentId sessionId) targetAgentId .agent sessionId
      "validate_target"

/-- The record of `producer_id`: an empty one is none. -/
def producerRecord (producerId : Option String) (sessionId : Option String) :
    Option MACIAgentRecord :=
  match producerId with
  | none | some "" => none
  | some producerId => enforcer.registry.getAgent producerId sessionId

def checkOutputOwnershipConstraint (record : MACIAgentRecord) (agentId targetOutputId : String)
    (sessionId : Option String) : Checked :=
  let producerId := enforcer.registry.getOutputProducer targetOutputId sessionId
  if producerId = some agentId ∨ targetOutputId ∈ record.outputs then
    (some (.selfValidation agentId "validate" (some targetOutputId)),
      [{ isValid := false
         violationType := some "self_validation"
         sessionId := sessionId
         details := [("agent_id", agentId), ("target_output_id", targetOutputId)] }])
  else
    enforcer.verifyTargetRoleConstraint record agentId
      (enforcer.producerRecord producerId sessionId) targetOutputId .producer sessionId ""

/-- One check after another: the first that raises is the last. -/
def bothChecks (first second : Checked) : Checked :=
  match first with
  | (some error, log) => (some error, log)
  | (none, log) => (second.1, log ++ second.2)

/-- The checks of a validation: an empty id aims at nothing. -/
def checkTargets (record : MACIAgentRecord) (agentId : String)
    (targetOutputId targetAgentId sessionId : Option String) : Checked :=
  bothChecks
    (match targetAgentId with
    | none | some "" => (none, [])
    | some target => enforcer.checkCrossAgentConstraint record agentId target sessionId)
    (match targetOutputId with
    | none | some "" => (none, [])
    | some target => enforcer.checkOutputOwnershipConstraint record agentId target sessionId)

/-- The roles with a permission, as `MACIRoleViolationError` names them. -/
def allowedRoles (action : MACIAction) : List String :=
  (roles.filter fun role => action ∈ rolePermissions role).map MACIRole.value

def validateAction (agentId : String) (action : MACIAction)
    (targetOutputId targetAgentId sessionId : Option String) :
    Except MACIError MACIValidationResult × MACIEnforcer :=
  match enforcer.registry.getAgent agentId sessionId with
  | none =>
    let details := [("agent_id", agentId), ("action", action.value)]
    if enforcer.strictMode then
      (.error (.roleNotAssigned agentId action.value), enforcer.appendLog
        [{ isValid := false, violationType := some "not_assigned", sessionId, details }])
    else if action ≠ .query then
      (.error (.roleViolation agentId "unregistered" action.value []), enforcer.appendLog
        [{ isValid := false, violationType := some "unregistered_agent_non_query", sessionId,
           details }])
    else (.ok { isValid := true, sessionId }, enforcer)
  | some record =>
    if !record.canPerform action then
      (.error (.roleViolation agentId record.role.value action.value (allowedRoles action)),
        enforcer.appendLog
          [{ isValid := false
             violationType := some "role_violation"
             sessionId := sessionId
             details := [("agent_id", agentId), ("role", record.role.value),
               ("action", action.value)] }])
    else
      match if action = .validate then
          enforcer.checkTargets record agentId targetOutputId targetAgentId sessionId
        else (none, []) with
      | (some error, log) => (.error error, enforcer.appendLog log)
      | (none, log) =>
        let result : MACIValidationResult :=
          { isValid := true
            sessionId := sessionId
            details := [("agent_id", agentId), ("action", action.value),
              ("agent_role", record.role.value)] }
        (.ok result, enforcer.appendLog (log ++ [result]))

/-! ## When a validation succeeds -/

def Allows (agentId : String) (action : MACIAction)
    (targetOutputId targetAgentId sessionId : Option String) : Prop :=
  ∃ result,
    (enforcer.validateAction agentId action targetOutputId targetAgentId sessionId).1 = .ok result

def Seated (agentId : String) (sessionId : Option String) : Prop :=
  enforcer.registry.roleOf agentId sessionId = some .judicial

/-- The registered role of an agent is one that a judicial agent may validate. -/
def Judgeable (agentId : String) (sessionId : Option String) : Prop :=
  ∃ role ∈ validationConstraints .judicial,
    enforcer.registry.roleOf agentId sessionId = some role

/-- The agent aimed at, if any, is another one, of a role that a judicial agent may validate; one
that is not registered is passed over when the mode is not strict. -/
def TargetAdmitted (agentId : String) (targetAgentId sessionId : Option String) : Prop :=
  ∀ target, targetAgentId = some target → target ≠ "" → target ≠ agentId ∧
    (enforcer.Judgeable target sessionId ∨
      enforcer.registry.roleOf target sessionId = none ∧ enforcer.strictMode = false)

variable {enforcer}

@[simp] theorem validateAction_registry (agentId : String) (action : MACIAction)
    (targetOutputId targetAgentId sessionId : Option String) :
    (enforcer.validateAction agentId action targetOutputId targetAgentId sessionId).2.registry =
      enforcer.registry := by
  unfold validateAction
  split
  · split
    · exact appendLog_registry ..
    · split
      · exact appendLog_registry ..
      · rfl
  · split
    · exact appendLog_registry ..
    · split
      · exact appendLog_registry ..
      · exact appendLog_registry ..

variable {record : MACIAgentRecord} {agentId : String} {sessionId targetAgentId : Option String}

theorem canPerform_validate_iff : record.canPerform .validate = true ↔ record.role = .judicial := by
  rw [MACIAgentRecord.canPerform]
  cases record.role <;> simp [rolePermissions]

theorem verifyTargetRoleConstraint_passes_iff {targetAgent : Option MACIAgentRecord}
    {targetId : String} {targetType : TargetType} {notFoundActionName : String} :
    (enforcer.verifyTargetRoleConstraint record agentId targetAgent targetId targetType sessionId
        notFoundActionName).1 = none ↔
      (targetAgent = none → targetType = .agent → enforcer.strictMode = false) ∧
        ∀ target, targetAgent = some target → record.canValidateRole target.role := by
  unfold verifyTargetRoleConstraint
  rcases targetAgent with _ | target
  · rcases hstrict : enforcer.strictMode with _ | _
    · simp
    · simp
  · rcases hrole : record.canValidateRole target.role with _ | _
    · simp [hrole]
    · simp [hrole]

theorem bothChecks_passes_iff {first second : Checked} :
    (bothChecks first second).1 = none ↔ first.1 = none ∧ second.1 = none := by
  obtain ⟨error, log⟩ := first
  rcases error with _ | error
  · exact (and_iff_right rfl).symm
  · exact iff_of_false (Option.some_ne_none error) fun h => Option.some_ne_none _ h.1

theorem judgeable_of_getAgent {target : MACIAgentRecord}
    (h : enforcer.registry.getAgent agentId sessionId = some target) :
    enforcer.Judgeable agentId sessionId ↔ target.role ∈ validationConstraints .judicial := by
  rw [Judgeable, MACIRoleRegistry.roleOf, h]
  constructor
  · rintro ⟨role, hmem, hrole⟩
    rw [Option.map_some, Option.some.injEq] at hrole
    exact hrole ▸ hmem
  · intro hmem
    exact ⟨target.role, hmem, rfl⟩

theorem checkCrossAgentConstraint_passes_iff (hrole : record.role = .judicial)
    {targetAgentId : String} :
    (enforcer.checkCrossAgentConstraint record agentId targetAgentId sessionId).1 = none ↔
      targetAgentId ≠ agentId ∧ (enforcer.Judgeable targetAgentId sessionId ∨
        enforcer.registry.roleOf targetAgentId sessionId = none ∧ enforcer.strictMode = false) := by
  unfold checkCrossAgentConstraint
  by_cases hself : agentId = targetAgentId
  · simp [hself]
  · rw [if_neg hself, verifyTargetRoleConstraint_passes_iff, and_iff_right (Ne.symm hself)]
    rcases htarget : enforcer.registry.getAgent targetAgentId sessionId with _ | target
    · simp [Judgeable, MACIRoleRegistry.roleOf, htarget]
    · rw [judgeable_of_getAgent htarget]
      simp [MACIAgentRecord.canValidateRole, hrole, MACIRoleRegistry.roleOf, htarget]

theorem checkOutputOwnershipConstraint_passes_iff (hrole : record.role = .judicial)
    {targetOutputId : String} :
    (enforcer.checkOutputOwnershipConstraint record agentId targetOutputId sessionId).1 = none ↔
      enforcer.registry.getOutputProducer targetOutputId sessionId ≠ some agentId ∧
        targetOutputId ∉ record.outputs ∧
        ∀ p, enforcer.registry.getOutputProducer targetOutputId sessionId = some p → p ≠ "" →
          enforcer.registry.roleOf p sessionId = none ∨ enforcer.Judgeable p sessionId := by
  unfold checkOutputOwnershipConstraint
  by_cases hown : enforcer.registry.getOutputProducer targetOutputId sessionId = some agentId ∨
      targetOutputId ∈ record.outputs
  · rw [if_pos hown]
    refine iff_of_false (Option.some_ne_none _) fun h => ?_
    exact hown.elim h.1 h.2.1
  · rw [if_neg hown, verifyTargetRoleConstraint_passes_iff]
    rw [not_or] at hown
    rw [and_iff_right hown.1, and_iff_right hown.2]
    have hproducer : ∀ p, p ≠ "" → enforcer.producerRecord (some p) sessionId =
        enforcer.registry.getAgent p sessionId := by
      intro p hp
      unfold producerRecord
      split
      · rename_i h
        exact absurd h (Option.some_ne_none p)
      · rename_i h
        exact absurd (Option.some.inj h) hp
      · rename_i h
        rw [Option.some.inj h]
    constructor
    · rintro ⟨-, hjudge⟩ p hp hne
      rw [hp, hproducer p hne] at hjudge
      rcases htarget : enforcer.registry.getAgent p sessionId with _ | target
      · exact .inl (by rw [MACIRoleRegistry.roleOf, htarget, Option.map_none])
      · refine .inr ((judgeable_of_getAgent htarget).mpr ?_)
        have := hjudge target htarget
        rwa [MACIAgentRecord.canValidateRole, hrole, decide_eq_true_eq] at this
    · intro hjudge
      refine ⟨fun _ h => TargetType.noConfusion h, fun target htarget => ?_⟩
      rcases hp : enforcer.registry.getOutputProducer targetOutputId sessionId with _ | p
      · rw [hp] at htarget
        exact absurd htarget (Option.some_ne_none target).symm
      · by_cases hne : p = ""
        · rw [hp, hne] at htarget
          exact absurd htarget (Option.some_ne_none target).symm
        · rw [hp, hproducer p hne] at htarget
          rcases hjudge p hp hne with hnone | hjudgeable
          · rw [MACIRoleRegistry.roleOf, htarget] at hnone
            exact absurd hnone (Option.some_ne_none _)
          · rw [judgeable_of_getAgent htarget] at hjudgeable
            rwa [MACIAgentRecord.canValidateRole, hrole, decide_eq_true_eq]

theorem checkTargets_passes_iff (hrole : record.role = .judicial) {targetOutputId : String} :
    (enforcer.checkTargets record agentId (some targetOutputId) targetAgentId sessionId).1 = none ↔
      enforcer.TargetAdmitted agentId targetAgentId sessionId ∧
        (targetOutputId ≠ "" →
          enforcer.registry.getOutputProducer targetOutputId sessionId ≠ some agentId ∧
          targetOutputId ∉ record.outputs ∧
          ∀ p, enforcer.registry.getOutputProducer targetOutputId sessionId = some p → p ≠ "" →
            enforcer.registry.roleOf p sessionId = none ∨ enforcer.Judgeable p sessionId) := by
  rw [checkTargets.eq_def, bothChecks_passes_iff]
  refine and_congr ?_ ?_
  · unfold TargetAdmitted
    split
    · simp
    · simp
    · rename_i target hne
      rw [checkCrossAgentConstraint_passes_iff hrole]
      have hempty : target ≠ "" := fun h => hne (by rw [h])
      constructor
      · rintro h _ ⟨⟩ -
        exact h
      · intro h
        exact h target rfl hempty
  · split
    · rename_i h
      exact absurd h (Option.some_ne_none _)
    · rename_i h
      simp [Option.some.inj h]
    · rename_i target hne h
      obtain rfl := Option.some.inj h
      rw [checkOutputOwnershipConstraint_passes_iff hrole]
      have hempty : targetOutputId ≠ "" := fun h => hne (by rw [h])
      simp [hempty]

theorem Allows.seated {targetOutputId : Option String}
    (h : enforcer.Allows agentId .validate targetOutputId targetAgentId sessionId) :
    enforcer.Seated agentId sessionId := by
  obtain ⟨result, hresult⟩ := h
  rcases hagent : enforcer.registry.getAgent agentId sessionId with _ | record
  · simp only [validateAction, hagent] at hresult
    split at hresult
    · exact absurd hresult (by simp)
    · simp at hresult
  · rw [Seated, MACIRoleRegistry.roleOf, hagent, Option.map_some, Option.some.injEq]
    by_contra hrole
    have hperform : record.canPerform .validate = false := by
      rw [Bool.eq_false_iff, ne_eq, canPerform_validate_iff]
      exact hrole
    simp [validateAction, hagent, hperform] at hresult

theorem allows_iff_checkTargets {targetOutputId : Option String}
    (hagent : enforcer.registry.getAgent agentId sessionId = some record)
    (hrole : record.role = .judicial) :
    enforcer.Allows agentId .validate targetOutputId targetAgentId sessionId ↔
      (enforcer.checkTargets record agentId targetOutputId targetAgentId sessionId).1 = none := by
  have hperform := canPerform_validate_iff.mpr hrole
  rw [Allows]
  simp only [validateAction, hagent, hperform, Bool.not_true, if_true, Bool.false_eq_true, if_false]
  rcases enforcer.checkTargets record agentId targetOutputId targetAgentId sessionId
    with ⟨_ | error, log⟩
  · simp
  · simp

/-- **When a validation of an output is let through.** -/
theorem allows_validate_iff {targetOutputId : String} :
    enforcer.Allows agentId .validate (some targetOutputId) targetAgentId sessionId ↔
      enforcer.Seated agentId sessionId ∧ enforcer.TargetAdmitted agentId targetAgentId sessionId ∧
        (targetOutputId ≠ "" →
          enforcer.registry.getOutputProducer targetOutputId sessionId ≠ some agentId ∧
          ¬enforcer.registry.Owns agentId targetOutputId sessionId ∧
          ∀ p, enforcer.registry.getOutputProducer targetOutputId sessionId = some p → p ≠ "" →
            enforcer.registry.roleOf p sessionId = none ∨ enforcer.Judgeable p sessionId) := by
  by_cases hseated : enforcer.Seated agentId sessionId
  · obtain ⟨record, hagent, hrole⟩ := Option.map_eq_some_iff.mp hseated
    have howns : enforcer.registry.Owns agentId targetOutputId sessionId ↔
        targetOutputId ∈ record.outputs := by
      simp [MACIRoleRegistry.Owns, hagent]
    rw [allows_iff_checkTargets hagent hrole, checkTargets_passes_iff hrole, howns,
      and_iff_right hseated]
  · exact iff_of_false (fun h => hseated h.seated) fun h => hseated h.1

end MACIEnforcer

end EnhancedAgentBus.Maci
