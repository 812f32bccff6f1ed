import EnhancedAgentBus.Constitutional.AmendmentStores

/-!
# The activation of an amendment

`activate_amendment`: the five steps, their compensations, and the saga over them.

The fourth step builds the new version with the SHA-256 digest of its content, of 64 characters, and
the validator of the version takes hashes of 16 characters only.  So no activation is completed
(`activateAmendment_not_completed`).
-/

namespace EnhancedAgentBus.Constitutional

open Async Async.Prog Deliberation

/-- What an activation takes from its surroundings: the digest of a content, whether a text passes
for a version number, the clients, the identifier of the new version, and the time. -/
structure ActivationSetting where
  hexdigest : Dict String Json → String
  length_hexdigest : ∀ content, (hexdigest content).length = 64
  isSemanticVersion : String → Bool
  redisClient : Bool
  auditClient : Bool
  newVersionId : String
  now : Time

/-- The result of `backup_current_version`. -/
structure BackupData where
  versionId : String
  version : String
  constitutionalHash : String

structure ActivationContext where
  amendmentId : String
  newVersion : Option String := none
  backup : Option BackupData := none
  newVersionId : Option String := none

/-! ## The new version -/

/-- `validate_hash_format` -/
def isHash (hash : String) : Bool :=
  hash.length = 16 && hash.toList.all fun c => c ∈ "0123456789abcdef".toList

/-- `{**target_version.content, **amendment.proposed_changes}` -/
def newContent (target : ConstitutionalVersion) (amendment : Amendment) : Dict String Json :=
  ProposalEngine.mergeChanges target.content amendment.proposedChanges

/-- The version of an amendment, without its metadata.  Its validators raise `ValidationError`, which
is a `ValueError`. -/
def buildVersion (setting : ActivationSetting) (newVersion : Option String)
    (target : ConstitutionalVersion) (amendment : Amendment) :
    Except Raised ConstitutionalVersion :=
  let content := newContent target amendment
  let hash := setting.hexdigest content
  match newVersion with
  | none => .error .valueError
  | some version =>
    if setting.isSemanticVersion version && isHash hash then
      .ok
        { versionId := setting.newVersionId
          version := version
          constitutionalHash := hash
          content := content
          predecessorVersion := some target.versionId
          status := .approved
          createdAt := setting.now }
    else .error .valueError

/-! ## The steps -/

section Steps

variable (setting : ActivationSetting) (context : ActivationContext)

/-- `get_amendment`, without which no step goes on. -/
def requireAmendment : SagaCode Amendment := do
  if context.amendmentId = "" then .raise .other
  else
    match ← call (.getAmendment context.amendmentId) with
    | none => .raise .other
    | some amendment => pure amendment

/-- `get_version` of the target of an amendment. -/
def requireTarget (amendment : Amendment) : SagaCode ConstitutionalVersion := do
  match ← call (.getVersion amendment.targetVersion) with
  | none => .raise .other
  | some target => pure target

def validateActivation : SagaCode ActivationContext := do
  let amendment ← requireAmendment context
  if amendment.status ≠ .approved then .raise .other
  else
    let target ← requireTarget amendment
    -- A target that is not the active version is logged.
    let _ ← call .getActiveVersion
    if target.constitutionalHash ≠ constitutionalHash then .raise .other
    else pure { context with newVersion := amendment.newVersion }

def backupCurrentVersion : SagaCode ActivationContext := do
  match ← call .getActiveVersion with
  | none => .raise .other
  | some active =>
    pure
      { context with
        backup := some ⟨active.versionId, active.version, active.constitutionalHash⟩ }

def restoreBackup : SagaCode Bool := do
  match context.backup with
  | none => pure false
  | some backup =>
    ignoring [.runtimeError, .valueError, .osError]
      (do
        let _ ← compensatingCall (.activateVersion backup.versionId setting.now)
        pure true)
      false

def updateOpaPolicies : SagaCode ActivationContext := do
  let amendment ← requireAmendment context
  let target ← requireTarget amendment
  let newHash := setting.hexdigest (newContent target amendment)
  let _ ← ignoring [.requestError, .osError, .valueError] (call (.putActiveHash newHash)) false
  pure context

def revertOpaPolicies : SagaCode Bool :=
  let previousHash := (context.backup.map BackupData.constitutionalHash).getD constitutionalHash
  ignoring [.requestError, .osError, .valueError] (compensatingCall (.putActiveHash previousHash))
    false

def updateCache : SagaCode ActivationContext := do
  let amendment ← requireAmendment context
  let target ← requireTarget amendment
  match buildVersion setting context.newVersion target amendment with
  | .error e => .raise e
  | .ok version =>
    let _ ← call (.saveVersion version)
    let _ ← call (.activateVersion version.versionId setting.now)
    let _ ← call (.saveAmendment
      { amendment with status := .active, activatedAt := some setting.now })
    if setting.redisClient then
      let _ ← ignoring [.osError, .valueError] (call .deleteCacheKey) ()
    pure { context with newVersionId := some version.versionId }

def revertCache : SagaCode Bool :=
  if setting.redisClient then
    ignoring [.osError, .valueError]
      (do
        let _ ← compensatingCall .deleteCacheKey
        pure true)
      false
  else pure true

def auditActivation : SagaCode ActivationContext := do
  if setting.auditClient then
    let _ ← ignoring [.osError, .runtimeError, .valueError] (call .log) ()
  pure context

def markAuditFailed : SagaCode Bool := do
  if setting.auditClient then
    let _ ← ignoring [.osError, .runtimeError, .valueError] (compensatingCall .log) ()
  pure true

end Steps

/-! ## The saga -/

section Saga

variable (setting : ActivationSetting)

/-- A step of `ACTIVATION_STEP_SPECS`. -/
def activationStep (name : String) (run : ActivationContext → SagaCode ActivationContext)
    (compensationName : String) (compensate : ActivationContext → SagaCode Bool)
    (isOptional : Bool) : SagaStep SagaOp Reply ActivationContext where
  name := name
  execute := run
  compensation := { name := compensationName, execute := compensate }
  isOptional := isOptional

/-- `ACTIVATION_STEP_SPECS` -/
def activationSteps : List (SagaStep SagaOp Reply ActivationContext) :=
  [activationStep "validate_activation" validateActivation "log_validation_failure"
      (fun _ => pure true) false,
    activationStep "backup_current_version" backupCurrentVersion "restore_backup"
      (restoreBackup setting) false,
    activationStep "update_opa_policies" (updateOpaPolicies setting) "revert_opa_policies"
      revertOpaPolicies true,
    activationStep "update_cache" (updateCache setting) "revert_cache"
      (fun _ => revertCache setting) false,
    activationStep "audit_activation" (auditActivation setting) "mark_audit_failed"
      (fun _ => markAuditFailed setting) true]

def activateAmendment (amendmentId : String) : SagaCode (SagaResult ActivationContext) :=
  Deliberation.execute (activationSteps setting) { amendmentId := amendmentId }

end Saga

/-! ## No activation is completed -/

theorem buildVersion_error (setting : ActivationSetting) (newVersion : Option String)
    (target : ConstitutionalVersion) (amendment : Amendment) :
    buildVersion setting newVersion target amendment = .error .valueError := by
  have hhash : isHash (setting.hexdigest (newContent target amendment)) = false := by
    unfold isHash
    rw [setting.length_hexdigest]
    rfl
  unfold buildVersion
  dsimp only
  rw [hhash]
  rcases newVersion with _ | version
  · rfl
  · dsimp only
    rw [Bool.and_false, if_neg Bool.false_ne_true]

section Never

variable {σ : Type} {step : σ → (o : SagaOp) → Reply o → σ → Prop}

theorem updateCache_never (setting : ActivationSetting) (context : ActivationContext) :
    NeverReturns step (updateCache setting context) := by
  intro s
  rw [updateCache, safe_bind]
  refine (safe_trivial _).mono (fun amendment t _ => ?_) fun _ _ _ => trivial
  rw [safe_bind]
  refine (safe_trivial _).mono (fun target u _ => ?_) fun _ _ _ => trivial
  rw [buildVersion_error]
  trivial

theorem activateAmendment_not_completed (setting : ActivationSetting) (amendmentId : String)
    {s s' : σ} {result : SagaResult ActivationContext}
    (hrun : Exec step (activateAmendment setting amendmentId) s (.returned result) s') :
    result.status ≠ .completed := by
  refine hrun.returned (safe_execute_not_completed ?_ _)
  refine ⟨activationStep "update_cache" (updateCache setting) "revert_cache"
    (fun _ => revertCache setting) false, ?_, rfl, fun context => updateCache_never setting context⟩
  simp [activationSteps]

end Never

end EnhancedAgentBus.Constitutional
