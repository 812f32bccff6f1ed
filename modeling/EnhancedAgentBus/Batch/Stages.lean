import EnhancedAgentBus.Batch.Deduplication
import EnhancedAgentBus.Batch.Governance
import EnhancedAgentBus.Batch.Processing
import EnhancedAgentBus.CircuitBreaker.Breaker
import EnhancedAgentBus.Guardrails.AuditLog
import EnhancedAgentBus.Pipeline.Middleware

/-!
# The stages in front of the processing of a batch

Validation, tenant isolation, deduplication, governance and concurrency, with a circuit breaker
anywhere among them.  A stage that rejects a batch raises where it is `fail_closed`; else it leaves
an early result or a fallback response and calls on, but for governance, which returns.  The router
makes its response without a look at the early result.

The stages behind the processing keep tables of durations; these are left out, with the durations
and the warnings.  So is what the breaker counts when a batch is through, which this batch does not
see.
-/

namespace EnhancedAgentBus.Batch

open Pipeline
open CircuitBreaker (CircuitState Seconds)
open Guardrails (constitutionalHash)
open Security (LowerTable)

/-! ## Requests, contexts and exceptions -/

/-- `BatchRequest`, with what is read in front of the processing.  `constitutional_hash` is empty
or the right one, or the request would not have been made. -/
structure SubmittedBatch extends BatchRequest where
  items : List BatchRequestItem
  failFast : Bool := false
  deduplicate : Bool := true

structure ChainContext extends BatchPipelineContext where
  called : List BatchRequestItem := []

inductive BatchError where
  | batchValidationException (message : String) (validationErrors : List String)
  | batchTenantIsolationException (message : String) (conflictingTenants : Finset String)
  | batchDeduplicationException (error : BatchDeduplicationException)
  | batchGovernanceException (message : String) (maciViolation : Option String)
  | batchConcurrencyException (message : String) (maxConcurrency currentCount : ℕ)
  | batchProcessingException (error : BatchProcessingException)
  /-- One of the types that `BATCH_PIPELINE_ERRORS` names. -/
  | listed (text : String)

def ChainContext.setEarlyResult (context : ChainContext) (errors : List String)
    (validationStage : Option String) : ChainContext :=
  { context with
    earlyResult := some
      { isValid := false, errors := errors, validationStage := validationStage } }

/-! ## Validation -/

/-- `BatchValidationMiddleware` -/
structure Validation where
  failClosed : Bool := true
  maxBatchSize : ℤ := 1000
  minBatchSize : ℤ := 1

section Validation

variable (mw : Validation) (request : SubmittedBatch)

def validateBatchRequest : List String :=
  if request.items = [] then ["Batch request must contain at least one item"]
  else
    let itemCount := request.items.length
    (if itemCount < mw.minBatchSize then
      ["Batch size " ++ toString itemCount ++ " below minimum " ++ toString mw.minBatchSize]
    else []) ++
    (if mw.maxBatchSize < itemCount then
      ["Batch size " ++ toString itemCount ++ " exceeds maximum " ++ toString mw.maxBatchSize]
    else [])

/-- `_validate_batch_item`: the types and the priority of an item are right by its class. -/
def validateBatchItem (item : BatchRequestItem) : List String :=
  (if item.requestId = "" then ["request_id is required"] else []) ++
    (if item.content = [] then ["content is required"] else []) ++
    (if 128 < item.tenantId.length then ["tenant_id exceeds 128 characters"] else []) ++
    (if item.constitutionalHash ≠ "" ∧ item.constitutionalHash ≠ constitutionalHash then
      ["Invalid item constitutional hash: " ++ item.constitutionalHash]
    else [])

/-- `all_item_errors` -/
def itemErrors : List String :=
  request.items.zipIdx.flatMap fun (item, idx) =>
    (validateBatchItem item).map fun e => "Item[" ++ toString idx ++ "]: " ++ e

/-- `process` of the validation, up to the call of the next middleware. -/
def Validation.work (context : ChainContext) : Work ChainContext BatchError :=
  let batchErrors := validateBatchRequest mw request
  if batchErrors ≠ [] then
    if mw.failClosed then
      .raises (.batchValidationException
        ("Batch validation failed: " ++ "; ".intercalate batchErrors) batchErrors) context
    else .callNext (context.setEarlyResult batchErrors (some "batch_structure"))
  else
    let context : ChainContext :=
      { context with batchItems := request.items.filter fun item => validateBatchItem item = [] }
    if itemErrors request ≠ [] then
      if mw.failClosed then
        .raises (.batchValidationException "Batch item validation failed" (itemErrors request))
          context
      else .callNext (context.setEarlyResult (itemErrors request) (some "batch_items"))
    else
      .callNext { context with
        batchSize := context.batchItems.length
        failFast := request.failFast
        deduplicate := request.deduplicate }

end Validation

/-! ## Tenant isolation -/

/-- `BatchTenantIsolationMiddleware` -/
structure TenantIsolation where
  failClosed : Bool := true

/-- `_validate_tenant_consistency`: the message, where two tenants differ. -/
def validateTenantConsistency (items : List BatchRequestItem) : Option String :=
  match nonDefaultTenants items with
  | [] => none
  | firstTenant :: rest =>
    (rest.find? (· ≠ firstTenant)).map fun tenant =>
      "Cross-tenant batch detected: items have different tenants (" ++ firstTenant ++ " vs " ++
        tenant ++ ")"

/-- `process` of the tenant isolation. -/
def TenantIsolation.work (mw : TenantIsolation) (context : ChainContext) :
    Work ChainContext BatchError :=
  if context.batchItems = [] then .callNext context
  else
    match validateTenantConsistency context.batchItems with
    | some message =>
      if mw.failClosed then
        .raises (.batchTenantIsolationException message
          (context.batchItems.map tenantOf).toFinset) context
      else .callNext (context.setEarlyResult [message] (some "tenant_isolation"))
    | none => .callNext context

/-! ## Deduplication -/

structure DeduplicationStage where
  middleware : Deduplication
  digest : String → String
  clock : ℕ → Reading
  cleanedAt : ℚ

/-- `process` of the deduplication. -/
def DeduplicationStage.work [PrintTable] (stage : DeduplicationStage) (context : ChainContext) :
    Work ChainContext BatchError :=
  match (stage.middleware.process stage.digest stage.clock stage.cleanedAt
      context.toBatchPipelineContext).1 with
  | .ok batch => .callNext { context with toBatchPipelineContext := batch }
  | .error e => .raises (.batchDeduplicationException e) context

/-! ## Governance -/

/-- The `reason` of a violation. -/
def MaciViolation.reason : MaciViolation → String
  | cachedMaciDenial .. => "cached_maci_denial"
  | unregisteredAgent .. => "unregistered_agent"
  | actionNotPermitted .. => "action_not_permitted"
  | selfValidation .. => "self_validation"
  | crossRoleValidation .. => "cross_role_validation"
  | validationError .. => "validation_error"

/-- The `reason` of a violation. -/
def TenantViolation.reason : TenantViolation → String
  | invalidTenantFormat .. => "invalid_tenant_format"
  | crossTenantBatch .. => "cross_tenant_batch"
  | cachedTenantDenial .. => "cached_tenant_denial"
  | unregisteredAgentTenantAccess .. => "unregistered_agent_tenant_access"
  | tenantAccessDenied .. => "tenant_access_denied"
  | tenantValidationError .. => "tenant_validation_error"

def withReason (message : String) : List String → String
  | [] => message
  | reason :: _ => message ++ ": " ++ reason

def validateConstitutionalCompliance (items : List BatchRequestItem) : Bool :=
  items.all fun item => item.constitutionalHash = "" || item.constitutionalHash = constitutionalHash

/-- The middleware with its registry, what tells content types apart, and the impact score of a
batch, as it is printed, where it is critical: it is computed in floating point. -/
structure GovernanceStage (κ : Type) where
  middleware : Governance
  registry : AgentRegistry
  hashKey : Json → Option κ
  criticalImpact : List BatchRequestItem → Option String

section Governance

variable [LowerTable] {κ : Type} [DecidableEq κ] (stage : GovernanceStage κ)
variable (context : ChainContext)

def GovernanceStage.deny (message validationStage maciViolation : String) :
    Work ChainContext BatchError :=
  if stage.middleware.failClosed then
    .raises (.batchGovernanceException message (some maciViolation)) context
  else .ends (context.setEarlyResult [message] (some validationStage))

/-- `process` of the governance. -/
def GovernanceStage.work : Work ChainContext BatchError :=
  let items := context.batchItems
  if items = [] then .callNext context
  else
    match checkMaciRoles stage.hashKey stage.middleware stage.registry items with
    | .error text => .raises (.listed text) context
    | .ok (false, metrics) =>
      stage.deny context
        (withReason "MACI role validation failed for batch items"
          (metrics.violations.map MaciViolation.reason))
        "maci_roles" "role_validation_failed"
    | .ok (true, _) =>
      match validateTenantAccess stage.middleware stage.registry items with
      | (false, metrics) =>
        stage.deny context
          (withReason "Tenant validation failed for batch items"
            (metrics.violations.map TenantViolation.reason))
          "tenant_access" "tenant_validation_failed"
      | (true, _) =>
        match stage.criticalImpact items, stage.middleware.failClosed with
        | some score, true =>
          .raises (.batchGovernanceException
            ("Batch impact score " ++ score ++ " exceeds critical threshold") none) context
        | _, _ =>
          if validateConstitutionalCompliance items then .callNext context
          else
            stage.deny context "Constitutional compliance validation failed"
              "constitutional" "constitutional_compliance"

end Governance

/-! ## Concurrency -/

/-- `BatchConcurrencyMiddleware` -/
structure Concurrency where
  failClosed : Bool := true
  maxConcurrency : ℕ := 100
  locked : Bool := false
  activeCount : ℕ := 0

/-- `process` of the concurrency control. -/
def Concurrency.work (mw : Concurrency) (context : ChainContext) : Work ChainContext BatchError :=
  let context : ChainContext := { context with maxConcurrency := mw.maxConcurrency }
  if mw.locked && mw.maxConcurrency ≤ mw.activeCount then
    let message := "Maximum concurrency (" ++ toString mw.maxConcurrency ++
      ") reached, batch processing deferred"
    if mw.failClosed then
      .raises (.batchConcurrencyException message mw.maxConcurrency mw.activeCount) context
    else .callNext (context.setEarlyResult [message] (some "concurrency"))
  else .callNext context

/-! ## The circuit breaker -/

/-- `CircuitBreaker` of the batches, with `str(cooldown_period)`. -/
structure BatchBreaker where
  state : CircuitState := .closed
  lastFailureTime : Option Seconds := none
  halfOpenSuccessCount : ℕ := 0
  cooldownPeriod : Seconds := 30
  cooldownText : String := "30.0"

def BatchBreaker.allowRequest (breaker : BatchBreaker) (now : Seconds) : Bool × BatchBreaker :=
  match breaker.state with
  | .closed | .halfOpen => (true, breaker)
  | .opened =>
    match breaker.lastFailureTime with
    | none => (false, breaker)
    | some failedAt =>
      if failedAt ≠ 0 ∧ breaker.cooldownPeriod ≤ now - failedAt then
        (true, { breaker with state := .halfOpen, halfOpenSuccessCount := 0 })
      else (false, breaker)

/-- `BatchCircuitBreakerMiddleware`, at the instant at which the batch comes to it. -/
structure BreakerStage where
  failClosed : Bool := true
  breaker : BatchBreaker := {}
  now : Seconds := 0

namespace BreakerStage

variable (stage : BreakerStage)

def allows : Bool := (stage.breaker.allowRequest stage.now).1

/-- `error_msg` -/
def message : String :=
  "Circuit breaker is OPEN - batch rejected. Auto-reset after " ++ stage.breaker.cooldownText ++
    "s cooldown."

def createFallbackResponse (context : ChainContext) : BatchResponse where
  batchId := (context.batchRequest.map BatchRequest.batchId).getD "circuit_open"
  success := false
  items := context.batchItems.map fun item => .createError item.requestId "CIRCUIT_OPEN"
    "Request blocked - circuit breaker is OPEN. Auto-reset scheduled after cooldown."

/-- `process` of the circuit breaker, up to the call of the next middleware. -/
def work (context : ChainContext) : Work ChainContext BatchError :=
  if stage.allows then .callNext context
  else if stage.failClosed then
    .raises (.batchProcessingException ⟨stage.message, "CIRCUIT_OPEN"⟩) context
  else .callNext { context with batchResponse := some (createFallbackResponse context) }

/-- Where it lets the batch pass, it catches the errors it names; with `fail_closed` it raises them
again. -/
def afterwards (context : ChainContext) (error : Option BatchError) :
    ChainContext × Option BatchError :=
  match error with
  | some (.listed text) =>
    if stage.allows && !stage.failClosed then
      (context.setEarlyResult ["Circuit breaker recorded failure: " ++ text] none, none)
    else (context, error)
  | _ => (context, error)

end BreakerStage

end EnhancedAgentBus.Batch
