import EnhancedAgentBus.Batch.Models
import EnhancedAgentBus.Maci.Registry
import EnhancedAgentBus.Security.Tenants
import Mathlib.Data.Finset.Dedup
import Mathlib.Data.List.Infix

/-!
# Governance of a batch

The roles of the agents and their tenants are checked item by item, and the decisions are remembered
for the time of the batch: a role decision by tenant, agent, type of message and type of content,
and a tenant decision by agent and tenant.

What tells the types of contents apart as parts of a key is a parameter: a list or a dictionary is
no part of a key.  The counters of the middleware over all batches are left out.
-/

namespace EnhancedAgentBus.Batch

open Maci Security

/-- `BatchGovernanceMiddleware` -/
structure Governance where
  failClosed : Bool := true

structure AgentRegistry where
  roles : MACIRoleRegistry := {}
  metadata : String → JSONDict := fun _ => []

/-! ## MACI roles -/

/-- An entry of `metrics["violations"]`. -/
inductive MaciViolation where
  | cachedMaciDenial (index : ℕ) (agentId : String)
      (decisionKey : String × String × String × Json)
  | unregisteredAgent (index : ℕ) (agentId : String)
  | actionNotPermitted (index : ℕ) (agentId action role : String)
  | selfValidation (index : ℕ) (agentId targetAgent : String)
  | crossRoleValidation (index : ℕ) (agentId targetAgent targetRole : String)
  | validationError (index : ℕ) (agentId error : String)

/-- The `metrics` of the check of the roles. -/
structure MaciMetrics where
  cacheHits : ℕ := 0
  cacheMisses : ℕ := 0
  itemsChecked : ℕ := 0
  violations : List MaciViolation := []

abbrev DecisionKey (κ : Type) := String × String × String × κ

structure MaciState (κ : Type) where
  cache : Dict (DecisionKey κ) Bool := Dict.empty
  metrics : MaciMetrics := {}

def mapMessageTypeToAction (messageType : String) : MACIAction :=
  match messageType with
  | "governance_request" => .query
  | "constitutional_validation" => .validate
  | "propose" => .propose
  | "audit" => .audit
  | "monitor" => .monitorActivity
  | "enforce" => .enforceControl
  | "extract_rules" => .extractRules
  | "synthesize" => .synthesize
  | "manage_policy" => .managePolicy
  | _ => .query

/-- `item.content.get("type", "unknown") if item.content else "unknown"` -/
def contentType (item : BatchRequestItem) : Json :=
  if item.content = [] then .str "unknown" else (item.content.lookup "type").getD (.str "unknown")

def buildMaciDecisionKey (item : BatchRequestItem) : String × String × String × Json :=
  (if item.tenantId = "" then "default" else item.tenantId, item.fromAgent,
    if item.messageType = "" then "unknown" else item.messageType, contentType item)

/-- `content.get("target_agent_id")`, where it is set. -/
def targetAgent (item : BatchRequestItem) : Option Json :=
  (item.content.lookup "target_agent_id").filter Json.truthy

section Roles

variable {κ : Type} [DecidableEq κ] (hashKey : Json → Option κ)
variable (mw : Governance) (reg : AgentRegistry)

def decisionKey (item : BatchRequestItem) : Option (DecisionKey κ) :=
  let key := buildMaciDecisionKey item
  (hashKey key.2.2.2).map fun k => (key.1, key.2.1, key.2.2.1, k)

namespace MaciState

variable (s : MaciState κ) (key : DecisionKey κ)

def deny (violation : MaciViolation) : MaciState κ where
  cache := s.cache.set key false
  metrics := { s.metrics with violations := s.metrics.violations ++ [violation] }

/-- `_check_maci_cache`, where there is a decision. -/
def hit (verdict : Bool) (idx : ℕ) (item : BatchRequestItem) : MaciState κ :=
  { s with
    metrics :=
      { s.metrics with
        cacheHits := s.metrics.cacheHits + 1
        violations := s.metrics.violations ++
          if verdict then []
          else [.cachedMaciDenial idx item.fromAgent (buildMaciDecisionKey item)] } }

/-- `_update_maci_cache_metrics` -/
def miss : MaciState κ :=
  { s with
    metrics :=
      { s.metrics with
        cacheMisses := s.metrics.cacheMisses + 1
        itemsChecked := s.metrics.itemsChecked + 1 } }

@[simp] theorem cache_deny (violation : MaciViolation) :
    (s.deny key violation).cache = s.cache.set key false := rfl

end MaciState

def validateAgentRegistration (agentRecord : Option MACIAgentRecord) (key : DecisionKey κ)
    (idx : ℕ) (agentId : String) (s : MaciState κ) : Bool × MaciState κ :=
  match agentRecord with
  | some _ => (true, s)
  | none =>
    if mw.failClosed then (false, s.deny key (.unregisteredAgent idx agentId))
    else (true, { s with cache := s.cache.set key true })

/-- `_check_validation_action_constraints`; the error is a `TypeError`. -/
def checkValidationActionConstraints (item : BatchRequestItem) (idx : ℕ)
    (agentRecord : MACIAgentRecord) (key : DecisionKey κ) (s : MaciState κ) :
    Except String ((Bool × Bool) × MaciState κ) :=
  match targetAgent item with
  | none => .ok ((true, true), s)
  | some (.str target) =>
    if target = item.fromAgent then
      .ok ((!mw.failClosed, false), s.deny key (.selfValidation idx item.fromAgent target))
    else
      match reg.roles.agents.get target with
      | none => .ok ((true, true), s)
      | some targetRecord =>
        if agentRecord.canValidateRole targetRecord.role then .ok ((true, true), s)
        else
          .ok ((!mw.failClosed, false),
            s.deny key (.crossRoleValidation idx item.fromAgent target targetRecord.role.value))
  | some (.arr _) => .error "unhashable type: 'list'"
  | some (.obj _) => .error "unhashable type: 'dict'"
  | some _ => .ok ((true, true), s)

def applyValidationConstraints (item : BatchRequestItem) (idx : ℕ) (agentRecord : MACIAgentRecord)
    (key : DecisionKey κ) (canPerform : Bool) (s : MaciState κ) :
    Except String (Option Bool × MaciState κ) :=
  match checkValidationActionConstraints mw reg item idx agentRecord key s with
  | .error text => .error text
  | .ok ((constraintsOk, constrainedPermission), s) =>
    .ok (if constraintsOk then some (canPerform && constrainedPermission) else none, s)

def finalizeMaciPermission (canPerform : Bool) (key : DecisionKey κ) (idx : ℕ) (agentId : String)
    (maciAction : MACIAction) (agentRecord : MACIAgentRecord) (s : MaciState κ) :
    Bool × MaciState κ :=
  let s := { s with cache := s.cache.set key canPerform }
  if !canPerform && mw.failClosed then
    (false,
      { s with
        metrics :=
          { s.metrics with
            violations := s.metrics.violations ++
              [.actionNotPermitted idx agentId maciAction.value agentRecord.role.value] } })
  else (true, s)

/-- The `try` of `_validate_single_maci_role`; an error comes with what was done before it. -/
def tryMaciRole (item : BatchRequestItem) (idx : ℕ) (key : DecisionKey κ) (s : MaciState κ) :
    Except (String × MaciState κ) (Bool × MaciState κ) :=
  let maciAction := mapMessageTypeToAction item.messageType
  let agentRecord := reg.roles.agents.get item.fromAgent
  match validateAgentRegistration mw agentRecord key idx item.fromAgent s with
  | (false, s) => .ok (false, s)
  | (true, s) =>
    match agentRecord with
    | none => .error ("'NoneType' object has no attribute 'can_perform'", s)
    | some agentRecord =>
      let canPerform := agentRecord.canPerform maciAction
      if maciAction = .validate then
        match applyValidationConstraints mw reg item idx agentRecord key canPerform s with
        | .error text => .error (text, s)
        | .ok (none, s) => .ok (false, s)
        | .ok (some canPerform, s) =>
          .ok (finalizeMaciPermission mw canPerform key idx item.fromAgent maciAction
            agentRecord s)
      else
        .ok (finalizeMaciPermission mw canPerform key idx item.fromAgent maciAction agentRecord
          s)

/-- `_validate_single_maci_role`; the error is the `TypeError` of a key that is none. -/
def validateSingleMaciRole (item : BatchRequestItem) (idx : ℕ) (s : MaciState κ) :
    Except String (Bool × MaciState κ) :=
  if item.fromAgent = "" then .ok (true, s)
  else
    match decisionKey hashKey item with
    | none => .error "unhashable type"
    | some key =>
      match s.cache.get key with
      | some verdict => .ok (verdict, s.hit verdict idx item)
      | none =>
        match tryMaciRole mw reg item idx key s.miss with
        | .ok result => .ok result
        | .error (text, s) =>
          -- `_handle_maci_validation_error`
          .ok (!mw.failClosed, s.deny key (.validationError idx item.fromAgent text))

/-- The loop of `_check_maci_roles`. -/
def checkMaciItems (idx : ℕ) : List BatchRequestItem → MaciState κ →
    Except String (Bool × MaciState κ)
  | [], s => .ok (true, s)
  | item :: rest, s =>
    match validateSingleMaciRole hashKey mw reg item idx s with
    | .error text => .error text
    | .ok (false, s) => .ok (false, s)
    | .ok (true, s) => checkMaciItems (idx + 1) rest s

/-- `_check_maci_roles`, with an empty cache. -/
def checkMaciRoles (items : List BatchRequestItem) : Except String (Bool × MaciMetrics) :=
  (checkMaciItems hashKey mw reg 0 items {}).map fun (success, s) => (success, s.metrics)

end Roles

def accepted {σ : Type} : Except String (Bool × σ) → Bool
  | .ok (success, _) => success
  | .error _ => false

/-! ## Tenants -/

/-- An entry of `metrics["violations"]`. -/
inductive TenantViolation where
  | invalidTenantFormat (tenant : String)
  | crossTenantBatch (tenants : Finset String)
  | cachedTenantDenial (index : ℕ) (agentId tenant : String)
  | unregisteredAgentTenantAccess (index : ℕ) (agentId : String)
  | tenantAccessDenied (index : ℕ) (agentId tenant : String) (allowedTenants : Json)
  | tenantValidationError (index : ℕ) (agentId error : String)

/-- The `metrics` of the check of the tenants. -/
structure TenantMetrics where
  cacheHits : ℕ := 0
  cacheMisses : ℕ := 0
  itemsChecked : ℕ := 0
  batchTenant : Option String := none
  violations : List TenantViolation := []

structure TenantState where
  cache : Dict (String × String) Bool := Dict.empty
  metrics : TenantMetrics := {}

/-- `item.tenant_id or "default"` -/
def tenantOf (item : BatchRequestItem) : String :=
  if item.tenantId = "" then "default" else item.tenantId

def nonDefaultTenants (items : List BatchRequestItem) : List String :=
  (items.map BatchRequestItem.tenantId).filter fun tenant => tenant ≠ "" && tenant ≠ "default"

def isText (text : String) : Json → Bool
  | .str s => s = text
  | _ => false

/-- `value in container`, for a string. -/
def pyIn (value : String) : Json → Except String Bool
  | .arr items => .ok (items.any (isText value))
  | .obj members => .ok (members.any fun member => member.1 = value)
  | .str text => .ok (decide (value.toList <:+: text.toList))
  | .null => .error "argument of type 'NoneType' is not iterable"
  | .bool _ => .error "argument of type 'bool' is not iterable"
  | .int _ => .error "argument of type 'int' is not iterable"
  | .float _ => .error "argument of type 'float' is not iterable"

namespace TenantState

variable (s : TenantState)

def violate (violation : TenantViolation) : TenantState :=
  { s with metrics := { s.metrics with violations := s.metrics.violations ++ [violation] } }

def store (key : String × String) (verdict : Bool) : TenantState :=
  { s with cache := s.cache.set key verdict }

/-- `_update_tenant_cache_metrics` -/
def miss : TenantState :=
  { s with
    metrics :=
      { s.metrics with
        cacheMisses := s.metrics.cacheMisses + 1
        itemsChecked := s.metrics.itemsChecked + 1 } }

end TenantState

section Tenants

variable (mw : Governance) (reg : AgentRegistry)

def validateTenantFormats [LowerTable] : List BatchRequestItem → TenantState → Bool × TenantState
  | [], s => (true, s)
  | item :: rest, s =>
    if !(sanitizeAndValidate (some (tenantOf item))).2 && tenantOf item ≠ "default" then
      let s := s.violate (.invalidTenantFormat (tenantOf item))
      if mw.failClosed then (false, s) else validateTenantFormats rest s
    else validateTenantFormats rest s

/-- The loop of `_check_batch_tenant_consistency`, over the tenants behind the first. -/
def checkTenants (all : Finset String) (firstTenant : String) :
    List String → TenantState → Bool × TenantState
  | [], s => (true, s)
  | tenant :: rest, s =>
    if tenant ≠ firstTenant then
      let s := s.violate (.crossTenantBatch all)
      if mw.failClosed then (false, s) else checkTenants all firstTenant rest s
    else checkTenants all firstTenant rest s

def checkBatchTenantConsistency (items : List BatchRequestItem) (s : TenantState) :
    Bool × TenantState :=
  match nonDefaultTenants items with
  | [] => (true, { s with metrics := { s.metrics with batchTenant := some "default" } })
  | firstTenant :: rest =>
    match checkTenants mw (firstTenant :: rest).toFinset firstTenant rest s with
    | (false, s) => (false, s)
    | (true, s) => (true, { s with metrics := { s.metrics with batchTenant := some firstTenant } })

def checkTenantCache (agentId tenantId : String) (idx : ℕ) (s : TenantState) :
    Bool × TenantState :=
  match s.cache.get (agentId, tenantId) with
  | none => (false, s)
  | some verdict =>
    let s := { s with metrics := { s.metrics with cacheHits := s.metrics.cacheHits + 1 } }
    if verdict then (true, s)
    else
      (!mw.failClosed, s.violate (.cachedTenantDenial idx agentId tenantId))

/-- `agent_record.metadata.get("allowed_tenants", ["default"])` -/
def allowedTenants (agentId : String) : Json :=
  ((reg.metadata agentId).lookup "allowed_tenants").getD (.arr [.str "default"])

/-- `_check_agent_tenant_permissions`; the error is a `TypeError`. -/
def checkAgentTenantPermissions (agentId tenantId : String) : Except String Bool :=
  match pyIn tenantId (allowedTenants reg agentId) with
  | .error text => .error text
  | .ok allowed =>
    let agentTenant := ((reg.metadata agentId).lookup "tenant_id").getD (.str "default")
    .ok (allowed || isText tenantId agentTenant || tenantId = "default")

def validateSingleItemTenantAccess (idx : ℕ) (agentId tenantId : String) (s : TenantState) :
    Bool × TenantState :=
  match reg.roles.agents.get agentId with
  | none =>
    -- `_handle_unregistered_agent_tenant_access`
    if mw.failClosed then
      (false, (s.store (agentId, tenantId) false).violate
        (.unregisteredAgentTenantAccess idx agentId))
    else (true, s.store (agentId, tenantId) true)
  | some _ =>
    match checkAgentTenantPermissions reg agentId tenantId with
    | .error text =>
      -- `_handle_tenant_validation_error`
      (!mw.failClosed, (s.store (agentId, tenantId) false).violate
        (.tenantValidationError idx agentId text))
    | .ok true => (true, s.store (agentId, tenantId) true)
    | .ok false =>
      (!mw.failClosed, (s.store (agentId, tenantId) false).violate
        (.tenantAccessDenied idx agentId tenantId (allowedTenants reg agentId)))

def validateItemTenantAccess (idx : ℕ) : List BatchRequestItem → TenantState → Bool × TenantState
  | [], s => (true, s)
  | item :: rest, s =>
    if item.fromAgent = "" then validateItemTenantAccess (idx + 1) rest s
    else
      match checkTenantCache mw item.fromAgent (tenantOf item) idx s with
      | (true, s) => validateItemTenantAccess (idx + 1) rest s
      | (false, s) =>
        match validateSingleItemTenantAccess mw reg idx item.fromAgent (tenantOf item) s.miss
          with
        | (false, s) => (false, s)
        | (true, s) => validateItemTenantAccess (idx + 1) rest s

/-- `_validate_tenant_access`, with an empty cache. -/
def validateTenantAccess [LowerTable] (items : List BatchRequestItem) : Bool × TenantMetrics :=
  if items = [] then (true, {})
  else
    match validateTenantFormats mw items {} with
    | (false, s) => (false, s.metrics)
    | (true, s) =>
      match checkBatchTenantConsistency mw items s with
      | (false, s) => (false, s.metrics)
      | (true, s) =>
        let (success, s) := validateItemTenantAccess mw reg 0 items s
        (success, s.metrics)

end Tenants

end EnhancedAgentBus.Batch
