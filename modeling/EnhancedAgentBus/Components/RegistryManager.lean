import EnhancedAgentBus.Lib.Buckets
import EnhancedAgentBus.Lib.Machine
import EnhancedAgentBus.Security.Tenants

/-!
# The registration of agents

The bus keeps a table of its agents and an index of them by tenant.  A registration is written to
the table and the index first, then to the registry of roles and to the backend, which may be
shared with other processes.  Each of the two may refuse what it is asked, or fail.

The identity that is made for the agent, and the instant of the call, are part of what is called:
nothing here is decided by them.
-/

namespace EnhancedAgentBus.Components

open Security

/-! ## Records -/

/-- `maci_role: object`: a member of an enumeration of texts, a text, or something else. -/
inductive RoleArgument where
  | enumeration (value : String)
  | text (value : String)
  | other (name : String) (truthy : Bool)
  deriving DecidableEq

namespace RoleArgument

/-- `if maci_role` -/
def isTruthy : RoleArgument → Bool
  | enumeration _ => true
  | text value => value ≠ ""
  | other _ truthy => truthy

/-- `normalized_role` -/
def normalized : RoleArgument → Option String
  | enumeration value => some value
  | text value => some value
  | other _ _ => none

end RoleArgument

/-- `_compat.types.AgentInfo`, as the bus keeps it. -/
structure AgentInfo where
  agentId : String
  agentType : String
  capabilities : List String
  tenantId : String
  maciRole : Option String
  constitutionalHash : String
  identity : Json
  registeredAt : ℕ
  updatedAt : ℕ

/-- The entry of an agent in the backend.  Its tenant may be in the entry itself, or in the metadata
of the entry. -/
structure BackendInfo where
  agentId : String
  capabilities : List String
  tenantId : Option String := none
  metadataTenantId : Option String

inductive Failure where
  /-- `TimeoutError`, `RuntimeError`, `ValueError` -/
  | handled
  | unhandled
  deriving DecidableEq

inductive BackendAnswer where
  | works
  | refuses
  | raises (written : Bool)
  deriving DecidableEq

inductive Outcome where
  | returned (success : Bool)
  | raised
  deriving DecidableEq

/-- The arguments of `register_agent`, the instant and the identity, and what the policy client, the
registry of roles and the backend answer. -/
structure Registration where
  agentId : String
  constitutionalHash : String
  agentType : String := "worker"
  capabilities : Option (List String) := none
  tenantId : Option String := none
  maciRole : Option RoleArgument := none
  authToken : Option String := none
  identity : Json := .null
  now : ℕ
  policy : Option (Except Failure (Option String)) := none
  maci : Option Failure := none
  backend : BackendAnswer := .works

/-! ## `RegistryManager` -/

structure RegistryManager where
  agents : Dict String AgentInfo := Dict.empty
  agentsByTenant : Dict String (Finset String) := Dict.empty
  registry : Dict String BackendInfo
  maciRoles : Dict String RoleArgument

namespace Registration

variable [LowerTable] (call : Registration)

/-- `not agent_id or not agent_id.strip()` -/
def isBlank : Bool := Constitutional.ProposalEngine.strip call.agentId = ""

/-- `_sync_constitutional_hash`; `none` where the failure is not handled. -/
def syncConstitutionalHash : Option String :=
  match call.policy with
  | none => some call.constitutionalHash
  | some (.error .handled) => some call.constitutionalHash
  | some (.error .unhandled) => none
  | some (.ok none) => some call.constitutionalHash
  | some (.ok (some key)) => some (if key = "" then call.constitutionalHash else key)

def validateAgentIdentity (token : String) : String × List String :=
  (if '.' ∈ token.toList then token else "default", [])

/-- `_resolve_token_claims`: a token is never invalid. -/
def resolveTokenClaims : Option String × Option (List String) :=
  match call.authToken with
  | none => (call.tenantId, call.capabilities)
  | some token =>
    if token = "" then (call.tenantId, call.capabilities)
    else
      let (tenant, capabilities) := validateAgentIdentity token
      (some tenant, some capabilities)

/-- `normalized_tenant_id` -/
def tenant : String := normalizeOrDefault call.resolveTokenClaims.1

def info (hash : String) : AgentInfo where
  agentId := call.agentId
  agentType := call.agentType
  capabilities := call.resolveTokenClaims.2.getD []
  tenantId := call.tenant
  maciRole := call.maciRole.bind RoleArgument.normalized
  constitutionalHash := hash
  identity := call.identity
  registeredAt := call.now
  updatedAt := call.now

def backendInfo : BackendInfo where
  agentId := call.agentId
  capabilities := call.resolveTokenClaims.2.getD []
  metadataTenantId := some call.tenant

end Registration

namespace RegistryManager

variable [LowerTable] (enableMaci : Bool) (manager : RegistryManager) (call : Registration)

def storeLocalAgent (hash : String) : RegistryManager :=
  { manager with
    agents := manager.agents.set call.agentId (call.info hash)
    agentsByTenant := Buckets.add manager.agentsByTenant call.tenant call.agentId }

/-- The role that `_register_maci_role_if_enabled` registers. -/
def roleToRegister : Option RoleArgument :=
  if enableMaci then call.maciRole.filter RoleArgument.isTruthy else none

def registerMaciRoleIfEnabled : Outcome × RegistryManager :=
  match roleToRegister enableMaci call with
  | none => (.returned true, manager)
  | some role =>
    match call.maci with
    | some .handled => (.returned false, manager)
    | some .unhandled => (.raised, manager)
    | none => (.returned true,
        { manager with maciRoles := manager.maciRoles.set call.agentId role })

def storeBackend : RegistryManager :=
  { manager with registry := manager.registry.set call.agentId call.backendInfo }

def registerBackend : Outcome × RegistryManager :=
  match call.backend with
  | .refuses => (.returned false, manager)
  | .raises written => (.raised, if written then manager.storeBackend call else manager)
  | .works =>
    match manager.registry.get call.agentId with
    | some _ => (.returned false, manager)
    | none => (.returned true, manager.storeBackend call)

def rollbackLocalRegistration (existing : Bool) : RegistryManager :=
  if existing then manager
  else
    { manager with
      agents := manager.agents.erase call.agentId
      agentsByTenant := Buckets.discard manager.agentsByTenant call.tenant call.agentId }

def registerAgent : Outcome × RegistryManager :=
  if call.isBlank then (.returned false, manager)
  else
    match call.syncConstitutionalHash with
    | none => (.raised, manager)
    | some hash =>
      let existing := (manager.agents.get call.agentId).isSome
      let stored := manager.storeLocalAgent call hash
      match registerMaciRoleIfEnabled enableMaci stored call with
      | (.raised, m) => (.raised, m)
      | (.returned false, m) => (.returned false, m.rollbackLocalRegistration call existing)
      | (.returned true, m) =>
        match m.registerBackend call with
        | (.raised, m) => (.raised, m)
        | (.returned false, m) => (.returned false, m.rollbackLocalRegistration call existing)
        | (.returned true, m) => (.returned true, m)

/-- `unregister_agent`, up to the call of the backend. -/
def unregisterLocal (aid : String) : RegistryManager :=
  match manager.agents.get aid with
  | none => manager
  | some info =>
    { manager with
      agents := manager.agents.erase aid
      agentsByTenant :=
        if info.tenantId = "" then manager.agentsByTenant
        else Buckets.discard manager.agentsByTenant info.tenantId aid }

/-- `unregister_agent`, where the backend may fail. -/
def unregisterAgent (aid : String) (backendFails : Bool) : Outcome × RegistryManager :=
  let m := manager.unregisterLocal aid
  if backendFails then (.raised, m)
  else (.returned (m.registry.get aid).isSome, { m with registry := m.registry.erase aid })

/-- `get_agents_by_tenant`: without a tenant, or of the tenant `none`, every agent. -/
def getAgentsByTenant (tenantId : Option String) : Finset String :=
  match tenantId with
  | none => manager.agents.keys.toFinset
  | some tenantId =>
    if tenantId = "" ∨ tenantId = "none" then manager.agents.keys.toFinset
    else Buckets.members manager.agentsByTenant tenantId

end RegistryManager

end EnhancedAgentBus.Components
