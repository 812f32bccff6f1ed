import Mathlib.Algebra.Order.Ring.Rat
import Mathlib.Data.List.Sort

/-!
# Tenants and their children

The `TenantRepository`, and what a `TenantManager` does with a tenant and its children.  The
children of a tenant are found in a listing that is paged twice: of the newest thousand tenants
those with the parent, and of these the first hundred.

The recursive operations are given a number of levels, and answer nothing where they need more.

The events that are published, and the times at which a tenant was changed, are left out.  So is the
cache: it has the repository's own objects, and loses one when it is deleted.
-/

namespace EnhancedAgentBus.MultiTenancy

abbrev Seconds := ℚ

/-! ## The repository -/

inductive TenantStatus where
  | pending
  | active
  | suspended
  | deactivated
  | migrating
  deriving DecidableEq

structure Tenant where
  tenantId : String
  parentTenantId : Option String := none
  status : TenantStatus := .pending
  createdAt : Seconds
  /-- `metadata["suspension_reason"]` -/
  suspensionReason : Option String := none

/-- The tenants, under their ids and in the order of their creation. -/
structure TenantRepository where
  tenants : List Tenant
  nodup : (tenants.map Tenant.tenantId).Nodup

def Tenant.suspend (tenant : Tenant) (reason : Option String) : Tenant :=
  { tenant with
    status := .suspended
    suspensionReason :=
      if reason = none ∨ reason = some "" then tenant.suspensionReason else reason }

namespace TenantRepository

variable (repo : TenantRepository)

def getTenant (tenantId : String) : Option Tenant :=
  repo.tenants.find? (·.tenantId = tenantId)

/-- `tenants.sort(key=lambda t: t.created_at, reverse=True)` -/
def newestFirst : List Tenant → List Tenant :=
  List.insertionSort fun t t' => t'.createdAt ≤ t.createdAt

def listTenants (status : Option TenantStatus) (skip limit : ℕ) : List Tenant :=
  let tenants := repo.tenants.filter fun t => status = none ∨ status = some t.status
  ((newestFirst tenants).drop skip).take limit

def suspendTenant (tenantId : String) (reason : Option String) :
    Option (Tenant × TenantRepository) :=
  (repo.getTenant tenantId).map fun tenant =>
    (tenant.suspend reason,
      { tenants := repo.tenants.map fun t =>
          if t.tenantId = tenantId then t.suspend reason else t
        nodup := by
          rw [List.map_map]
          convert repo.nodup using 2
          funext t
          exact (apply_ite ..).trans (ite_self _) })

def deleteTenant (tenantId : String) : Bool × TenantRepository :=
  ((repo.getTenant tenantId).isSome,
    { tenants := repo.tenants.filter (·.tenantId ≠ tenantId)
      nodup := repo.nodup.sublist (List.filter_sublist.map _) })

end TenantRepository

/-! ## The manager -/

structure TenantValidationError where
  message : String
  tenantId : String

namespace Manager

def listTenants (repo : TenantRepository) (status : Option TenantStatus) (parentId : Option String)
    (skip limit : ℕ) : List Tenant :=
  let tenants := repo.listTenants status 0 1000
  let tenants :=
    match parentId with
    | none => tenants
    | some parentId => tenants.filter (·.parentTenantId = some parentId)
  (tenants.drop skip).take limit

def getChildTenants (repo : TenantRepository) (parentId : String) : List Tenant :=
  listTenants repo none (some parentId) 0 100

def suspendTenant (levels : ℕ) (repo : TenantRepository) (tenantId : String)
    (reason : Option String) (suspendChildren : Bool) : Option (Option Tenant × TenantRepository) :=
  match levels with
  | 0 => none
  | levels + 1 =>
    match repo.suspendTenant tenantId reason with
    | none => some (none, repo)
    | some (tenant, repo) =>
      if suspendChildren then
        let reason := "Parent tenant suspended: " ++ reason.getD "None"
        ((getChildTenants repo tenantId).foldlM (fun repo child =>
            (suspendTenant levels repo child.tenantId (some reason) true).map Prod.snd)
          repo).map fun repo => (some tenant, repo)
      else some (some tenant, repo)

def deleteTenant (levels : ℕ) (repo : TenantRepository) (tenantId : String) (force : Bool) :
    Option (Except TenantValidationError Bool × TenantRepository) :=
  match levels with
  | 0 => none
  | levels + 1 =>
    match repo.getTenant tenantId with
    | none => some (.ok false, repo)
    | some _ =>
      let children := getChildTenants repo tenantId
      if children ≠ [] ∧ force = false then
        some (.error
          { message := "Cannot delete tenant with " ++ toString children.length ++
              " child tenants. Use force=True."
            tenantId := tenantId }, repo)
      else
        (children.foldlM (fun repo child =>
            (deleteTenant levels repo child.tenantId true).map Prod.snd)
          repo).map fun repo =>
            let (deleted, repo) := repo.deleteTenant tenantId
            (.ok deleted, repo)

/-- The loop of `get_all_descendants`, for a number of turns. -/
def processAll (turns : ℕ) (repo : TenantRepository) (toProcess : List String)
    (descendants : List Tenant) : Option (List Tenant) :=
  match turns, toProcess with
  | _, [] => some descendants
  | 0, _ :: _ => none
  | turns + 1, currentId :: toProcess =>
    let children := getChildTenants repo currentId
    processAll turns repo (toProcess ++ children.map Tenant.tenantId) (descendants ++ children)

def getAllDescendants (turns : ℕ) (repo : TenantRepository) (tenantId : String) :
    Option (List Tenant) :=
  processAll turns repo [tenantId] []

end Manager

end EnhancedAgentBus.MultiTenancy
