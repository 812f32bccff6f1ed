import EnhancedAgentBus.Constitutional.VersionModel
import EnhancedAgentBus.Lib.Async

/-!
# The constitutional storage service

The versions of one tenant: their rows in the database, the cached ones in Redis, the identifier
under the tenant's active key, and the lock key of the tenant.  A call is the program of the commands
it awaits.

What the environment decides about a command is a `Delivery`: what expires just before it, and
whether it is answered, refused, or executed with its answer lost.  A refused or lost command returns
the failure value that `CacheManager`, `LockManager` and `PersistenceManager` return for it.  Without
a Redis client the cache manager answers at once, and the lock manager grants every lock.

The database's two own exceptions are kept (`DbError`): the primary key refuses a second row, and
`scalar_one_or_none` refuses two.
-/

namespace EnhancedAgentBus.Constitutional

open Async Async.Prog

/-! ## Versions filed under their identifier -/

structure Versions where
  byId : Dict String ConstitutionalVersion
  filed : ∀ id v, byId.get id = some v → v.versionId = id

namespace Versions

def empty : Versions := ⟨Dict.empty, fun _ _ h => by cases h⟩

def find (vs : Versions) (id : String) : Option ConstitutionalVersion := vs.byId.get id

def put (vs : Versions) (v : ConstitutionalVersion) : Versions where
  byId := vs.byId.set v.versionId v
  filed id w h := by
    rw [Dict.get_set] at h
    split at h
    · cases h
      exact Eq.symm ‹_›
    · exact vs.filed id w h

def remove (vs : Versions) (id : String) : Versions where
  byId := vs.byId.erase id
  filed id' w h := by
    rw [Dict.get_erase] at h
    split at h
    · cases h
    · exact vs.filed id' w h

def active (vs : Versions) : List ConstitutionalVersion :=
  vs.byId.values.filter ConstitutionalVersion.isActive

@[simp] theorem find_empty (id : String) : empty.find id = none := rfl

@[simp] theorem find_put (vs : Versions) (v : ConstitutionalVersion) (id : String) :
    (vs.put v).find id = if id = v.versionId then some v else vs.find id :=
  Dict.get_set vs.byId v.versionId id v

@[simp] theorem find_remove (vs : Versions) (id id' : String) :
    (vs.remove id).find id' = if id' = id then none else vs.find id' :=
  Dict.get_erase vs.byId id id'

theorem versionId_of_find {vs : Versions} {id : String} {v : ConstitutionalVersion}
    (h : vs.find id = some v) : v.versionId = id :=
  vs.filed id v h

theorem mem_active {vs : Versions} {v : ConstitutionalVersion} :
    v ∈ vs.active ↔ vs.find v.versionId = some v ∧ v.isActive = true := by
  rw [active, List.mem_filter, and_congr_left_iff]
  intro _
  constructor
  · intro hmem
    obtain ⟨id, hget⟩ := Dict.exists_get_of_mem_values hmem
    rwa [find, vs.filed id v hget]
  · intro hget
    exact List.mem_map_of_mem (Dict.mem_entries_of_get hget)

theorem mem_active_put {vs : Versions} {v w : ConstitutionalVersion} :
    w ∈ (vs.put v).active ↔
      (w = v ∧ v.isActive = true) ∨ (w ∈ vs.active ∧ w.versionId ≠ v.versionId) := by
  rw [mem_active, mem_active, find_put]
  by_cases hid : w.versionId = v.versionId
  · rw [if_pos hid]
    constructor
    · rintro ⟨hw, hactive⟩
      cases hw
      exact Or.inl ⟨rfl, hactive⟩
    · rintro (⟨rfl, hactive⟩ | ⟨-, hne⟩)
      · exact ⟨rfl, hactive⟩
      · exact absurd hid hne
  · rw [if_neg hid]
    constructor
    · exact fun h => Or.inr ⟨h, hid⟩
    · rintro (⟨rfl, -⟩ | ⟨h, -⟩)
      · exact absurd rfl hid
      · exact h

end Versions

/-! ## The commands -/

structure Store where
  locked : Bool := false
  cached : Versions := Versions.empty
  activeId : Option String := none
  rows : Versions := Versions.empty

inductive DbError where
  | integrityError
  | multipleResultsFound
  deriving DecidableEq

inductive Op where
  /-- `SET lock_key "1" NX EX lock_timeout` -/
  | setLock
  /-- `DEL lock_key` -/
  | delLock
  /-- `GET version_prefix + version_id` -/
  | getCached (versionId : String)
  /-- `SETEX version_prefix + version_id` -/
  | setCached (version : ConstitutionalVersion)
  /-- `GET active_version_key` -/
  | getActiveId
  /-- `SETEX active_version_key` -/
  | setActiveId (versionId : String)
  /-- `INSERT` of a row -/
  | insertVersion (version : ConstitutionalVersion)
  /-- `SELECT` by identifier -/
  | selectVersion (versionId : String)
  /-- `UPDATE` of a row -/
  | updateVersion (version : ConstitutionalVersion)
  /-- `SELECT` of the active row -/
  | selectActive

namespace Op

@[reducible] def Resp : Op → Type
  | setLock | delLock | setCached _ | setActiveId _ | updateVersion _ => Bool
  | getCached _ | selectVersion _ => Option ConstitutionalVersion
  | getActiveId => Option String
  | insertVersion _ => Except DbError Bool
  | selectActive => Except DbError (Option ConstitutionalVersion)

def failure : (o : Op) → o.Resp
  | setLock | delLock | setCached _ | setActiveId _ | updateVersion _ => false
  | getCached _ | selectVersion _ => none
  | getActiveId => none
  | insertVersion _ => .ok false
  | selectActive => .ok none

end Op

structure Expired where
  lock : Bool := false
  activeId : Bool := false
  cached : List String := []

/-- How a command ends: answered, not executed, or executed with its answer lost. -/
inductive Ending where
  | answered
  | refused
  | lost
  deriving DecidableEq

structure Delivery where
  expired : Expired := {}
  ending : Ending := .answered

namespace Store

def expire (s : Store) (x : Expired) : Store where
  locked := s.locked && !x.lock
  cached := x.cached.foldl Versions.remove s.cached
  activeId := if x.activeId then none else s.activeId
  rows := s.rows

/-- The columns that `update_version` writes. -/
def patch (row version : ConstitutionalVersion) : ConstitutionalVersion :=
  { row with
    status := version.status
    metadata := version.metadata
    activatedAt := version.activatedAt
    deactivatedAt := version.deactivatedAt }

def execute (s : Store) : (o : Op) → o.Resp × Store
  | .setLock => (!s.locked, { s with locked := true })
  | .delLock => (true, { s with locked := false })
  | .getCached versionId => (s.cached.find versionId, s)
  | .setCached version => (true, { s with cached := s.cached.put version })
  | .getActiveId => (s.activeId, s)
  | .setActiveId versionId => (true, { s with activeId := some versionId })
  | .insertVersion version =>
    match s.rows.find version.versionId with
    | some _ => (.error .integrityError, s)
    | none => (.ok true, { s with rows := s.rows.put version })
  | .selectVersion versionId => (s.rows.find versionId, s)
  | .updateVersion version =>
    match s.rows.find version.versionId with
    | some row => (true, { s with rows := s.rows.put (patch row version) })
    | none => (false, s)
  | .selectActive =>
    match s.rows.active with
    | [] => (.ok none, s)
    | [row] => (.ok (some row), s)
    | _ => (.error .multipleResultsFound, s)

def perform (s : Store) (o : Op) (d : Delivery) : Option (o.Resp × Store) :=
  let s := s.expire d.expired
  match d.ending with
  | .answered => some (s.execute o)
  | .refused => some (o.failure, s)
  | .lost => some (o.failure, (s.execute o).2)

end Store

def Step (s : Store) (o : Op) (r : o.Resp) (s' : Store) : Prop :=
  ∃ d, s.perform o d = some (r, s')

def Store.serve (s : Store) (o : Op) (x : Expired) : Option (o.Resp × Store) :=
  some ((s.expire x).execute o)

def StepServed (s : Store) (o : Op) (r : o.Resp) (s' : Store) : Prop :=
  ∃ x, s.serve o x = some (r, s')

/-! ## The calls -/

abbrev Code := Prog Op Op.Resp DbError

def command (o : Op) : Code o.Resp := Prog.perform o

abbrev Client := Bool

namespace CacheManager

def getVersion (redis : Client) (versionId : String) : Code (Option ConstitutionalVersion) :=
  if redis then command (.getCached versionId) else pure none

def setVersion (redis : Client) (version : ConstitutionalVersion) : Code Bool :=
  if redis then command (.setCached version) else pure false

def setActiveVersion (redis : Client) (versionId : String) : Code Bool :=
  if redis then command (.setActiveId versionId) else pure false

def getActiveVersionId (redis : Client) : Code (Option String) :=
  if redis then command .getActiveId else pure none

end CacheManager

namespace LockManager

def acquireLock (redis : Client) : Code Bool :=
  if redis then command .setLock else pure true

def releaseLock (redis : Client) : Code Bool :=
  if redis then command .delLock else pure true

end LockManager

namespace PersistenceManager

def saveVersion (version : ConstitutionalVersion) : Code Bool := do
  match ← (command (.insertVersion version) : Code (Except DbError Bool)) with
  | .ok saved => pure saved
  | .error e => .raise e

def getVersion (versionId : String) : Code (Option ConstitutionalVersion) :=
  command (.selectVersion versionId)

def updateVersion (version : ConstitutionalVersion) : Code Bool :=
  command (.updateVersion version)

def getActiveVersion : Code (Option ConstitutionalVersion) := do
  match ← (command .selectActive : Code (Except DbError (Option ConstitutionalVersion))) with
  | .ok version => pure version
  | .error e => .raise e

end PersistenceManager

namespace ConstitutionalStorageService

def saveVersion (version : ConstitutionalVersion) : Code Bool :=
  PersistenceManager.saveVersion version

def getVersion (redis : Client) (versionId : String) : Code (Option ConstitutionalVersion) := do
  match ← CacheManager.getVersion redis versionId with
  | some cached => pure (some cached)
  | none =>
    match ← PersistenceManager.getVersion versionId with
    | none => pure none
    | some version =>
      let _ ← CacheManager.setVersion redis version
      pure (some version)

def cachedActive (redis : Client) : Code (Option ConstitutionalVersion) := do
  match (← CacheManager.getActiveVersionId redis).filter (· ≠ "") with
  | some activeId => CacheManager.getVersion redis activeId
  | none => pure none

def getActiveVersion (redis : Client) : Code (Option ConstitutionalVersion) := do
  match ← cachedActive redis with
  | some version => pure (some version)
  | none =>
    match ← PersistenceManager.getActiveVersion with
    | none => pure none
    | some version =>
      let _ ← CacheManager.setVersion redis version
      let _ ← CacheManager.setActiveVersion redis version.versionId
      pure (some version)

def transition (redis : Client) (versionId : String) (version : ConstitutionalVersion)
    (current : Option ConstitutionalVersion) (deactivatedAt activatedAt : Time) : Code Bool := do
  match current with
  | some current =>
    let _ ← PersistenceManager.updateVersion (current.deactivate "superseded" deactivatedAt)
  | none => pure ()
  let version := version.activate activatedAt
  let _ ← PersistenceManager.updateVersion version
  let _ ← CacheManager.setVersion redis version
  let _ ← CacheManager.setActiveVersion redis versionId
  pure true

/-- `activate_version` between the lock and its release. -/
def activateLocked (redis : Client) (versionId : String) (deactivatedAt activatedAt : Time) :
    Code Bool := do
  match ← getVersion redis versionId with
  | none => pure false
  | some version =>
    let current ← getActiveVersion redis
    transition redis versionId version current deactivatedAt activatedAt

def activateVersion (redis : Client) (versionId : String) (deactivatedAt activatedAt : Time) :
    Code Bool := do
  if ← LockManager.acquireLock redis then
    let result ← ((activateLocked redis versionId deactivatedAt activatedAt).attempt : Code _)
    let _ ← LockManager.releaseLock redis
    match result with
    | .ok granted => pure granted
    | .error e => .raise e
  else pure false

end ConstitutionalStorageService

inductive Call where
  | saveVersion (version : ConstitutionalVersion)
  | getVersion (versionId : String)
  | getActiveVersion
  | activateVersion (versionId : String) (deactivatedAt activatedAt : Time)

inductive Answer where
  | done (b : Bool)
  | version (v : Option ConstitutionalVersion)

open ConstitutionalStorageService in
def Call.code (redis : Client) : Call → Code Answer
  | .saveVersion version => do return .done (← ConstitutionalStorageService.saveVersion version)
  | .getVersion versionId => do
    return .version (← ConstitutionalStorageService.getVersion redis versionId)
  | .getActiveVersion => do return .version (← ConstitutionalStorageService.getActiveVersion redis)
  | .activateVersion versionId deactivatedAt activatedAt => do
    return .done (← ConstitutionalStorageService.activateVersion redis versionId deactivatedAt
      activatedAt)

/-! ## What a command changes -/

namespace Store

@[simp] theorem expire_rows (s : Store) (x : Expired) : (s.expire x).rows = s.rows := rfl

theorem find_expire_cached {s : Store} {x : Expired} {id : String} {v : ConstitutionalVersion}
    (h : (s.expire x).cached.find id = some v) : s.cached.find id = some v := by
  have key (ids : List String) (vs : Versions) (h : (ids.foldl Versions.remove vs).find id = some v) :
      vs.find id = some v := by
    induction ids generalizing vs with
    | nil => exact h
    | cons first rest ih =>
      have hrest := ih _ h
      rw [Versions.find_remove] at hrest
      split at hrest
      · cases hrest
      · exact hrest
  exact key x.cached s.cached h

theorem expire_activeId {s : Store} {x : Expired} {id : String}
    (h : (s.expire x).activeId = some id) : s.activeId = some id := by
  simp only [expire] at h
  split at h
  · cases h
  · exact h

end Store

def Op.writesRows : Op → Bool
  | .insertVersion _ | .updateVersion _ => true
  | _ => false

theorem Store.execute_rows {s : Store} {o : Op} (h : o.writesRows = false) :
    (s.execute o).2.rows = s.rows := by
  cases o with
  | insertVersion | updateVersion => cases h
  | selectActive =>
    rw [execute]
    split <;> rfl
  | _ => rfl

theorem Step.rows_eq {s s' : Store} {o : Op} {r : o.Resp} (hstep : Step s o r s')
    (h : o.writesRows = false) : s'.rows = s.rows := by
  obtain ⟨d, hd⟩ := hstep
  have hexecuted := Store.execute_rows (s := s.expire d.expired) h
  simp only [Store.perform] at hd
  split at hd
  · obtain rfl : _ = s' := congrArg Prod.snd (Option.some_inj.mp hd)
    exact hexecuted
  · obtain rfl : _ = s' := congrArg Prod.snd (Option.some_inj.mp hd)
    rfl
  · obtain rfl : _ = s' := congrArg Prod.snd (Option.some_inj.mp hd)
    exact hexecuted

end EnhancedAgentBus.Constitutional
