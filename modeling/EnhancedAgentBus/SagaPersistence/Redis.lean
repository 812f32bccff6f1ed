import EnhancedAgentBus.Lib.Async
import EnhancedAgentBus.SagaPersistence.Models
import Mathlib.Algebra.Ring.Nat
import Mathlib.Data.Finset.Sort
import Mathlib.Data.String.Basic

/-!
# The Redis saga repository

`RedisSagaStateRepository`: every Redis command is one operation, and so is every pipeline, which
Redis executes as a whole; between two of them other clients may run.  The dates and identifiers
that a call draws, and the order in which a set is iterated, are the environment's.

Saga data does not expire during a run, and locks are in `Locking`, so `EXPIRE` commands and the
`DEL` of the lock key are left out of the pipelines.  A command that fails ends its call with
`RepositoryError`: such a call is one that goes no further, before or after the command.

### What is load-bearing

A write carries what its call last read of the saga (`basis`), and the pipelines of `save` and
`delete` are built from it.  Redis executes the commands and never looks at the basis.
-/

namespace EnhancedAgentBus.SagaPersistence

open Async Async.Prog

/-! ## The store -/

structure RedisStore where
  hashes : String → Option SagaHash := fun _ => none
  stateIndex : SagaState → Finset String := fun _ => ∅
  tenantIndex : String → Finset String := fun _ => ∅
  /-- the list of compensation entries of a saga -/
  compensations : String → List CompensationEntry := fun _ => []
  checkpoints : String → String → Option SagaCheckpoint := fun _ _ => none
  /-- the sorted set of the checkpoints of a saga, with their scores -/
  checkpointList : String → List (String × Instant) := fun _ => []

inductive Command where
  | hset (sagaId : String) (mapping : SagaHash)
  | delHash (sagaId : String)
  | saddState (state : SagaState) (sagaId : String)
  | sremState (state : SagaState) (sagaId : String)
  | saddTenant (tenantId sagaId : String)
  | sremTenant (tenantId sagaId : String)
  | lpush (sagaId : String) (entry : CompensationEntry)
  | delCompensations (sagaId : String)
  | setexCheckpoint (checkpoint : SagaCheckpoint)
  | zadd (sagaId checkpointId : String) (score : Instant)
  | delCheckpoint (sagaId checkpointId : String)
  | delCheckpointList (sagaId : String)

def RedisStore.command (s : RedisStore) : Command → RedisStore
  | .hset sagaId mapping =>
    { s with
      hashes := Function.update s.hashes sagaId
        (some (mapping.hset ((s.hashes sagaId).getD {}))) }
  | .delHash sagaId => { s with hashes := Function.update s.hashes sagaId none }
  | .saddState state sagaId =>
    { s with
      stateIndex := Function.update s.stateIndex state
        (insert sagaId (s.stateIndex state)) }
  | .sremState state sagaId =>
    { s with
      stateIndex := Function.update s.stateIndex state
        ((s.stateIndex state).erase sagaId) }
  | .saddTenant tenantId sagaId =>
    { s with
      tenantIndex := Function.update s.tenantIndex tenantId
        (insert sagaId (s.tenantIndex tenantId)) }
  | .sremTenant tenantId sagaId =>
    { s with
      tenantIndex := Function.update s.tenantIndex tenantId
        ((s.tenantIndex tenantId).erase sagaId) }
  | .lpush sagaId entry =>
    { s with
      compensations := Function.update s.compensations sagaId
        (entry :: s.compensations sagaId) }
  | .delCompensations sagaId =>
    { s with
      compensations := Function.update s.compensations sagaId [] }
  | .setexCheckpoint checkpoint =>
    { s with
      checkpoints := Function.update s.checkpoints checkpoint.sagaId
        (Function.update (s.checkpoints checkpoint.sagaId) checkpoint.checkpointId
          (some checkpoint)) }
  | .zadd sagaId checkpointId score =>
    { s with
      checkpointList := Function.update s.checkpointList sagaId
        ((s.checkpointList sagaId).filter (·.1 ≠ checkpointId) ++ [(checkpointId, score)]) }
  | .delCheckpoint sagaId checkpointId =>
    { s with
      checkpoints := Function.update s.checkpoints sagaId
        (Function.update (s.checkpoints sagaId) checkpointId none) }
  | .delCheckpointList sagaId =>
    { s with
      checkpointList := Function.update s.checkpointList sagaId [] }

/-- The members of a sorted set, by score and then by name. -/
def zrange (members : List (String × Instant)) : List String :=
  (members.mergeSort fun a b => a.2 < b.2 ∨ (a.2 = b.2 ∧ a.1 ≤ b.1)).map Prod.fst

/-- `ZREVRANGE key 0 stop` -/
def zrevrange (members : List (String × Instant)) (stop : ℤ) : List String :=
  let all := (zrange members).reverse
  if 0 ≤ stop then all.take (stop.toNat + 1) else all.take (all.length + stop + 1).toNat

/-! ## Operations -/

/-- The writes of the calls, each a command or a pipeline; `basis` is what the call last read. -/
inductive Write where
  | save (saga : PersistedSagaState) (basis : Option SagaHash)
  | updateState (sagaId : String) (updates : SagaHash) (currentState newState : SagaState)
      (basis : Option SagaHash)
  | updateStepState (sagaId : String) (steps : List PersistedStepSnapshot) (version : ℤ)
      (basis : Option SagaHash)
  | updateCurrentStep (sagaId : String) (stepIndex : ℤ)
  | delete (sagaId : String) (state : SagaState) (tenantId : String)
      (checkpointIds : List String) (basis : Option SagaHash)
  | saveCheckpoint (checkpoint : SagaCheckpoint)
  | appendCompensationEntry (sagaId : String) (entry : CompensationEntry)

namespace Write

/-- `if old_state and old_state != saga.state` -/
def oldState (saga : PersistedSagaState) (basis : Option SagaHash) : Option SagaState :=
  (basis.bind SagaHash.state).filter (· ≠ saga.state)

def commands : Write → List Command
  | save saga basis =>
    .hset saga.sagaId saga.toRedisHash ::
      ((oldState saga basis).toList.map fun state => .sremState state saga.sagaId) ++
      [.saddState saga.state saga.sagaId] ++
      if saga.tenantId ≠ "" then [.saddTenant saga.tenantId saga.sagaId] else []
  | updateState sagaId updates currentState newState _ =>
    [.hset sagaId updates, .sremState currentState sagaId, .saddState newState sagaId]
  | updateStepState sagaId steps version _ =>
    [.hset sagaId { steps := some steps, version := some version }]
  | updateCurrentStep sagaId stepIndex => [.hset sagaId { currentStepIndex := some stepIndex }]
  | delete sagaId state tenantId checkpointIds _ =>
    [.delHash sagaId, .delCompensations sagaId, .sremState state sagaId] ++
      (if tenantId ≠ "" then [.sremTenant tenantId sagaId] else []) ++
      checkpointIds.map (.delCheckpoint sagaId) ++ [.delCheckpointList sagaId]
  | saveCheckpoint checkpoint =>
    [.setexCheckpoint checkpoint,
      .zadd checkpoint.sagaId checkpoint.checkpointId checkpoint.createdAt]
  | appendCompensationEntry sagaId entry => [.lpush sagaId entry]

end Write

inductive RedisOp where
  | hgetall (sagaId : String)
  /-- `EXISTS` of the hash -/
  | hashExists (sagaId : String)
  | write (w : Write)
  | smembersState (state : SagaState)
  | smembersTenant (tenantId : String)
  | scard (state : SagaState)
  | zrangeAll (sagaId : String)
  | zrevrange (sagaId : String) (stop : ℤ)
  | getCheckpoint (sagaId checkpointId : String)
  | lrange (sagaId : String)
  /-- the current date and two identifiers -/
  | draw
  /-- the elements of a set, iterated -/
  | iterate (ids : Finset String)

@[reducible] def RedisOp.Resp : RedisOp → Type
  | hgetall _ => Option SagaHash
  | hashExists _ => Bool
  | write _ => Unit
  | smembersState _ => List String
  | smembersTenant _ => List String
  | scard _ => ℕ
  | zrangeAll _ => List String
  | zrevrange _ _ => List String
  | getCheckpoint _ _ => Option SagaCheckpoint
  | lrange _ => List CompensationEntry
  | draw => Fresh
  | iterate _ => List String

/-- What the environment decides about an operation. -/
structure Choice where
  fresh : Fresh := ⟨0, "", ""⟩
  order : List String := []

namespace RedisStore

def ordered (ids : Finset String) (order : List String) : Option (List String) :=
  if order.Nodup ∧ order.toFinset = ids then some order else none

def write (s : RedisStore) (w : Write) : RedisStore := w.commands.foldl command s

/-- **One operation.** -/
def perform (s : RedisStore) : (o : RedisOp) → Choice → Option (o.Resp × RedisStore)
  | .hgetall sagaId, _ => some (s.hashes sagaId, s)
  | .hashExists sagaId, _ => some ((s.hashes sagaId).isSome, s)
  | .write w, _ => some ((), s.write w)
  | .smembersState state, choice =>
    (ordered (s.stateIndex state) choice.order).map fun ids => (ids, s)
  | .smembersTenant tenantId, choice =>
    (ordered (s.tenantIndex tenantId) choice.order).map fun ids => (ids, s)
  | .scard state, _ => some ((s.stateIndex state).card, s)
  | .zrangeAll sagaId, _ => some (zrange (s.checkpointList sagaId), s)
  | .zrevrange sagaId stop, _ => some (SagaPersistence.zrevrange (s.checkpointList sagaId) stop, s)
  | .getCheckpoint sagaId checkpointId, _ => some (s.checkpoints sagaId checkpointId, s)
  | .lrange sagaId, _ => some (s.compensations sagaId, s)
  | .draw, choice => some (choice.fresh, s)
  | .iterate ids, choice => (ordered ids choice.order).map fun ids => (ids, s)

end RedisStore

/-! ## The calls -/

inductive SagaError where
  | versionConflict (sagaId : String) (expectedVersion actualVersion : ℤ)
  | invalidStateTransition (sagaId : String) (currentState targetState : SagaState)
  /-- a flywheel run that cannot be read, or an identifier that is no UUID -/
  | valueError
  /-- a statement that the database refuses -/
  | repositoryError
deriving DecidableEq

abbrev RedisCode := Prog RedisOp RedisOp.Resp SagaError

abbrev ask (o : RedisOp) : RedisCode o.Resp := perform o

namespace Redis

/-- `PersistedSagaState.from_redis_hash` -/
def fromHash (data : SagaHash) : RedisCode PersistedSagaState := do
  let fresh ← ask .draw
  pure (PersistedSagaState.fromRedisHash fresh data)

/-- Save or update a saga state with optimistic locking. -/
def save (saga : PersistedSagaState) : RedisCode Bool := do
  let existingData ← ask (.hgetall saga.sagaId)
  match existingData with
  | some data =>
    let existingVersion := data.version.getD 0
    if existingVersion ≠ saga.version - 1 ∧ existingVersion ≠ saga.version then
      .raise (.versionConflict saga.sagaId saga.version existingVersion)
    else do
      ask (.write (.save saga existingData))
      pure true
  | none => do
    ask (.write (.save saga none))
    pure true

def get (sagaId : String) : RedisCode (Option PersistedSagaState) := do
  let data ← ask (.hgetall sagaId)
  match data with
  | none => pure none
  | some data => some <$> fromHash data

def delete (sagaId : String) : RedisCode Bool := do
  let data ← ask (.hgetall sagaId)
  match data with
  | none => pure false
  | some hash => do
    let saga ← fromHash hash
    let checkpointIds ← ask (.zrangeAll sagaId)
    ask (.write (.delete sagaId saga.state saga.tenantId checkpointIds data))
    pure true

def stateUpdates (saga : PersistedSagaState) (newState : SagaState)
    (failureReason : Option String) (now : Instant) : SagaHash :=
  let updates : SagaHash := { state := some newState, version := some (saga.version + 1) }
  match newState with
  | .running =>
    if saga.startedAt.isNone then { updates with startedAt := some (some now) } else updates
  | .completed =>
    { updates with
      completedAt := some (some now)
      totalDurationMs := saga.startedAt.map fun startedAt => ((now - startedAt : ℤ) : ℚ) / 1000 }
  | .compensated => { updates with compensatedAt := some (some now) }
  | .failed =>
    { updates with
      failedAt := some (some now)
      failureReason := failureReason.filter (· ≠ "") }
  | .initialized | .compensating => updates

def updateState (sagaId : String) (newState : SagaState) (failureReason : Option String) :
    RedisCode Bool := do
  let data ← ask (.hgetall sagaId)
  match data with
  | none => pure false
  | some hash => do
    let saga ← fromHash hash
    if newState ∉ validStateTransitions saga.state then
      .raise (.invalidStateTransition sagaId saga.state newState)
    else do
      let fresh ← ask .draw
      ask (.write (.updateState sagaId (stateUpdates saga newState failureReason fresh.now)
        saga.state newState data))
      pure true

end Redis

/-- A step with a new state, as `update_step_state` builds it. -/
def PersistedStepSnapshot.updated (step : PersistedStepSnapshot) (newState : StepState)
    (outputData : Json) (errorMessage : Option String) (now : Instant) : PersistedStepSnapshot :=
  { step with
    state := newState
    outputData := if outputData.truthy then outputData else step.outputData
    errorMessage := (errorMessage.filter (· ≠ "")).or step.errorMessage
    startedAt := step.startedAt.or (if newState = .running then some now else none)
    completedAt := if newState.isTerminal then some now else step.completedAt
    durationMs := match step.startedAt with
      | some startedAt =>
        if newState.isTerminal then ((now - startedAt : ℤ) : ℚ) / 1000 else step.durationMs
      | none => step.durationMs }

/-- The steps with those of an identifier updated; `none` if there are none. -/
def updatedSteps (steps : List PersistedStepSnapshot) (stepId : String) (newState : StepState)
    (outputData : Json) (errorMessage : Option String) (now : Instant) :
    Option (List PersistedStepSnapshot) :=
  if steps.any (·.stepId = stepId) then
    some (steps.map fun step =>
      if step.stepId = stepId then step.updated newState outputData errorMessage now else step)
  else none

namespace Redis

def updateStepState (sagaId stepId : String) (newState : StepState) (outputData : Json)
    (errorMessage : Option String) : RedisCode Bool := do
  -- `get`, whose hash is kept
  let data ← ask (.hgetall sagaId)
  match data with
  | none => pure false
  | some hash => do
    let saga ← fromHash hash
    let fresh ← ask .draw
    match updatedSteps saga.steps stepId newState outputData errorMessage fresh.now with
    | none => pure false
    | some steps => do
      ask (.write (.updateStepState sagaId steps (saga.version + 1) data))
      pure true

def updateCurrentStep (sagaId : String) (stepIndex : ℤ) : RedisCode Bool := do
  let found ← ask (.hashExists sagaId)
  if found then do
    ask (.write (.updateCurrentStep sagaId stepIndex))
    pure true
  else pure false

/-! ### Checkpoints and compensation entries -/

def saveCheckpoint (checkpoint : SagaCheckpoint) : RedisCode Bool := do
  ask (.write (.saveCheckpoint checkpoint))
  pure true

/-- The checkpoints with some identifiers, those that are gone left out. -/
def fetchCheckpoints (sagaId : String) : List String → RedisCode (List SagaCheckpoint)
  | [] => pure []
  | checkpointId :: rest => do
    let data ← ask (.getCheckpoint sagaId checkpointId)
    let others ← fetchCheckpoints sagaId rest
    pure (data.toList ++ others)

def getCheckpoints (sagaId : String) (limit : ℤ) : RedisCode (List SagaCheckpoint) := do
  let checkpointIds ← ask (.zrevrange sagaId (limit - 1))
  fetchCheckpoints sagaId checkpointIds

def appendCompensationEntry (sagaId : String) (entry : CompensationEntry) : RedisCode Bool := do
  let found ← ask (.hashExists sagaId)
  if found then do
    ask (.write (.appendCompensationEntry sagaId entry))
    pure true
  else pure false

def getCompensationLog (sagaId : String) : RedisCode (List CompensationEntry) :=
  ask (.lrange sagaId)

/-! ### Queries -/

/-- `xs[start:stop]` -/
def pySlice {α : Type} (xs : List α) (start stop : ℤ) : List α :=
  let index (i : ℤ) : ℕ := (if i < 0 then i + xs.length else i).toNat
  (xs.take (index stop)).drop (index start)

/-- The sagas with some identifiers, those that are gone left out. -/
def fetch : List String → RedisCode (List PersistedSagaState)
  | [] => pure []
  | sagaId :: rest => do
    let saga ← get sagaId
    let others ← fetch rest
    pure (saga.toList ++ others)

/-- Sort by `created_at` descending. -/
def newestFirst (sagas : List PersistedSagaState) : List PersistedSagaState :=
  sagas.mergeSort fun a b => b.createdAt ≤ a.createdAt

instance isTransStringGe : IsTrans String (· ≥ ·) := ⟨fun _ _ _ hab hbc => le_trans hbc hab⟩

instance antisymmStringGe : Std.Antisymm fun a b : String => a ≥ b := ⟨fun _ _ hge hle => le_antisymm hle hge⟩

instance totalStringGe : Std.Total fun a b : String => a ≥ b := ⟨fun a b => le_total b a⟩

def fetchPage (sagaIds : Finset String) (limit offset : ℤ) :
    RedisCode (List PersistedSagaState) := do
  let sorted := sagaIds.sort (· ≥ ·)
  let sagas ← fetch (pySlice sorted offset (offset + limit))
  pure (newestFirst sagas)

def listByTenant (tenantId : String) (state : Option SagaState) (limit offset : ℤ) :
    RedisCode (List PersistedSagaState) := do
  let sagaIds ← ask (.smembersTenant tenantId)
  if sagaIds.isEmpty then pure []
  else
    match state with
    | none => fetchPage sagaIds.toFinset limit offset
    | some state => do
      let stateSagaIds ← ask (.smembersState state)
      fetchPage (sagaIds.toFinset ∩ stateSagaIds.toFinset) limit offset

/-- List sagas in a specific state across all tenants. -/
def listByState (state : SagaState) (limit offset : ℤ) :
    RedisCode (List PersistedSagaState) := do
  let sagaIds ← ask (.smembersState state)
  if sagaIds.isEmpty then pure [] else fetchPage sagaIds.toFinset limit offset

def listPendingCompensations (limit : ℤ) : RedisCode (List PersistedSagaState) := do
  let compensatingIds ← ask (.smembersState .compensating)
  let runningIds ← ask (.smembersState .running)
  let allIds ← ask (.iterate (compensatingIds.toFinset ∪ runningIds.toFinset))
  fetch (pySlice allIds 0 limit)

def countByState (state : SagaState) : RedisCode ℕ := ask (.scard state)

/-- The counts of `get_statistics`, by state. -/
def countStates : List SagaState → RedisCode (List (SagaState × ℕ))
  | [] => pure []
  | state :: rest => do
    let count ← countByState state
    let others ← countStates rest
    pure ((state, count) :: others)

def getStatistics : RedisCode (List (SagaState × ℕ) × ℕ) := do
  let countsByState ← countStates SagaState.all
  pure (countsByState, (countsByState.map Prod.snd).sum)

/-! ### Maintenance -/

end Redis

def PersistedSagaState.checkTime (saga : PersistedSagaState) : Instant :=
  (((saga.completedAt.or saga.compensatedAt).or saga.failedAt).getD saga.createdAt)

namespace Redis

def cleanupSaga (olderThan : Instant) (sagaId : String) : RedisCode Bool := do
  let saga ← get sagaId
  match saga with
  | none => pure false
  | some saga => if saga.checkTime < olderThan then delete sagaId else pure false

/-- Delete the old ones of some sagas, and count them. -/
def cleanupSagas (olderThan : Instant) : List String → RedisCode ℕ
  | [] => pure 0
  | sagaId :: rest => do
    let deleted ← cleanupSaga olderThan sagaId
    let others ← cleanupSagas olderThan rest
    pure ((if deleted then 1 else 0) + others)

def cleanupStates (olderThan : Instant) : List SagaState → RedisCode ℕ
  | [] => pure 0
  | state :: rest => do
    let sagaIds ← ask (.smembersState state)
    let deleted ← cleanupSagas olderThan sagaIds
    let others ← cleanupStates olderThan rest
    pure (deleted + others)

def cleanupOldSagas (olderThan : Instant) (terminalOnly : Bool) : RedisCode ℕ :=
  let statesToCheck := [.completed, .compensated, .failed] ++
    if terminalOnly then [] else [.initialized, .running]
  cleanupStates olderThan statesToCheck

/-! ### Flywheel runs -/

variable [IsoText] [PrintTable]

def saveFlywheelRun (run : FlywheelRunRecord) : RedisCode Bool := save run.toSagaState

def getFlywheelRun (runId : String) : RedisCode (Option FlywheelRunRecord) := do
  let saga ← get runId
  match saga with
  | none => pure none
  | some saga =>
    if saga.sagaName ≠ flywheelRunSagaName then pure none
    else
      match FlywheelRunRecord.fromSagaState saga with
      | none => .raise .valueError
      | some run => pure (some run)

def pauseFlywheelRun (runId : String) (reason : Option String) : RedisCode Bool := do
  let run ← getFlywheelRun runId
  match run with
  | none => pure false
  | some run => do
    let fresh ← ask .draw
    let metadata := match reason.filter (· ≠ "") with
      | some reason => Json.assign "pause_reason" (.str reason) run.metadata
      | none => run.metadata
    saveFlywheelRun { run with
      paused := true, updatedAt := fresh.now, metadata, version := run.version + 1 }

def resumeFlywheelRun (runId : String) : RedisCode Bool := do
  let run ← getFlywheelRun runId
  match run with
  | none => pure false
  | some run =>
    if run.state = .initialized then do
      let stateUpdated ← updateState runId .running none
      if stateUpdated then do
        let run ← getFlywheelRun runId
        match run with
        | none => pure false
        | some run => resumed run
      else pure false
    else resumed run
where
  resumed (run : FlywheelRunRecord) : RedisCode Bool := do
    let fresh ← ask .draw
    saveFlywheelRun { run with
      paused := false, metadata := Json.erase "pause_reason" run.metadata,
      updatedAt := fresh.now, version := run.version + 1 }

def advanceFlywheelRunStage (runId : String) (stage : FlywheelRunStage)
    (currentStepIndex : Option ℤ) (metadata : JsonDict) : RedisCode Bool := do
  let run ← getFlywheelRun runId
  match run with
  | none => pure false
  | some run =>
    match currentStepIndex with
    | none => advanced { run with stage }
    | some index => do
      let updated ← updateCurrentStep runId index
      if updated then advanced { run with stage, currentStepIndex := index } else pure false
where
  advanced (run : FlywheelRunRecord) : RedisCode Bool := do
    let fresh ← ask .draw
    saveFlywheelRun { run with
      metadata := FlywheelRunRecord.updateDict run.metadata metadata,
      updatedAt := fresh.now, version := run.version + 1 }

omit [IsoText] [PrintTable] in
def completeFlywheelRun (runId : String) : RedisCode Bool := updateState runId .completed none

omit [IsoText] [PrintTable] in
def stopFlywheelRun (runId reason : String) : RedisCode Bool :=
  updateState runId .failed (some reason)

end Redis

/-! ## What an operation leaves -/

def RedisStep (s : RedisStore) (o : RedisOp) (r : o.Resp) (s' : RedisStore) : Prop :=
  ∃ choice, s.perform o choice = some (r, s')

namespace Write

def sagaId : Write → String
  | save saga _ => saga.sagaId
  | updateState sagaId _ _ _ _ | updateStepState sagaId _ _ _ | updateCurrentStep sagaId _
  | delete sagaId _ _ _ _ | appendCompensationEntry sagaId _ => sagaId
  | saveCheckpoint checkpoint => checkpoint.sagaId

/-- What a write leaves of the hash of its saga. -/
def leaves : Write → Option SagaHash → Option SagaHash
  | save saga _, _ => some saga.toRedisHash
  | updateState _ updates _ _ _, hash => some (updates.hset (hash.getD {}))
  | updateStepState _ steps version _, hash =>
    some (SagaHash.hset { steps := some steps, version := some version } (hash.getD {}))
  | updateCurrentStep _ stepIndex, hash =>
    some (SagaHash.hset { currentStepIndex := some stepIndex } (hash.getD {}))
  | delete _ _ _ _ _, _ => none
  | saveCheckpoint _, hash => hash
  | appendCompensationEntry _ _, hash => hash

end Write

namespace RedisStore

variable {s s' : RedisStore}

theorem foldl_command {α : Type} (part : RedisStore → α) {commands : List Command}
    (h : ∀ c ∈ commands, ∀ s : RedisStore, part (s.command c) = part s) (s : RedisStore) :
    part (commands.foldl command s) = part s := by
  induction commands generalizing s with
  | nil => rfl
  | cons c commands ih =>
    rw [List.foldl_cons, ih fun c hc => h c (List.mem_cons_of_mem _ hc)]
    exact h c (List.mem_cons_self ..) s

theorem foldl_delCheckpoint {α : Type} (part : RedisStore → α) (sagaId : String)
    (h : ∀ checkpointId (s : RedisStore),
      part (s.command (.delCheckpoint sagaId checkpointId)) = part s)
    (checkpointIds : List String) (s : RedisStore) :
    part ((checkpointIds.map (.delCheckpoint sagaId)).foldl command s) = part s := by
  refine foldl_command part (fun c hc s => ?_) s
  obtain ⟨checkpointId, _, rfl⟩ := List.mem_map.mp hc
  exact h checkpointId s

/-- **A write leaves the hashes of other sagas alone.** -/
theorem hashes_write (s : RedisStore) (w : Write) :
    (s.write w).hashes = Function.update s.hashes w.sagaId (w.leaves (s.hashes w.sagaId)) := by
  cases w with
  | save saga basis =>
    have hold : ((Write.oldState saga basis).toList.map fun state =>
        Command.sremState state saga.sagaId).foldl command
        (s.command (.hset saga.sagaId saga.toRedisHash)) =
        { (s.command (.hset saga.sagaId saga.toRedisHash)) with
          stateIndex := (((Write.oldState saga basis).toList.map fun state =>
            Command.sremState state saga.sagaId).foldl command
            (s.command (.hset saga.sagaId saga.toRedisHash))).stateIndex } := by
      cases Write.oldState saga basis <;> rfl
    simp only [write, Write.commands, List.foldl_append, List.foldl_cons, List.cons_append]
    rw [hold]
    split <;> rfl
  | delete sagaId state tenantId checkpointIds basis =>
    simp only [write, Write.commands, List.foldl_append, List.foldl_cons, List.foldl_nil]
    refine (foldl_delCheckpoint RedisStore.hashes sagaId (fun _ _ => rfl) checkpointIds _).trans ?_
    split <;> rfl
  | updateState | updateStepState | updateCurrentStep => rfl
  | saveCheckpoint | appendCompensationEntry => exact (Function.update_eq_self ..).symm

theorem hashes_write_self (s : RedisStore) (w : Write) :
    (s.write w).hashes w.sagaId = w.leaves (s.hashes w.sagaId) := by
  rw [hashes_write, Function.update_self]

theorem hashes_write_of_ne (s : RedisStore) {w : Write} {sagaId : String} (h : sagaId ≠ w.sagaId) :
    (s.write w).hashes sagaId = s.hashes sagaId := by
  rw [hashes_write, Function.update_of_ne h]

end RedisStore

/-- **Only a write changes the store.** -/
theorem RedisStep.cases {s s' : RedisStore} {o : RedisOp} {r : o.Resp} (h : RedisStep s o r s') :
    (∃ w, o = .write w ∧ s' = s.write w) ∨ ((∀ w, o ≠ .write w) ∧ s' = s) := by
  obtain ⟨choice, h⟩ := h
  cases o with
  | write w =>
    simp only [RedisStore.perform, Option.some_inj, Prod.mk.injEq] at h
    exact .inl ⟨w, rfl, h.2.symm⟩
  | smembersState | smembersTenant | iterate =>
    refine .inr ⟨by simp, ?_⟩
    simp only [RedisStore.perform, Option.map_eq_some_iff, Prod.mk.injEq] at h
    obtain ⟨ids, _, _, rfl⟩ := h
    rfl
  | hgetall | hashExists | scard | zrangeAll | zrevrange | getCheckpoint | lrange | draw =>
    simp only [RedisStore.perform, Option.some_inj, Prod.mk.injEq] at h
    exact .inr ⟨by simp, h.2.symm⟩

/-! ## What a call writes -/

/-- **What a call writes follows from what it read**: an `update_state` leaves the state it read
for one that is allowed, a `delete` unlists what it read, and a `save` has passed its version
check.  Only some calls delete. -/
def RedisOp.FollowsRead (mayDelete : Bool) : RedisOp → Prop
  | .write (.save saga basis) => ∀ hash, basis = some hash →
      hash.version.getD 0 = saga.version - 1 ∨ hash.version.getD 0 = saga.version
  | .write (.updateState _ updates currentState newState basis) =>
    ∃ hash fresh failureReason now, basis = some hash ∧
      let saga := PersistedSagaState.fromRedisHash fresh hash
      currentState = saga.state ∧ newState ∈ validStateTransitions saga.state ∧
        updates = Redis.stateUpdates saga newState failureReason now
  | .write (.updateStepState _ _ version basis) =>
    ∃ hash, basis = some hash ∧ version = hash.version.getD 1 + 1
  | .write (.delete _ state tenantId _ basis) =>
    mayDelete = true ∧ ∃ hash, basis = some hash ∧ state = hash.state.getD .initialized ∧
      tenantId = hash.tenantId.getD ""
  | _ => True

namespace Redis

variable {mayDelete : Bool}

theorem stateUpdates_fields (saga : PersistedSagaState) (newState : SagaState)
    (failureReason : Option String) (now : Instant) :
    (stateUpdates saga newState failureReason now).sagaName = none ∧
      (stateUpdates saga newState failureReason now).sagaId = none ∧
      (stateUpdates saga newState failureReason now).tenantId = none ∧
      (stateUpdates saga newState failureReason now).state = some newState ∧
      (stateUpdates saga newState failureReason now).version = some (saga.version + 1) := by
  cases newState with
  | running => simp only [stateUpdates]; split <;> simp
  | initialized | compensating | completed | compensated | failed => simp [stateUpdates]

theorem save_asks (saga : PersistedSagaState) : (save saga).Asks (RedisOp.FollowsRead mayDelete) := by
  refine ⟨trivial, fun data _ _ => ?_⟩
  rcases data with _ | hash
  · exact ⟨by simp [RedisOp.FollowsRead], fun _ _ _ => trivial⟩
  · simp only [Prog.bind]
    split
    · trivial
    · rename_i hversion
      refine ⟨?_, fun _ _ _ => trivial⟩
      rintro _ ⟨⟩
      rwa [not_and_or, not_not, not_not] at hversion

theorem get_asks (sagaId : String) : (get sagaId).Asks (RedisOp.FollowsRead mayDelete) := by
  refine ⟨trivial, fun data _ _ => ?_⟩
  rcases data with _ | hash
  · trivial
  · exact ⟨trivial, fun _ _ _ => trivial⟩

theorem delete_asks (sagaId : String) : (delete sagaId).Asks (RedisOp.FollowsRead true) := by
  refine ⟨trivial, fun data _ _ => ?_⟩
  rcases data with _ | hash
  · trivial
  · refine ⟨trivial, fun fresh _ _ => ⟨trivial, fun checkpointIds _ _ => ?_⟩⟩
    exact ⟨⟨rfl, hash, rfl, rfl, rfl⟩, fun _ _ _ => trivial⟩

theorem updateState_asks (sagaId : String) (newState : SagaState) (failureReason : Option String) :
    (updateState sagaId newState failureReason).Asks (RedisOp.FollowsRead mayDelete) := by
  refine ⟨trivial, fun data _ _ => ?_⟩
  rcases data with _ | hash
  · trivial
  · refine ⟨trivial, fun fresh _ _ => ?_⟩
    simp only [Prog.bind, pure_eq]
    split
    · trivial
    · rename_i hvalid
      exact ⟨trivial, fun fresh' _ _ => ⟨⟨hash, fresh, failureReason, fresh'.now, rfl, rfl,
        not_not.mp hvalid, rfl⟩, fun _ _ _ => trivial⟩⟩

theorem updateStepState_asks (sagaId stepId : String) (newState : StepState) (outputData : Json)
    (errorMessage : Option String) :
    (updateStepState sagaId stepId newState outputData errorMessage).Asks
      (RedisOp.FollowsRead mayDelete) := by
  refine ⟨trivial, fun data _ _ => ?_⟩
  rcases data with _ | hash
  · trivial
  · refine ⟨trivial, fun fresh _ _ => ⟨trivial, fun fresh' _ _ => ?_⟩⟩
    simp only [Prog.bind]
    split
    · trivial
    · exact ⟨⟨hash, rfl, rfl⟩, fun _ _ _ => trivial⟩

theorem updateCurrentStep_asks (sagaId : String) (stepIndex : ℤ) :
    (updateCurrentStep sagaId stepIndex).Asks (RedisOp.FollowsRead mayDelete) := by
  refine ⟨trivial, fun found _ _ => ?_⟩
  cases found with
  | true => exact ⟨trivial, fun _ _ _ => trivial⟩
  | false => trivial

theorem cleanupSaga_asks (olderThan : Instant) (sagaId : String) :
    (cleanupSaga olderThan sagaId).Asks (RedisOp.FollowsRead true) := by
  refine (get_asks sagaId).bind fun saga => ?_
  rcases saga with _ | saga
  · trivial
  · simp only
    split
    · exact delete_asks sagaId
    · trivial

theorem cleanupSagas_asks (olderThan : Instant) (sagaIds : List String) :
    (cleanupSagas olderThan sagaIds).Asks (RedisOp.FollowsRead true) := by
  induction sagaIds with
  | nil => trivial
  | cons sagaId rest ih =>
    exact (cleanupSaga_asks olderThan sagaId).bind fun deleted => ih.bind fun others => trivial

theorem cleanupStates_asks (olderThan : Instant) (states : List SagaState) :
    (cleanupStates olderThan states).Asks (RedisOp.FollowsRead true) := by
  induction states with
  | nil => trivial
  | cons state rest ih =>
    refine ⟨trivial, fun sagaIds _ _ => ?_⟩
    exact (cleanupSagas_asks olderThan sagaIds).bind fun deleted => ih.bind fun others => trivial

section Flywheel

variable [IsoText] [PrintTable]

theorem getFlywheelRun_asks (runId : String) :
    (getFlywheelRun runId).Asks (RedisOp.FollowsRead mayDelete) := by
  refine (get_asks runId).bind fun saga => ?_
  rcases saga with _ | saga
  · trivial
  · simp only
    split
    · trivial
    · split <;> trivial

omit [PrintTable] in
theorem saveFlywheelRun_asks (run : FlywheelRunRecord) :
    (saveFlywheelRun run).Asks (RedisOp.FollowsRead mayDelete) := save_asks run.toSagaState

theorem pauseFlywheelRun_asks (runId : String) (reason : Option String) :
    (pauseFlywheelRun runId reason).Asks (RedisOp.FollowsRead mayDelete) := by
  refine (getFlywheelRun_asks runId).bind fun run => ?_
  rcases run with _ | run
  · trivial
  · exact ⟨trivial, fun fresh _ _ => saveFlywheelRun_asks _⟩

omit [PrintTable] in
theorem resumed_asks (run : FlywheelRunRecord) :
    (resumeFlywheelRun.resumed run).Asks (RedisOp.FollowsRead mayDelete) :=
  ⟨trivial, fun _ _ _ => saveFlywheelRun_asks _⟩

theorem resumeFlywheelRun_asks (runId : String) :
    (resumeFlywheelRun runId).Asks (RedisOp.FollowsRead mayDelete) := by
  refine (getFlywheelRun_asks runId).bind fun run => ?_
  rcases run with _ | run
  · trivial
  · simp only
    split
    · refine (updateState_asks runId .running none).bind fun stateUpdated => ?_
      split
      · refine (getFlywheelRun_asks runId).bind fun run => ?_
        rcases run with _ | run
        · trivial
        · exact resumed_asks run
      · trivial
    · exact resumed_asks run

omit [PrintTable] in
theorem advanced_asks (metadata : JsonDict) (run : FlywheelRunRecord) :
    (advanceFlywheelRunStage.advanced metadata run).Asks (RedisOp.FollowsRead mayDelete) :=
  ⟨trivial, fun _ _ _ => saveFlywheelRun_asks _⟩

theorem advanceFlywheelRunStage_asks (runId : String) (stage : FlywheelRunStage)
    (currentStepIndex : Option ℤ) (metadata : JsonDict) :
    (advanceFlywheelRunStage runId stage currentStepIndex metadata).Asks
      (RedisOp.FollowsRead mayDelete) := by
  refine (getFlywheelRun_asks runId).bind fun run => ?_
  rcases run with _ | run
  · trivial
  · rcases currentStepIndex with _ | index
    · exact advanced_asks metadata _
    · refine (updateCurrentStep_asks runId index).bind fun updated => ?_
      split
      · exact advanced_asks metadata _
      · trivial

end Flywheel

end Redis

end EnhancedAgentBus.SagaPersistence
