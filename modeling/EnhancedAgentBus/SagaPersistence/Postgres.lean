import EnhancedAgentBus.Lib.Uuid
import EnhancedAgentBus.SagaPersistence.Redis

/-!
# The Postgres saga repository

`PostgresSagaStateRepository`: every SQL statement is one operation and is executed as a whole;
between two of them other clients may run.  There is no transaction around the statements of a
call.  The tables are there.

A statement is refused, and changes nothing, if a row that it writes does not fit the columns, if it
breaks a key, or if Postgres cannot determine the type of one of its parameters
(`SqlOp.parameters`); asyncpg raises what becomes a `RepositoryError`.  What fits the columns is the
parameter `Columns`.  JSON columns give back what was written to them.  A connection that fails ends
its call with `RepositoryError`: such a call is one that goes no further.
-/

namespace EnhancedAgentBus.SagaPersistence

open Async Async.Prog

/-- What fits the columns of the tables, their constraints included. -/
class Columns where
  saga : PersistedSagaState → Bool
  checkpoint : SagaCheckpoint → Bool

/-! ## The tables -/

/-- The tables `saga_states` and `saga_checkpoints`.  A row is the saga that `_row_to_saga` reads
from it, its identifiers in canonical form. -/
structure PgStore where
  sagas : List PersistedSagaState := []
  checkpoints : List SagaCheckpoint := []

inductive TimestampField where
  | startedAt
  | completedAt
  | compensatedAt
  | failedAt
deriving DecidableEq

/-- What `update_state` sets besides the state and the version. -/
structure StateSettings where
  timestamp : Option (TimestampField × Instant) := none
  failureReason : Option String := none
  /-- `total_duration_ms = EXTRACT(EPOCH FROM ($4 - started_at)) * 1000` -/
  duration : Bool := false

inductive SqlOp where
  /-- `SELECT * FROM saga_states WHERE saga_id = $1` -/
  | selectSaga (sagaId : String)
  /-- `SELECT version` -/
  | selectVersion (sagaId : String)
  /-- `SELECT state, version, started_at` -/
  | selectStatus (sagaId : String)
  /-- `UPDATE … WHERE saga_id = $1 AND version <= $8`; `found` is the version that the call found,
  which is not part of the statement. -/
  | updateSaga (sagaId correlationId : String) (saga : PersistedSagaState) (found : ℤ)
  | insertSaga (sagaId correlationId : String) (saga : PersistedSagaState)
  /-- `UPDATE … SET state = $2, version = version + 1, … WHERE saga_id = $1 AND version = $3` -/
  | updateState (sagaId : String) (newState : SagaState) (version : ℤ) (settings : StateSettings)
  /-- `UPDATE … SET steps = $2, version = version + 1 WHERE saga_id = $1` -/
  | updateSteps (sagaId : String) (steps : List PersistedStepSnapshot)
  | deleteSaga (sagaId : String)
  /-- `UPDATE … SET compensation_log = compensation_log || $2::jsonb WHERE saga_id = $1` -/
  | appendCompensation (sagaId : String) (entry : CompensationEntry)
  | selectCompensationLog (sagaId : String)
  | insertCheckpoint (checkpointId sagaId : String) (checkpoint : SagaCheckpoint)
  /-- `… WHERE saga_id = $1 ORDER BY created_at DESC LIMIT $3 OFFSET $4` -/
  | selectCheckpoints (sagaId : String) (limit offset : ℤ)
  /-- `… WHERE tenant_id = $1 ORDER BY created_at DESC LIMIT $2 OFFSET $3` -/
  | selectByTenant (tenantId : String) (limit offset : ℤ)
  /-- `… WHERE tenant_id = $1 AND state = $2 ORDER BY created_at DESC LIMIT $3 OFFSET $4` -/
  | selectByTenantAndState (tenantId : String) (state : SagaState) (limit offset : ℤ)
  /-- `… WHERE state = $1 ORDER BY created_at DESC LIMIT $2 OFFSET $3` -/
  | selectByState (state : SagaState) (limit offset : ℤ)
  /-- `… WHERE state IN ($1, $2) ORDER BY created_at DESC LIMIT $4 OFFSET $5` -/
  | selectByStates (state state' : SagaState) (limit offset : ℤ)
  /-- `DELETE … WHERE state IN ($1, $2, $3) AND COALESCE(…) < $4` -/
  | deleteTerminal (olderThan : Instant)
  /-- `DELETE … WHERE COALESCE(…) < $1` -/
  | deleteOlder (olderThan : Instant)
  /-- the current date -/
  | now

namespace SqlOp

@[reducible] def Answer : SqlOp → Type
  | selectSaga _ => Option PersistedSagaState
  | selectVersion _ => Option ℤ
  | selectStatus _ => Option (SagaState × ℤ × Option Instant)
  | updateSaga _ _ _ _ | updateState _ _ _ _ | updateSteps _ _ | deleteSaga _
  | appendCompensation _ _ | deleteTerminal _ | deleteOlder _ => ℕ
  | insertSaga _ _ _ | insertCheckpoint _ _ _ => Unit
  | selectCompensationLog _ => Option (List CompensationEntry)
  | selectCheckpoints _ _ _ => List SagaCheckpoint
  | selectByTenant _ _ _ | selectByTenantAndState _ _ _ _ | selectByState _ _ _
  | selectByStates _ _ _ _ => List PersistedSagaState
  | now => Instant

/-- `none`: the statement is refused. -/
abbrev Resp (o : SqlOp) : Type := Option o.Answer

def parameters : SqlOp → List ℕ
  | selectSaga _ | selectVersion _ | selectStatus _ | deleteSaga _ | selectCompensationLog _
  | deleteOlder _ => [1]
  | updateSteps _ _ | appendCompensation _ _ => [1, 2]
  | selectByTenant _ _ _ | selectByState _ _ _ => [1, 2, 3]
  | selectByTenantAndState _ _ _ _ | deleteTerminal _ => [1, 2, 3, 4]
  | selectCheckpoints _ _ _ => [1, 3, 4]
  | selectByStates _ _ _ _ => [1, 2, 4, 5]
  | updateState _ _ _ settings =>
    match settings.timestamp, settings.failureReason with
    | none, _ => [1, 2, 3]
    | some _, none => [1, 2, 3, 4]
    | some _, some _ => [1, 2, 3, 4, 5]
  | insertCheckpoint _ _ _ => List.range' 1 10
  | updateSaga _ _ _ _ => List.range' 1 20
  | insertSaga _ _ _ => List.range' 1 21
  | now => []

def determined (o : SqlOp) : Bool := o.parameters = List.range' 1 o.parameters.length

end SqlOp

namespace PersistedSagaState

/-- `SET state = $2, version = version + 1, …`; `none` if the row does not fit, as it has a duration
to compute and no `started_at`. -/
def setState (row : PersistedSagaState) (newState : SagaState) (settings : StateSettings) :
    Option PersistedSagaState :=
  let row' := { row with
    state := newState
    version := row.version + 1
    failureReason := settings.failureReason.or row.failureReason }
  match settings.timestamp with
  | none => some row'
  | some (.startedAt, now) => some { row' with startedAt := some now }
  | some (.compensatedAt, now) => some { row' with compensatedAt := some now }
  | some (.failedAt, now) => some { row' with failedAt := some now }
  | some (.completedAt, now) =>
    let row' := { row' with completedAt := some now }
    if settings.duration then
      row.startedAt.map fun startedAt =>
        { row' with totalDurationMs := ((now - startedAt : ℤ) : ℚ) / 1000 }
    else some row'

def toRow (saga : PersistedSagaState) (sagaId correlationId : String) : PersistedSagaState :=
  { saga with sagaId, correlationId }

end PersistedSagaState

namespace PgStore

variable [Columns]

def find (s : PgStore) (sagaId : String) : Option PersistedSagaState :=
  s.sagas.find? (·.sagaId = sagaId)

/-- `UPDATE`: how many rows it found, unless one of them does not fit afterwards. -/
def update (s : PgStore) (whose : PersistedSagaState → Bool)
    (set : PersistedSagaState → Option PersistedSagaState) : Option ℕ × PgStore :=
  match s.sagas.mapM fun row => if whose row then (set row).filter Columns.saga else some row with
  | some sagas => (some (s.sagas.countP whose), { s with sagas })
  | none => (none, s)

/-- `DELETE`, and of the checkpoints of the sagas that are gone. -/
def delete (s : PgStore) (whose : PersistedSagaState → Bool) : ℕ × PgStore :=
  let gone := s.sagas.filter whose
  (gone.length,
    { sagas := s.sagas.filter (! whose ·)
      checkpoints := s.checkpoints.filter fun checkpoint =>
        gone.all (·.sagaId ≠ checkpoint.sagaId) })

/-- `LIMIT` and `OFFSET` are non-negative and have 64 bits. -/
def pageable (limit offset : ℤ) : Bool :=
  0 ≤ limit ∧ limit < 2 ^ 63 ∧ 0 ≤ offset ∧ offset < 2 ^ 63

/-- `SELECT … ORDER BY created_at DESC LIMIT limit OFFSET offset`, of sagas whose dates of creation
are distinct. -/
def select (s : PgStore) (whose : PersistedSagaState → Bool) (limit offset : ℤ) :
    Option (List PersistedSagaState) :=
  if pageable limit offset then
    some ((((s.sagas.filter whose).mergeSort fun a b => b.createdAt ≤ a.createdAt).drop
      offset.toNat).take limit.toNat)
  else none

def execute (s : PgStore) (now : Instant) : (o : SqlOp) → o.Resp × PgStore
  | .selectSaga sagaId => (some (s.find sagaId), s)
  | .selectVersion sagaId => (some ((s.find sagaId).map (·.version)), s)
  | .selectStatus sagaId =>
    (some ((s.find sagaId).map fun row => (row.state, row.version, row.startedAt)), s)
  | .updateSaga sagaId correlationId saga _ =>
    s.update (fun row => row.sagaId = sagaId ∧ row.version ≤ saga.version) fun row =>
      -- every column but `saga_id` and `created_at`
      some { saga.toRow row.sagaId correlationId with createdAt := row.createdAt }
  | .insertSaga sagaId correlationId saga =>
    let row := saga.toRow sagaId correlationId
    if (s.find sagaId).isNone ∧ Columns.saga row then
      (some (), { s with sagas := s.sagas ++ [row] })
    else (none, s)
  | .updateState sagaId newState version settings =>
    s.update (fun row => row.sagaId = sagaId ∧ row.version = version) fun row =>
      row.setState newState settings
  | .updateSteps sagaId steps =>
    s.update (fun row => row.sagaId = sagaId) fun row =>
      some { row with steps, version := row.version + 1 }
  | .deleteSaga sagaId =>
    let (count, s') := s.delete (fun row => row.sagaId = sagaId)
    (some count, s')
  | .appendCompensation sagaId entry =>
    s.update (fun row => row.sagaId = sagaId) fun row =>
      some { row with compensationLog := row.compensationLog ++ [entry] }
  | .selectCompensationLog sagaId => (some ((s.find sagaId).map (·.compensationLog)), s)
  | .insertCheckpoint checkpointId sagaId checkpoint =>
    let row := { checkpoint with checkpointId, sagaId }
    if (s.find sagaId).isSome ∧ s.checkpoints.all (·.checkpointId ≠ checkpointId) ∧
        Columns.checkpoint row then
      (some (), { s with checkpoints := s.checkpoints ++ [row] })
    else (none, s)
  | .selectCheckpoints sagaId limit offset =>
    (if pageable limit offset then
      some ((((s.checkpoints.filter (·.sagaId = sagaId)).mergeSort fun a b =>
        b.createdAt ≤ a.createdAt).drop offset.toNat).take limit.toNat)
    else none, s)
  | .selectByTenant tenantId limit offset =>
    (s.select (fun row => row.tenantId = tenantId) limit offset, s)
  | .selectByTenantAndState tenantId state limit offset =>
    (s.select (fun row => row.tenantId = tenantId ∧ row.state = state) limit offset, s)
  | .selectByState state limit offset => (s.select (fun row => row.state = state) limit offset, s)
  | .selectByStates state state' limit offset =>
    (s.select (fun row => row.state = state ∨ row.state = state') limit offset, s)
  | .deleteTerminal olderThan =>
    let (count, s') := s.delete fun row =>
      row.state ∈ [SagaState.completed, .compensated, .failed] ∧ row.checkTime < olderThan
    (some count, s')
  | .deleteOlder olderThan =>
    let (count, s') := s.delete fun row => row.checkTime < olderThan
    (some count, s')
  | .now => (some now, s)

def perform (s : PgStore) (o : SqlOp) (now : Instant) : o.Resp × PgStore :=
  if o.determined then s.execute now o else (none, s)

end PgStore

def PgStep [Columns] (s : PgStore) (o : SqlOp) (r : o.Resp) (s' : PgStore) : Prop :=
  ∃ now, s.perform o now = (r, s')

/-! ## The calls -/

abbrev PgCode := Prog SqlOp SqlOp.Resp SagaError

namespace Postgres

/-- A statement, which raises `RepositoryError` when it is refused. -/
def sql (o : SqlOp) : PgCode o.Answer :=
  .await o fun
    | some answer => .done answer
    | none => .raise .repositoryError

/-- `uuid.UUID(text)` -/
def uuid (text : String) : PgCode String :=
  match Uuid.text text with
  | some canonical => pure canonical
  | none => .raise .valueError

def save (saga : PersistedSagaState) : PgCode Bool := do
  let sagaId ← uuid saga.sagaId
  let existing ← sql (.selectVersion sagaId)
  match existing with
  | some existingVersion =>
    if existingVersion ≠ saga.version - 1 ∧ existingVersion ≠ saga.version then
      .raise (.versionConflict saga.sagaId saga.version existingVersion)
    else do
      let correlationId ← uuid saga.correlationId
      -- the number of rows is not looked at
      let _ ← sql (.updateSaga sagaId correlationId saga existingVersion)
      pure true
  | none => do
    let correlationId ← uuid saga.correlationId
    sql (.insertSaga sagaId correlationId saga)
    pure true

def get (sagaId : String) : PgCode (Option PersistedSagaState) := do
  let sagaId ← uuid sagaId
  sql (.selectSaga sagaId)

def delete (sagaId : String) : PgCode Bool := do
  let sagaId ← uuid sagaId
  let count ← sql (.deleteSaga sagaId)
  pure (count = 1)

/-- What `update_state` sets for a transition at a date. -/
def stateSettings (newState : SagaState) (startedAt : Option Instant)
    (failureReason : Option String) (now : Instant) : StateSettings :=
  match newState with
  | .running => if startedAt.isNone then { timestamp := some (.startedAt, now) } else {}
  | .completed => { timestamp := some (.completedAt, now), duration := startedAt.isSome }
  | .compensated => { timestamp := some (.compensatedAt, now) }
  | .failed =>
    { timestamp := some (.failedAt, now), failureReason := failureReason.filter (· ≠ "") }
  | .initialized | .compensating => {}

def updateState (sagaId : String) (newState : SagaState) (failureReason : Option String) :
    PgCode Bool := do
  let uuid ← uuid sagaId
  let row ← sql (.selectStatus uuid)
  match row with
  | none => pure false
  | some (currentState, version, startedAt) =>
    if newState ∉ validStateTransitions currentState then
      .raise (.invalidStateTransition sagaId currentState newState)
    else do
      let now ← sql .now
      -- the number of rows is not looked at
      let _ ← sql (.updateState uuid newState version
        (stateSettings newState startedAt failureReason now))
      pure true

def updateStepState (sagaId stepId : String) (newState : StepState) (outputData : Json)
    (errorMessage : Option String) : PgCode Bool := do
  let saga ← get sagaId
  match saga with
  | none => pure false
  | some saga => do
    let now ← sql .now
    match updatedSteps saga.steps stepId newState outputData errorMessage now with
    | none => pure false
    | some steps => do
      let sagaId ← uuid sagaId
      let _ ← sql (.updateSteps sagaId steps)
      pure true

def appendCompensationEntry (sagaId : String) (entry : CompensationEntry) : PgCode Bool := do
  let sagaId ← uuid sagaId
  let count ← sql (.appendCompensation sagaId entry)
  pure (count = 1)

def getCompensationLog (sagaId : String) : PgCode (List CompensationEntry) := do
  let sagaId ← uuid sagaId
  let log ← sql (.selectCompensationLog sagaId)
  pure (log.getD [])

def saveCheckpoint (checkpoint : SagaCheckpoint) : PgCode Bool := do
  let checkpointId ← uuid checkpoint.checkpointId
  let sagaId ← uuid checkpoint.sagaId
  sql (.insertCheckpoint checkpointId sagaId checkpoint)
  pure true

def getCheckpoints (sagaId : String) (limit offset : ℤ) : PgCode (List SagaCheckpoint) := do
  let sagaId ← uuid sagaId
  sql (.selectCheckpoints sagaId limit offset)

def listByTenant (tenantId : String) (state : Option SagaState) (limit offset : ℤ) :
    PgCode (List PersistedSagaState) :=
  match state with
  | some state => sql (.selectByTenantAndState tenantId state limit offset)
  | none => sql (.selectByTenant tenantId limit offset)

def listByState (state : SagaState) (limit offset : ℤ) : PgCode (List PersistedSagaState) :=
  sql (.selectByState state limit offset)

def listPendingCompensations (limit offset : ℤ) : PgCode (List PersistedSagaState) :=
  sql (.selectByStates .compensating .running limit offset)

def cleanupOldSagas (olderThan : Instant) (terminalOnly : Bool) : PgCode ℕ :=
  if terminalOnly then sql (.deleteTerminal olderThan) else sql (.deleteOlder olderThan)

end Postgres

end EnhancedAgentBus.SagaPersistence
