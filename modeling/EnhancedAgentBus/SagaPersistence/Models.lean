import EnhancedAgentBus.Json
import Mathlib.Data.Rat.Defs

/-!
# Sagas as they are persisted

The data of `saga_persistence/models.py`: sagas with their steps and compensation entries,
checkpoints, flywheel runs as sagas, and the Redis hash that a saga is written to and read from.

A date is a number of microseconds, a duration a rational number of milliseconds.  A value is kept
in the hash as what its text stands for, so that an absent date (the empty text) is there and an
absent field is not.
-/

namespace EnhancedAgentBus.SagaPersistence

abbrev Instant := ℤ

abbrev JsonDict := List (String × Json)

def constitutionalHash : String := "608508a9bd224290"

/-- The text of a date, as `isoformat` writes it and `fromisoformat` reads it. -/
class IsoText where
  isoformat : Instant → String
  fromisoformat : String → Option Instant

/-! ## States -/

inductive SagaState where
  | initialized
  | running
  | compensating
  | completed
  | compensated
  | failed
deriving DecidableEq, Repr

namespace SagaState

/-- The states, in the order of the enumeration. -/
def all : List SagaState := [initialized, running, compensating, completed, compensated, failed]

/-- Check if this is a terminal state (no further transitions allowed). -/
def isTerminal : SagaState → Bool
  | completed | compensated | failed => true
  | initialized | running | compensating => false

theorem mem_all (s : SagaState) : s ∈ all := by cases s <;> decide

end SagaState

def validStateTransitions : SagaState → List SagaState
  | .initialized => [.running, .failed]
  | .running => [.completed, .compensating, .failed]
  | .compensating => [.compensated, .failed]
  | .completed => []
  | .compensated => []
  | .failed => []

theorem validStateTransitions_of_isTerminal {s : SagaState} (h : s.isTerminal = true) :
    validStateTransitions s = [] := by
  cases s <;> first | rfl | cases h

inductive StepState where
  | pending
  | running
  | completed
  | failed
  | compensated
  | skipped
deriving DecidableEq, Repr

def StepState.isTerminal : StepState → Bool
  | completed | failed | compensated | skipped => true
  | pending | running => false

inductive CompensationStrategy where
  | lifo
  | parallel
  | selective
deriving DecidableEq, Repr

/-! ## Records -/

structure CompensationEntry where
  compensationId : String
  stepId : String := ""
  stepName : String := ""
  executed : Bool := false
  executedAt : Option Instant := none
  durationMs : ℚ := 0
  result : Json := .null
  error : Option String := none
  retryCount : ℤ := 0
  maxRetries : ℤ := 3
  constitutionalHash : String := constitutionalHash

/-- Snapshot of a saga step's state at a point in time. -/
structure PersistedStepSnapshot where
  stepId : String
  stepName : String := ""
  stepIndex : ℤ := 0
  state : StepState := .pending
  inputData : JsonDict := []
  outputData : Json := .null
  errorMessage : Option String := none
  startedAt : Option Instant := none
  completedAt : Option Instant := none
  durationMs : ℚ := 0
  retryCount : ℤ := 0
  maxRetries : ℤ := 3
  timeoutMs : ℤ := 30000
  dependencies : List String := []
  compensation : Option CompensationEntry := none
  metadata : JsonDict := []
  constitutionalHash : String := constitutionalHash

structure PersistedSagaState where
  sagaId : String
  sagaName : String := ""
  tenantId : String := ""
  correlationId : String
  state : SagaState := .initialized
  compensationStrategy : CompensationStrategy := .lifo
  steps : List PersistedStepSnapshot := []
  currentStepIndex : ℤ := 0
  context : JsonDict := []
  metadata : JsonDict := []
  compensationLog : List CompensationEntry := []
  createdAt : Instant
  startedAt : Option Instant := none
  completedAt : Option Instant := none
  failedAt : Option Instant := none
  compensatedAt : Option Instant := none
  totalDurationMs : ℚ := 0
  failureReason : Option String := none
  timeoutMs : ℤ := 300000
  version : ℤ := 1
  constitutionalHash : String := constitutionalHash

structure SagaCheckpoint where
  checkpointId : String
  sagaId : String := ""
  checkpointName : String := ""
  stateSnapshot : JsonDict := []
  completedStepIds : List String := []
  pendingStepIds : List String := []
  createdAt : Instant
  isConstitutional : Bool := false
  metadata : JsonDict := []
  constitutionalHash : String := constitutionalHash

/-! ## The Redis hash -/

structure SagaHash where
  sagaId : Option String := none
  sagaName : Option String := none
  tenantId : Option String := none
  correlationId : Option String := none
  state : Option SagaState := none
  compensationStrategy : Option CompensationStrategy := none
  steps : Option (List PersistedStepSnapshot) := none
  currentStepIndex : Option ℤ := none
  context : Option JsonDict := none
  metadata : Option JsonDict := none
  compensationLog : Option (List CompensationEntry) := none
  createdAt : Option Instant := none
  startedAt : Option (Option Instant) := none
  completedAt : Option (Option Instant) := none
  failedAt : Option (Option Instant) := none
  compensatedAt : Option (Option Instant) := none
  totalDurationMs : Option ℚ := none
  failureReason : Option String := none
  timeoutMs : Option ℤ := none
  version : Option ℤ := none
  constitutionalHash : Option String := none

namespace SagaHash

/-- `HSET key mapping`: the fields of the mapping are overwritten, the others stay. -/
def hset (mapping hash : SagaHash) : SagaHash where
  sagaId := mapping.sagaId.or hash.sagaId
  sagaName := mapping.sagaName.or hash.sagaName
  tenantId := mapping.tenantId.or hash.tenantId
  correlationId := mapping.correlationId.or hash.correlationId
  state := mapping.state.or hash.state
  compensationStrategy := mapping.compensationStrategy.or hash.compensationStrategy
  steps := mapping.steps.or hash.steps
  currentStepIndex := mapping.currentStepIndex.or hash.currentStepIndex
  context := mapping.context.or hash.context
  metadata := mapping.metadata.or hash.metadata
  compensationLog := mapping.compensationLog.or hash.compensationLog
  createdAt := mapping.createdAt.or hash.createdAt
  startedAt := mapping.startedAt.or hash.startedAt
  completedAt := mapping.completedAt.or hash.completedAt
  failedAt := mapping.failedAt.or hash.failedAt
  compensatedAt := mapping.compensatedAt.or hash.compensatedAt
  totalDurationMs := mapping.totalDurationMs.or hash.totalDurationMs
  failureReason := mapping.failureReason.or hash.failureReason
  timeoutMs := mapping.timeoutMs.or hash.timeoutMs
  version := mapping.version.or hash.version
  constitutionalHash := mapping.constitutionalHash.or hash.constitutionalHash

end SagaHash

/-- What `from_redis_hash` draws for fields that are absent: the current date and two identifiers. -/
structure Fresh where
  now : Instant
  sagaId : String
  correlationId : String

namespace PersistedSagaState

def toRedisHash (saga : PersistedSagaState) : SagaHash where
  sagaId := some saga.sagaId
  sagaName := some saga.sagaName
  tenantId := some saga.tenantId
  correlationId := some saga.correlationId
  state := some saga.state
  compensationStrategy := some saga.compensationStrategy
  steps := some saga.steps
  currentStepIndex := some saga.currentStepIndex
  context := some saga.context
  metadata := some saga.metadata
  compensationLog := some saga.compensationLog
  createdAt := some saga.createdAt
  startedAt := some saga.startedAt
  completedAt := some saga.completedAt
  failedAt := some saga.failedAt
  compensatedAt := some saga.compensatedAt
  totalDurationMs := some saga.totalDurationMs
  -- `failure_reason or ""`
  failureReason := some (saga.failureReason.getD "")
  timeoutMs := some saga.timeoutMs
  version := some saga.version
  constitutionalHash := some saga.constitutionalHash

def fromRedisHash (fresh : Fresh) (data : SagaHash) : PersistedSagaState where
  sagaId := data.sagaId.getD fresh.sagaId
  sagaName := data.sagaName.getD ""
  tenantId := data.tenantId.getD ""
  correlationId := data.correlationId.getD fresh.correlationId
  state := data.state.getD .initialized
  compensationStrategy := data.compensationStrategy.getD .lifo
  steps := data.steps.getD []
  currentStepIndex := data.currentStepIndex.getD 0
  context := data.context.getD []
  metadata := data.metadata.getD []
  compensationLog := data.compensationLog.getD []
  createdAt := data.createdAt.getD fresh.now
  startedAt := data.startedAt.getD none
  completedAt := data.completedAt.getD none
  failedAt := data.failedAt.getD none
  compensatedAt := data.compensatedAt.getD none
  totalDurationMs := data.totalDurationMs.getD 0
  -- `data.get("failure_reason") or None`
  failureReason := data.failureReason.filter (· ≠ "")
  timeoutMs := data.timeoutMs.getD 300000
  version := data.version.getD 1
  constitutionalHash := data.constitutionalHash.getD SagaPersistence.constitutionalHash

theorem fromRedisHash_toRedisHash (fresh : Fresh) (saga : PersistedSagaState) :
    fromRedisHash fresh saga.toRedisHash =
      { saga with failureReason := saga.failureReason.filter (· ≠ "") } := by
  obtain ⟨⟩ := saga
  rename_i failureReason _ _ _
  cases failureReason <;> rfl

end PersistedSagaState

/-! ## Flywheel runs -/

def flywheelRunSagaName : String := "flywheel_run"

inductive FlywheelRunStage where
  | datasetBuild
  | candidateGeneration
  | evaluation
  | shadow
  | canary
  | promotion
deriving DecidableEq, Repr

inductive EvaluationMode where
  | offlineReplay
  | shadow
  | canary
deriving DecidableEq, Repr

namespace FlywheelRunStage

def value : FlywheelRunStage → String
  | datasetBuild => "dataset_build"
  | candidateGeneration => "candidate_generation"
  | evaluation => "evaluation"
  | shadow => "shadow"
  | canary => "canary"
  | promotion => "promotion"

/-- `FlywheelRunStage(text)`; `none` is the `ValueError`. -/
def parse (text : String) : Option FlywheelRunStage :=
  [datasetBuild, candidateGeneration, evaluation, shadow, canary, promotion].find?
    (·.value = text)

end FlywheelRunStage

namespace EvaluationMode

def value : EvaluationMode → String
  | offlineReplay => "offline_replay"
  | shadow => "shadow"
  | canary => "canary"

/-- `EvaluationMode(text)`; `none` is the `ValueError`. -/
def parse (text : String) : Option EvaluationMode :=
  [offlineReplay, shadow, canary].find? (·.value = text)

end EvaluationMode

/-- Domain view of a flywheel orchestration run stored on saga persistence. -/
structure FlywheelRunRecord where
  runId : String
  tenantId : String
  workloadKey : String
  constitutionalHash : String
  state : SagaState
  stage : FlywheelRunStage
  candidateId : Json
  datasetSnapshotId : Json
  evidenceId : Json
  evaluationMode : EvaluationMode
  currentStepIndex : ℤ
  paused : Bool
  context : JsonDict
  metadata : JsonDict
  correlationId : String
  createdAt : Instant
  updatedAt : Instant
  startedAt : Option Instant
  completedAt : Option Instant
  failedAt : Option Instant
  failureReason : Option String
  timeoutMs : ℤ
  version : ℤ

namespace FlywheelRunRecord

/-- `d.update(entries)` -/
def updateDict (d entries : JsonDict) : JsonDict :=
  entries.foldl (fun d entry => Json.assign entry.1 entry.2 d) d

def metadataKeys : List String :=
  ["flywheel_run", "workload_key", "stage", "candidate_id", "dataset_snapshot_id", "evidence_id",
    "evaluation_mode", "paused", "updated_at"]

variable [IsoText]

/-- Serialize the flywheel run into the canonical persisted saga format. -/
def toSagaState (run : FlywheelRunRecord) : PersistedSagaState where
  sagaId := run.runId
  sagaName := flywheelRunSagaName
  tenantId := run.tenantId
  correlationId := run.correlationId
  state := run.state
  currentStepIndex := run.currentStepIndex
  context := run.context
  metadata := updateDict run.metadata
    [("flywheel_run", .bool true), ("workload_key", .str run.workloadKey),
      ("stage", .str run.stage.value), ("candidate_id", run.candidateId),
      ("dataset_snapshot_id", run.datasetSnapshotId), ("evidence_id", run.evidenceId),
      ("evaluation_mode", .str run.evaluationMode.value), ("paused", .bool run.paused),
      ("updated_at", .str (IsoText.isoformat run.updatedAt))]
  createdAt := run.createdAt
  startedAt := run.startedAt
  completedAt := run.completedAt
  failedAt := run.failedAt
  failureReason := run.failureReason
  timeoutMs := run.timeoutMs
  version := run.version
  constitutionalHash := run.constitutionalHash

/-- `value or None` -/
def orNone (value : Option Json) : Json :=
  match value with
  | some v => if v.truthy then v else .null
  | none => .null

variable [PrintTable]

/-- `str(metadata.get(key, default))` -/
def getText (metadata : JsonDict) (key fallback : String) : String :=
  match Json.lookup key metadata with
  | some v => String.ofList v.pyStr
  | none => fallback

/-- Deserialize a flywheel run from the canonical persisted saga format; `none` is the
`ValueError`. -/
def fromSagaState (saga : PersistedSagaState) : Option FlywheelRunRecord := do
  if saga.sagaName ≠ flywheelRunSagaName then none
  let updatedAt ← match Json.lookup "updated_at" saga.metadata with
    | some v =>
      if v.truthy then IsoText.fromisoformat (String.ofList v.pyStr) else some saga.createdAt
    | none => some saga.createdAt
  let stage ← FlywheelRunStage.parse
    (getText saga.metadata "stage" FlywheelRunStage.datasetBuild.value)
  let evaluationMode ← EvaluationMode.parse
    (getText saga.metadata "evaluation_mode" EvaluationMode.offlineReplay.value)
  some {
    runId := saga.sagaId
    tenantId := saga.tenantId
    workloadKey := getText saga.metadata "workload_key" ""
    constitutionalHash := saga.constitutionalHash
    state := saga.state
    stage
    candidateId := orNone (Json.lookup "candidate_id" saga.metadata)
    datasetSnapshotId := orNone (Json.lookup "dataset_snapshot_id" saga.metadata)
    evidenceId := orNone (Json.lookup "evidence_id" saga.metadata)
    evaluationMode
    currentStepIndex := saga.currentStepIndex
    paused := match Json.lookup "paused" saga.metadata with
      | some v => v.truthy
      | none => false
    context := saga.context
    metadata := saga.metadata.filter fun entry => entry.1 ∉ metadataKeys
    correlationId := saga.correlationId
    createdAt := saga.createdAt
    updatedAt
    startedAt := saga.startedAt
    completedAt := saga.completedAt
    failedAt := saga.failedAt
    failureReason := saga.failureReason
    timeoutMs := saga.timeoutMs
    version := saga.version }

end FlywheelRunRecord

end EnhancedAgentBus.SagaPersistence
