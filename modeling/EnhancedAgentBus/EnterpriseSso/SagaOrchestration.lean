import EnhancedAgentBus.Lib.Async
import Mathlib.Data.Int.Notation

/-!
# The saga orchestrator for migrations

`SagaOrchestrator`, `SagaStore` and `SagaRecoveryService`, for one saga and its definition.  Every
entry point loads a copy of the saga from the store, changes that copy and saves it as a whole.

An exception is known by whether it is one of `_SAGA_OPERATION_ERRORS`.  What is left out changes
nothing in the store and nothing that is called: the times, messages, counts and results that are
only stored, the waiting between attempts, and the events.  An exception in `get`, and one that a
handler of events lets out, ends a call where it stands; so does a run that stops there.
-/

namespace EnhancedAgentBus.EnterpriseSso

open Async

inductive SagaStatus where
  | pending
  | running
  | completed
  | compensating
  | compensated
  | failed
  | partiallyCompensated
  deriving DecidableEq

inductive SagaStepStatus where
  | pending
  | executing
  | completed
  | failed
  | compensating
  | compensated
  | compensationFailed
  | skipped
  deriving DecidableEq

inductive CompensationStrategy where
  | retry
  | skip
  | fail
  | manual
  deriving DecidableEq

structure SagaStepDefinition where
  name : String
  maxRetries : ℤ := 3
  compensationStrategy : CompensationStrategy := .retry
  deriving DecidableEq

structure SagaStepExecution where
  stepName : String
  status : SagaStepStatus := .pending
  deriving DecidableEq

structure Saga where
  status : SagaStatus := .pending
  steps : List SagaStepExecution
  deriving DecidableEq

structure SagaDefinition where
  steps : List SagaStepDefinition
  maxCompensationRetries : ℤ := 3

/-- An exception: one of `_SAGA_OPERATION_ERRORS` (`TimeoutError` is among them), or any other. -/
inductive Failure where
  | operation
  | other
  deriving DecidableEq

namespace Saga

/-- `create_saga` -/
def create (definition : SagaDefinition) : Saga where
  steps := definition.steps.map fun step => { stepName := step.name }

/-- `steps[i].status = …` -/
def setStatus (saga : Saga) (i : ℕ) (status : SagaStepStatus) : Saga :=
  { saga with steps := saga.steps.modify i fun execution => { execution with status := status } }

/-- The names of the steps whose status is `COMPLETED`. -/
def completedSteps (saga : Saga) : List String :=
  (saga.steps.filter fun execution => execution.status = .completed).map fun execution =>
    execution.stepName

end Saga

/-! ## What is awaited -/

inductive Op where
  | get
  | save (saga : Saga)
  | action (step : SagaStepDefinition) (attempt : ℕ)
  | compensation (step : SagaStepDefinition) (attempt : ℕ)

def Resp : Op → Type
  | .get => Saga
  | .save _ => Except Failure Unit
  | .action _ _ => Except Failure Bool
  | .compensation _ _ => Except Failure Bool

/-- How a method ends: with a value or an exception, and the saga as it then is in memory. -/
abbrev Ended (α : Type) : Type := Except Failure α × Saga

def get : Prog Op Resp Empty Saga := .await .get .done

def save (saga : Saga) : Prog Op Resp Empty (Except Failure Unit) := .await (.save saga) .done

def action (step : SagaStepDefinition) (attempt : ℕ) : Prog Op Resp Empty (Except Failure Bool) :=
  .await (.action step attempt) .done

def compensation (step : SagaStepDefinition) (attempt : ℕ) :
    Prog Op Resp Empty (Except Failure Bool) :=
  .await (.compensation step attempt) .done

/-- The loop of `_run_with_retries`, with a number of attempts left. -/
def runWithRetries (call : ℕ → Prog Op Resp Empty (Except Failure Bool)) :
    ℕ → ℕ → Prog Op Resp Empty (Except Failure Bool)
  | 0, _ => pure (.ok false)
  | n + 1, attempt => do
    match ← call attempt with
    | .ok true => pure (.ok true)
    | .error .other => pure (.error .other)
    | .ok false | .error .operation => runWithRetries call n (attempt + 1)

/-! ## Steps -/

/-- `_execute_step`, of the step at place `i`. -/
def executeStep (saga : Saga) (i : ℕ) (step : SagaStepDefinition) :
    Prog Op Resp Empty (Ended Bool) := do
  let saga := saga.setStatus i .executing
  match ← save saga with
  | .error e => pure (.error e, saga)
  | .ok () =>
    match ← runWithRetries (action step) (step.maxRetries + 1).toNat 0 with
    | .error e => pure (.error e, saga)
    | .ok success =>
      let saga := saga.setStatus i (if success then .completed else .failed)
      match ← save saga with
      | .error e => pure (.error e, saga)
      | .ok () => pure (.ok success, saga)

/-- The loop of `execute` from place `i` on, with `completed_steps`.  It returns `failed_step`. -/
def executeSteps : List SagaStepDefinition → ℕ → List String → Saga →
    Prog Op Resp Empty (Except Failure (Option String) × List String × Saga)
  | [], _, completed, saga => pure (.ok none, completed, saga)
  | step :: rest, i, completed, saga =>
    if i < saga.steps.length then do
      let (result, saga) ← executeStep saga i step
      match result with
      | .error e => pure (.error e, completed, saga)
      | .ok true => executeSteps rest (i + 1) (completed ++ [step.name]) saga
      | .ok false => pure (.ok (some step.name), completed, saga)
    else pure (.error .operation, completed, saga)

/-- The `try` block of `execute`: whether the saga is completed. -/
def executeBody (definition : SagaDefinition) (saga : Saga) :
    Prog Op Resp Empty (Except Failure Bool × List String × Saga) := do
  let (result, completed, saga) ← executeSteps definition.steps 0 [] saga
  match result with
  | .error e => pure (.error e, completed, saga)
  | .ok failedStep =>
    -- an empty name is false
    if failedStep.getD "" ≠ "" then pure (.ok false, completed, saga)
    else
      let saga := { saga with status := .completed }
      match ← save saga with
      | .error e => pure (.error e, completed, saga)
      | .ok () => pure (.ok true, completed, saga)

/-! ## Compensations -/

/-- `_compensate_step`, of the step at place `i` of the saga. -/
def compensateStep (saga : Saga) (step : SagaStepDefinition) (i : ℕ) (maxRetries : ℤ) :
    Prog Op Resp Empty (Ended Bool) := do
  let saga := saga.setStatus i .compensating
  match ← save saga with
  | .error e => pure (.error e, saga)
  | .ok () =>
    match ← runWithRetries (compensation step) (maxRetries + 1).toNat 0 with
    | .error e => pure (.error e, saga)
    | .ok success =>
      let saga := saga.setStatus i
        (if success then .compensated
          else if step.compensationStrategy = .skip then .skipped else .compensationFailed)
      match ← save saga with
      | .error e => pure (.error e, saga)
      | .ok () => pure (.ok (success || step.compensationStrategy = .skip), saga)

/-- The loop of `_compensate`, with `compensated_steps`. -/
def compensateAll (definition : SagaDefinition) :
    List String → List String → Saga → Prog Op Resp Empty (Ended (List String))
  | [], compensated, saga => pure (.ok compensated, saga)
  | stepName :: rest, compensated, saga =>
    match definition.steps.find? (fun step => step.name = stepName),
      saga.steps.findIdx? (fun execution => execution.stepName = stepName) with
    | some step, some i => do
      let (result, saga) ← compensateStep saga step i definition.maxCompensationRetries
      match result with
      | .error e => pure (.error e, saga)
      | .ok true => compensateAll definition rest (compensated ++ [stepName]) saga
      | .ok false => compensateAll definition rest compensated saga
    | _, _ => compensateAll definition rest compensated saga

def compensate (definition : SagaDefinition) (saga : Saga) (completed : List String) :
    Prog Op Resp Empty (Ended (List String)) :=
  compensateAll definition completed.reverse [] saga

def handleSagaFailure (definition : SagaDefinition) (saga : Saga) (completed : List String) :
    Prog Op Resp Empty (Except Failure Unit) := do
  let saga := { saga with status := .compensating }
  match ← save saga with
  | .error e => pure (.error e)
  | .ok () =>
    let (result, saga) ← compensate definition saga completed
    match result with
    | .error e => pure (.error e)
    | .ok compensated =>
      save { saga with
        status := if compensated.length = completed.length then .compensated
          else .partiallyCompensated }

/-! ## The entry points -/

def execute (definition : SagaDefinition) : Prog Op Resp Empty (Except Failure Unit) := do
  let saga ← get
  let saga := { saga with status := .running }
  match ← save saga with
  | .error e => pure (.error e)
  | .ok () =>
    let (result, completed, saga) ← executeBody definition saga
    match result with
    | .ok true => pure (.ok ())
    | .error .other => pure (.error .other)
    | .ok false | .error .operation => handleSagaFailure definition saga completed

def cancelSaga (definition : SagaDefinition) : Prog Op Resp Empty (Except Failure Unit) := do
  let saga ← get
  if saga.status = .pending ∨ saga.status = .running then
    let completed := saga.completedSteps
    let saga := { saga with status := .compensating }
    match ← save saga with
    | .error e => pure (.error e)
    | .ok () =>
      let (result, saga) ← compensate definition saga completed
      match result with
      | .error e => pure (.error e)
      | .ok _ => save { saga with status := .compensated }
  else pure (.ok ())

/-- `get_pending_compensations`: a `SagaStore` has no attribute `_sagas`. -/
def getPendingCompensations : Prog Op Resp Empty (Except Failure (List Saga)) :=
  pure (.error .operation)

/-- The `try` block of `_recover_pending_compensations`. -/
def recoverSaga (definition : SagaDefinition) (saga : Saga) :
    Prog Op Resp Empty (Except Failure Unit) := do
  let (result, saga) ← compensate definition saga saga.completedSteps
  match result with
  | .error e => pure (.error e)
  | .ok _ => save { saga with status := .compensated }

/-- The loop of `_recover_pending_compensations`. -/
def recoverAll (definition : SagaDefinition) :
    List Saga → Prog Op Resp Empty (Except Failure Unit)
  | [] => pure (.ok ())
  | saga :: rest => do
    match ← recoverSaga definition saga with
    | .error .other => pure (.error .other)
    | .ok () | .error .operation => recoverAll definition rest

def recoverPendingCompensations (definition : SagaDefinition) :
    Prog Op Resp Empty (Except Failure Unit) := do
  match ← getPendingCompensations with
  | .error e => pure (.error e)
  | .ok pending => recoverAll definition pending

inductive Call where
  | execute
  | cancelSaga
  | recover
  deriving DecidableEq

def Call.program (definition : SagaDefinition) : Call → Prog Op Resp Empty (Except Failure Unit)
  | .execute => EnterpriseSso.execute definition
  | .cancelSaga => EnterpriseSso.cancelSaga definition
  | .recover => recoverPendingCompensations definition

/-! ## Runs -/

/-- What happened to a saga: an entry point loaded it, it was written, or an attempt of the action
or of the compensation of a step ended. -/
inductive Entry where
  | loaded
  | saved (saga : Saga)
  | called (step : SagaStepDefinition) (success : Bool)
  | compensated (step : SagaStepDefinition) (success : Bool)
  deriving DecidableEq

structure World where
  stored : Saga
  log : List Entry

namespace World

def write (w : World) (saga : Saga) : World := ⟨saga, .saved saga :: w.log⟩

def note (w : World) (e : Entry) : World := { w with log := e :: w.log }

/-- What can be answered.  A save that raises may have written the saga all the same: `setex` comes
before `sadd` and `expire`. -/
def Answers (w : World) : (o : Op) → Resp o → World → Prop
  | .get, saga, w' => saga = w.stored ∧ w' = w.note .loaded
  | .save saga, .ok (), w' => w' = w.write saga
  | .save saga, .error _, w' => w' = w ∨ w' = w.write saga
  | .action step _, r, w' => w' = w.note (.called step (r matches .ok true))
  | .compensation step _, r, w' => w' = w.note (.compensated step (r matches .ok true))

def created (definition : SagaDefinition) : World := ⟨.create definition, []⟩

end World

def Runs (definition : SagaDefinition) (c : Call) (w : World)
    (out : Outcome Empty (Except Failure Unit)) (w' : World) : Prop :=
  Exec World.Answers (c.program definition) w out w'

inductive Reached (definition : SagaDefinition)
    (runs : Call → World → Outcome Empty (Except Failure Unit) → World → Prop) : World → Prop
  | created : Reached definition runs (.created definition)
  | call {c : Call} {w w' : World} {out : Outcome Empty (Except Failure Unit)}
      (h : Reached definition runs w) (hruns : runs c w out w') : Reached definition runs w'

end EnhancedAgentBus.EnterpriseSso
