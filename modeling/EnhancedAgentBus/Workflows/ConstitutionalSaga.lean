import EnhancedAgentBus.Json
import EnhancedAgentBus.Lib.Async
import EnhancedAgentBus.Lib.Dict
import Mathlib.Data.Int.Notation

/-!
# The constitutional saga workflow

`ConstitutionalSagaWorkflow`: steps one after the other, each with its attempts, and the
compensations of the steps that were started in reverse order.  What a step, a compensation and a
persistence provider do is a program each, over operations that are left open here; that of a step
has the timeout of `wait_for` in it.

A method that raises has changed the workflow as far as it came, so a method returns its exception
together with the workflow.  The waiting between attempts changes nothing and is left out, and so
are the dates, durations and descriptions, which nothing reads.
-/

namespace EnhancedAgentBus.Workflows

open Async

inductive SagaStatus where
  | pending
  | executing
  | completed
  | compensating
  | compensated
  | failed
  | partiallyCompensated
  deriving DecidableEq

/-- `StepStatus`, as far as a step takes it. -/
inductive StepStatus where
  | pending
  | executing
  | completed
  | failed
  deriving DecidableEq

/-- An exception, as the `except` clauses sort it: `TimeoutError`, another one of
`_CONSTITUTIONAL_SAGA_OPERATION_ERRORS`, or any other. -/
inductive Failure where
  | timeout (message : String)
  | operation (message : String)
  | other (message : String)
  deriving DecidableEq

namespace Failure

/-- `str(e)` -/
def message : Failure → String
  | timeout m | operation m | other m => m

/-- The exception is not one of `_CONSTITUTIONAL_SAGA_OPERATION_ERRORS`. -/
def escapes : Failure → Bool
  | other _ => true
  | _ => false

end Failure

/-! ## The records -/

structure StepInput where
  sagaId : String
  stepName : String
  attempt : ℕ
  context : Dict String Json
  metadata : Dict String Json
  constitutionalHash : String

structure CompensationInput where
  sagaId : String
  compensationName : String
  attempt : ℕ
  context : Dict String Json
  idempotencyKey : String

section Records

variable (Op : Type) (Resp : Op → Type)

structure SagaCompensation where
  name : String
  /-- Whether the result is true. -/
  execute : CompensationInput → Prog Op Resp Failure Bool
  idempotencyKey : Option String := none
  maxRetries : ℤ := 3

structure SagaStep where
  name : String
  execute : StepInput → Prog Op Resp Failure Json
  compensation : Option (SagaCompensation Op Resp) := none
  timeoutSeconds : ℤ := 30
  maxRetries : ℤ := 3
  isOptional : Bool := false

structure SagaContext where
  constitutionalHash : String
  stepResults : Dict String Json := .empty
  metadata : Dict String Json := .empty
  errors : List String := []

structure SagaState where
  sagaId : String
  status : SagaStatus
  completedSteps : List String
  failedStep : Option String
  compensatedSteps : List String
  failedCompensations : List String
  context : Dict String Json
  version : String

structure SagaResult where
  sagaId : String
  status : SagaStatus
  completedSteps : List String
  failedStep : Option String
  compensatedSteps : List String
  failedCompensations : List String
  context : SagaContext
  version : String
  constitutionalHash : String
  errors : List String

/-- A workflow, with the context of its execution.  The status of a step is kept by its place. -/
structure SagaWorkflow where
  sagaId : String
  saveState : Option (SagaState → Prog Op Resp Failure Unit)
  version : String := "1.0.0"
  steps : List (SagaStep Op Resp) := []
  compensations : List (SagaCompensation Op Resp) := []
  status : SagaStatus := .pending
  completedSteps : List String := []
  failedStep : Option String := none
  compensatedSteps : List String := []
  failedCompensations : List String := []
  stepStatus : ℕ → StepStatus := fun _ => .pending
  context : SagaContext

end Records

namespace SagaWorkflow

variable {Op : Type} {Resp : Op → Type}

abbrev Ended (Op : Type) (Resp : Op → Type) (α : Type) : Type :=
  Except Failure α × SagaWorkflow Op Resp

def toState (W : SagaWorkflow Op Resp) : SagaState where
  sagaId := W.sagaId
  status := W.status
  completedSteps := W.completedSteps
  failedStep := W.failedStep
  compensatedSteps := W.compensatedSteps
  failedCompensations := W.failedCompensations
  context := W.context.stepResults
  version := W.version

def saveCurrentState (W : SagaWorkflow Op Resp) : Prog Op Resp Empty (Except Failure Unit) :=
  match W.saveState with
  | none => pure (.ok ())
  | some save => (save W.toState).attempt

/-- `context.errors.append(…)` -/
def addError (W : SagaWorkflow Op Resp) (error : String) : SagaWorkflow Op Resp :=
  { W with context := { W.context with errors := W.context.errors ++ [error] } }

/-! ## Steps -/

def start (W : SagaWorkflow Op Resp) (i : ℕ) (step : SagaStep Op Resp) : SagaWorkflow Op Resp :=
  { W with
    stepStatus := Function.update W.stepStatus i .executing
    compensations := W.compensations ++ step.compensation.toList }

def stepInput (W : SagaWorkflow Op Resp) (step : SagaStep Op Resp) (attempt : ℕ) : StepInput where
  sagaId := W.sagaId
  stepName := step.name
  attempt := attempt
  context := W.context.stepResults
  metadata := W.context.metadata
  constitutionalHash := W.context.constitutionalHash

def complete (W : SagaWorkflow Op Resp) (i : ℕ) (step : SagaStep Op Resp) (result : Json) :
    SagaWorkflow Op Resp :=
  { W with
    stepStatus := Function.update W.stepStatus i .completed
    context := { W.context with stepResults := W.context.stepResults.set step.name result }
    completedSteps := W.completedSteps ++ [step.name] }

def fail (W : SagaWorkflow Op Resp) (i : ℕ) (step : SagaStep Op Resp) (error : Option String) :
    SagaWorkflow Op Resp :=
  { W.addError ("Step '" ++ step.name ++ "' failed: " ++ error.getD "None") with
    stepStatus := Function.update W.stepStatus i .failed }

/-- The `try` block of one attempt. -/
def attemptStep (W : SagaWorkflow Op Resp) (i : ℕ) (step : SagaStep Op Resp) (attempt : ℕ) :
    Prog Op Resp Empty (Ended Op Resp Unit) := do
  match ← (step.execute (W.stepInput step attempt)).attempt with
  | .error e => pure (.error e, W)
  | .ok result =>
    let W := W.complete i step result
    let saved ← W.saveCurrentState
    pure (saved, W)

/-- What `step.error` becomes. -/
def stepError (step : SagaStep Op Resp) : Failure → String
  | .timeout _ => "Timeout after " ++ step.timeoutSeconds.repr ++ "s"
  | e => e.message

def runAttempts (i : ℕ) (step : SagaStep Op Resp) :
    ℕ → ℕ → Option String → SagaWorkflow Op Resp → Prog Op Resp Empty (Ended Op Resp Bool)
  | 0, _, error, W => pure (.ok false, W.fail i step error)
  | n + 1, attempt, _, W => do
    let (result, W) ← W.attemptStep i step attempt
    match result with
    | .ok () => pure (.ok true, W)
    | .error e =>
      if e.escapes then pure (.error e, W)
      else runAttempts i step n (attempt + 1) (some (stepError step e)) W

/-- `_execute_step`, for the step at place `i`. -/
def executeStep (W : SagaWorkflow Op Resp) (i : ℕ) (step : SagaStep Op Resp) :
    Prog Op Resp Empty (Ended Op Resp Bool) :=
  runAttempts i step step.maxRetries.toNat 1 none (W.start i step)

/-- The loop over the steps, from place `i` on. -/
def executeSteps :
    List (SagaStep Op Resp) → ℕ → SagaWorkflow Op Resp → Prog Op Resp Empty (Ended Op Resp Unit)
  | [], _, W => pure (.ok (), W)
  | step :: rest, i, W => do
    let (result, W) ← W.executeStep i step
    match result with
    | .error e => pure (.error e, W)
    | .ok success =>
      if success = false ∧ step.isOptional = false then
        pure (.ok (), { W with failedStep := some step.name })
      else executeSteps rest (i + 1) W

/-! ## Compensations -/

/-- `comp_input` -/
def compensationInput (W : SagaWorkflow Op Resp) (compensation : SagaCompensation Op Resp)
    (attempt : ℕ) : CompensationInput where
  sagaId := W.sagaId
  compensationName := compensation.name
  attempt := attempt
  context := W.context.stepResults
  idempotencyKey :=
    if (compensation.idempotencyKey.getD "") = "" then W.sagaId ++ ":" ++ compensation.name
    else compensation.idempotencyKey.getD ""

def runCompensationAttempts (compensation : SagaCompensation Op Resp) :
    ℕ → ℕ → SagaWorkflow Op Resp → Prog Op Resp Empty (Ended Op Resp Bool)
  | 0, _, W => pure (.ok false, W.addError ("Compensation '" ++ compensation.name ++ "' failed"))
  | n + 1, attempt, W => do
    match ← (compensation.execute (W.compensationInput compensation attempt)).attempt with
    | .ok true => pure (.ok true, W)
    | .ok false => runCompensationAttempts compensation n (attempt + 1) W
    | .error e =>
      if e.escapes then pure (.error e, W)
      else runCompensationAttempts compensation n (attempt + 1) W

def executeCompensation (W : SagaWorkflow Op Resp) (compensation : SagaCompensation Op Resp) :
    Prog Op Resp Empty (Ended Op Resp Bool) :=
  runCompensationAttempts compensation compensation.maxRetries.toNat 1 W

def noteCompensation (W : SagaWorkflow Op Resp) (compensation : SagaCompensation Op Resp)
    (success : Bool) : SagaWorkflow Op Resp :=
  if success then { W with compensatedSteps := W.compensatedSteps ++ [compensation.name] }
  else { W with failedCompensations := W.failedCompensations ++ [compensation.name] }

def compensateAll :
    List (SagaCompensation Op Resp) → SagaWorkflow Op Resp → Prog Op Resp Empty (Ended Op Resp Unit)
  | [], W => pure (.ok (), W)
  | compensation :: rest, W => do
    let (result, W) ← W.executeCompensation compensation
    match result with
    | .error e => pure (.error e, W)
    | .ok success =>
      let W := W.noteCompensation compensation success
      match ← W.saveCurrentState with
      | .error e => pure (.error e, W)
      | .ok () => compensateAll rest W

def runCompensations (W : SagaWorkflow Op Resp) : Prog Op Resp Empty (Ended Op Resp Unit) :=
  compensateAll W.compensations.reverse { W with status := .compensating }

/-! ## Execution -/

/-- Whether `_failed_step` is true. -/
def hasFailed (W : SagaWorkflow Op Resp) : Bool := W.failedStep.any fun name => name ≠ ""

def finalStatus (W : SagaWorkflow Op Resp) : SagaStatus :=
  if W.failedCompensations = [] then .compensated else .partiallyCompensated

/-- The end of the `try` block of `execute`, after the loop over the steps. -/
def conclude (W : SagaWorkflow Op Resp) : Prog Op Resp Empty (Ended Op Resp Unit) := do
  if W.hasFailed then
    let (result, W) ← W.runCompensations
    match result with
    | .error e => pure (.error e, W)
    | .ok () =>
      let W := { W with status := W.finalStatus }
      let saved ← W.saveCurrentState
      pure (saved, W)
  else
    let W := { W with status := .completed }
    let saved ← W.saveCurrentState
    pure (saved, W)

/-- The `try` block of `execute`. -/
def executeBody (W : SagaWorkflow Op Resp) : Prog Op Resp Empty (Ended Op Resp Unit) := do
  let (result, W) ← executeSteps W.steps 0 W
  match result with
  | .error e => pure (.error e, W)
  | .ok () => W.conclude

/-- `execute`.  The result that it returns is `buildResult` of the workflow. -/
def execute (W : SagaWorkflow Op Resp) (context : SagaContext) :
    Prog Op Resp Empty (Ended Op Resp Unit) := do
  let W := { W with status := .executing, context := context }
  match ← W.saveCurrentState with
  | .error e => pure (.error e, W)
  | .ok () =>
    let (result, W) ← W.executeBody
    match result with
    | .ok () => pure (.ok (), W)
    | .error e =>
      if e.escapes then pure (.error e, W)
      else
        let W := { W.addError e.message with status := .failed }
        W.runCompensations

def buildResult (W : SagaWorkflow Op Resp) : SagaResult where
  sagaId := W.sagaId
  status := W.status
  completedSteps := W.completedSteps
  failedStep := W.failedStep
  compensatedSteps := W.compensatedSteps
  failedCompensations := W.failedCompensations
  context := W.context
  version := W.version
  constitutionalHash := W.context.constitutionalHash
  errors := W.context.errors

/-- `resume`, of a state that was loaded. -/
def resume (saveState : SagaState → Prog Op Resp Failure Unit) (state : SagaState)
    (context : SagaContext) : SagaWorkflow Op Resp where
  sagaId := state.sagaId
  saveState := some saveState
  version := state.version
  status := state.status
  completedSteps := state.completedSteps
  failedStep := state.failedStep
  compensatedSteps := state.compensatedSteps
  failedCompensations := state.failedCompensations
  context := context

end SagaWorkflow

end EnhancedAgentBus.Workflows
