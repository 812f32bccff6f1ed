import EnhancedAgentBus.Persistence.Repository

/-!
# The durable workflow executor

`DurableWorkflowExecutor` and `WorkflowContext`, function by function.  Every `await` on the
repository, the cache, an activity or a handler is one operation of `Op`; a run may stop at
any of them.

A workflow function is a tree of `execute_activity` calls (`WorkflowBody`): it goes on with
whatever a call returned or raised, so it may catch, retry and branch.

Python objects are passed along by value.  A function that assigns to an object and may then
raise returns the object *as it left it* together with the exception; that is why
`tryActivity` and `executeActivity` answer with a pair.  Log lines, metrics, spans, sleeps and
checkpoints (which `resume_workflow` only reads to log) are left out.
-/

namespace EnhancedAgentBus.Persistence

open Async Async.Prog

/-- Code of the executor: it awaits `Op`s and raises Python exceptions. -/
abbrev Code := Prog Op Op.Resp PyExc

abbrev ask (o : Op) : Code o.Resp := perform o

def orRaise {α : Type} : Except PyExc α → Code α
  | .ok a => return a
  | .error e => .raise e

/-! ## Workflows -/

/-- The arguments of one `execute_activity` call. -/
structure ActivityCall where
  stepName : String
  activity : Callable
  inputData : Option JSONDict := none
  compensation : Option Callable := none
  idempotencyKey : Option String := none
  timeout : Option PyFloat := none

inductive WorkflowBody where
  | ret (value : Json)
  | raise (e : PyExc)
  | activity (call : ActivityCall) (k : Except PyExc Json → WorkflowBody)

/-- Context passed to workflow activities.  A later handler under a name hides an earlier one. -/
structure WorkflowContext where
  workflowInstance : WorkflowInstance
  compensationHandlers : List (String × Callable) := []

structure DurableWorkflowExecutor where
  constitutionalHash : String
  maxRetries : ℤ := 3
  /-- the registered workflows -/
  workflows : String → Option (WorkflowInstance → WorkflowBody)
  /-- the first 32 hexadecimal digits of the SHA-256 digest -/
  digest : String → String

namespace WorkflowContext

def workflowId (ctx : WorkflowContext) : String := ctx.workflowInstance.workflowId

/-- `context._compensation_handlers.get(name)` -/
def handler (ctx : WorkflowContext) (name : String) : Option Callable :=
  ctx.compensationHandlers.lookup name

def keyString (workflowId stepName : String) (args : List String) : String :=
  ":".intercalate (workflowId :: stepName :: args)

def getIdempotencyKey (E : DurableWorkflowExecutor) (ctx : WorkflowContext) (stepName : String)
    (args : List String) : String :=
  E.digest (keyString ctx.workflowId stepName args)

def registerCompensation (ctx : WorkflowContext) (stepId : UUID) (name : String)
    (handler : Callable) (inputData : Option JSONDict) : Code WorkflowContext := do
  let id ← ask (.uuid4 [])
  let createdAt ← ask .now
  let compensation : WorkflowCompensation :=
    { id, workflowInstanceId := ctx.workflowInstance.id, stepId
      compensationName := name, input := inputData, createdAt }
  ask (.bindHandler compensation handler)
  ask (.saveCompensation compensation)
  return { ctx with compensationHandlers := (name, handler) :: ctx.compensationHandlers }

end WorkflowContext

namespace DurableWorkflowExecutor

variable (E : DurableWorkflowExecutor)

def recordEvent (instanceId : UUID) (eventType : EventType) (eventData : JSONDict) :
    Code Unit := do
  let sequenceNumber ← ask (.getNextSequence instanceId)
  let saved ← ask
    (.saveEvent { workflowInstanceId := instanceId, eventType, eventData, sequenceNumber })
  orRaise saved

def assignAndSave (inst : WorkflowInstance) (set : Assigned) : Code WorkflowInstance := do
  let saved ← ask (.saveWorkflow inst set)
  orRaise saved
  return inst.assign set

/-- `input or {}` -/
def orEmpty (input : Option JSONDict) : JSONDict := input.getD []

def jsonOf : Option JSONDict → Json
  | none => .null
  | some members => .obj members

def startWorkflow (workflowType workflowId tenantId : String)
    (inputData : Option JSONDict) : Code WorkflowInstance := do
  if (E.workflows workflowType).isNone then
    .raise ⟨.operation, s!"Unknown workflow type: {workflowType}"⟩
  else
    let existing ← ask (.getWorkflowByBusinessId workflowId tenantId)
    match existing.filter fun wf => wf.status = .pending ∨ wf.status = .running with
    | some wf => return wf
    | none =>
      let id ← ask (.uuid4 [workflowId])
      let inst : WorkflowInstance :=
        { id, workflowType, workflowId, tenantId, input := inputData
          constitutionalHash := E.constitutionalHash }
      let inst ← assignAndSave inst { status := .pending }
      recordEvent inst.id .workflowStarted
        [("workflow_type", .str workflowType), ("input", jsonOf inputData)]
      return inst

/-! ## Activities -/

def getCachedStepResult (ctx : WorkflowContext) (key : String) : Code (Option Json) := do
  let cached ← ask (.getStepResult ctx.workflowInstance.id ctx.workflowId key)
  -- `if cached:` does not hold of an empty dict
  match cached.filter (· ≠ []) with
  | some members => return some (.obj members)
  | none =>
    let existing ← ask (.getStepByIdempotencyKey ctx.workflowInstance.id key)
    match existing.filter (·.status = .completed) with
    | none => return none
    | some row =>
      match row.output with
      | .obj output =>
        ask (.setStepResult ctx.workflowInstance.id ctx.workflowId key output)
        return some (.obj output)
      | output => return some output

/-- The step as `_complete_step` leaves it. -/
def completedStep (step : WorkflowStep) (result : Json) : WorkflowStep :=
  { step with status := .completed, output := .obj (coerceJsonDict result) }

def completeStep (ctx : WorkflowContext) (step : WorkflowStep) (stepName : String)
    (result : Json) (key : String) : Code Unit := do
  ask (.saveStep (completedStep step result))
  ask (.setStepResult ctx.workflowInstance.id ctx.workflowId key (coerceJsonDict result))
  recordEvent ctx.workflowInstance.id .stepCompleted
    [("step_name", .str stepName), ("output", .obj (coerceJsonDict result))]

def failStep (ctx : WorkflowContext) (step : WorkflowStep) (stepName : String)
    (lastError : PyExc) : Code Unit := do
  ask (.saveStep { step with status := .failed, error := some lastError.text })
  recordEvent ctx.workflowInstance.id .stepFailed
    [("step_name", .str stepName), ("error", .str lastError.text)]

def isCancelled (current : Option WorkflowInstance) : Bool :=
  current.any fun wf => wf.status = .cancelled

/-- The body of the `try` around one attempt: the step as it leaves it, and the result or
what it raised. -/
def tryActivity (ctx : WorkflowContext) (step : WorkflowStep) (call : ActivityCall)
    (key : String) (attempt : ℕ) : Code (WorkflowStep × Except PyExc Json) := do
  let workflowId := ctx.workflowId
  let stepName := call.stepName
  let current ← ask (.getWorkflow ctx.workflowInstance.id)
  if isCancelled current then
    return (step, .error ⟨.cancelled, s!"Workflow {workflowId} was cancelled"⟩)
  else
    let step := { step with status := .executing, attemptCount := attempt + 1 }
    ask (.saveStep step)
    match ← (recordEvent ctx.workflowInstance.id .stepStarted
        [("step_name", .str stepName), ("attempt", .int (attempt + 1))]).attempt with
    | .error e => return (step, .error e)
    | .ok _ =>
      match ← ask (.callActivity ctx.workflowInstance.id key call.activity
          (orEmpty call.inputData)) with
      | .error e => return (step, .error e)
      | .ok result =>
        let current ← ask (.getWorkflow ctx.workflowInstance.id)
        if isCancelled current then
          return (step, .error ⟨.cancelled,
            s!"Workflow {workflowId} was cancelled during step {stepName}"⟩)
        else
          match ← (completeStep ctx step stepName result key).attempt with
          | .error e => return (completedStep step result, .error e)
          | .ok _ => return (completedStep step result, .ok result)

/-- The text of the `TimeoutError` an attempt is reported with. -/
def timeoutError (call : ActivityCall) : PyExc :=
  let stepName := call.stepName
  let timeout := (call.timeout.map PyFloat.text).getD "None"
  ⟨.timeout, s!"Step {stepName} timed out after {timeout} seconds"⟩

/-- The attempts that are left, from attempt number `attempt` on: the step, and the result or
the last error, `none` when no attempt was made.  An exception no clause names is raised. -/
def runActivityWithRetry (ctx : WorkflowContext) (call : ActivityCall) (key : String) :
    (remaining attempt : ℕ) → WorkflowStep → Option PyExc →
      Code (WorkflowStep × Except (Option PyExc) Json)
  | 0, _, step, lastError => return (step, .error lastError)
  | remaining + 1, attempt, step, _ => do
    match ← tryActivity ctx step call key attempt with
    | (step, .ok result) => return (step, .ok result)
    | (step, .error e) =>
      match e.kind with
      | .timeout =>
        runActivityWithRetry ctx call key remaining (attempt + 1) step
          (some (timeoutError call))
      | .cancelled => return (step, .error (some e))
      | .operation =>
        runActivityWithRetry ctx call key remaining (attempt + 1) step (some e)
      | .other => .raise e

def keyOf (ctx : WorkflowContext) (call : ActivityCall) : String :=
  match call.idempotencyKey.filter (· ≠ "") with
  | some key => key
  | none => ctx.getIdempotencyKey E call.stepName []

def compensationName (stepName : String) : String := s!"compensate_{stepName}"

/-- `_run_activity_with_retry` for a new step, and what `execute_activity` does with its
answer. -/
def runStep (ctx : WorkflowContext) (call : ActivityCall) (key : String) (step : WorkflowStep) :
    Code Json := do
  let stepName := call.stepName
  match ← runActivityWithRetry ctx call key (E.maxRetries + 1).toNat 0 step none with
  | (_, .ok result) => return result
  | (_, .error none) => .raise ⟨.operation, s!"Step {stepName} failed without an exception"⟩
  | (step, .error (some lastError)) =>
    failStep ctx step stepName lastError
    .raise lastError

def registerFor (ctx : WorkflowContext) (call : ActivityCall) (step : WorkflowStep) :
    Code WorkflowContext :=
  match call.compensation with
  | some handler =>
    ctx.registerCompensation step.id (compensationName call.stepName) handler call.inputData
  | none => return ctx

/-- Execute a single activity within a workflow: the context as it leaves it, and the result
or what it raised. -/
def executeActivity (ctx : WorkflowContext) (call : ActivityCall) :
    Code (WorkflowContext × Except PyExc Json) := do
  let key := E.keyOf ctx call
  match ← getCachedStepResult ctx key with
  | some cachedResult => return (ctx, .ok cachedResult)
  | none =>
    let id ← ask (.uuid4 [])
    let step : WorkflowStep :=
      { id, workflowInstanceId := ctx.workflowInstance.id, stepName := call.stepName
        stepType := .activity, input := call.inputData, idempotencyKey := some key }
    ask (.saveStep step)
    let ctx ← registerFor ctx call step
    let result ← (E.runStep ctx call key step).attempt
    return (ctx, result)

def runWorkflow (ctx : WorkflowContext) :
    WorkflowBody → Code (WorkflowContext × Except PyExc Json)
  | .ret value => return (ctx, .ok value)
  | .raise e => return (ctx, .error e)
  | .activity call k => do
    let (ctx, result) ← E.executeActivity ctx call
    runWorkflow ctx (k result)

/-! ## Compensation -/

def invokeHandler (ctx : WorkflowContext) (comp : WorkflowCompensation) :
    Code (Except PyExc WorkflowCompensation) := do
  match ctx.handler comp.compensationName with
  | none => return .ok comp
  | some handler =>
    match ← ask (.callHandler comp handler (orEmpty comp.input)) with
    | .error e => return .error e
    | .ok result => return .ok { comp with output := .obj (coerceJsonDict result) }

/-- The body of the `try` around one compensation: the record as it leaves it, and what it
raised. -/
def tryCompensation (ctx : WorkflowContext) (comp : WorkflowCompensation) :
    Code (WorkflowCompensation × Except PyExc Unit) := do
  let name : JSONDict := [("compensation_name", .str comp.compensationName)]
  match ← (recordEvent ctx.workflowInstance.id .compensationStarted name).attempt with
  | .error e => return (comp, .error e)
  | .ok _ =>
    let comp := { comp with status := .compensating }
    ask (.saveCompensation comp)
    match ← invokeHandler ctx comp with
    | .error e => return (comp, .error e)
    | .ok comp =>
      let comp := { comp with status := .compensated }
      ask (.saveCompensation comp)
      let recorded ←
        (recordEvent ctx.workflowInstance.id .compensationCompleted name).attempt
      return (comp, recorded)

def runCompensation (ctx : WorkflowContext) (comp : WorkflowCompensation) : Code Unit := do
  if comp.status ≠ .pending then
    return ()
  else
    match ← tryCompensation ctx comp with
    | (_, .ok _) => return ()
    | (comp, .error e) =>
      if e.isOperationError then
        ask (.saveCompensation
          { comp with status := .compensationFailed, error := some e.text })
        recordEvent ctx.workflowInstance.id .compensationFailed
          [("compensation_name", .str comp.compensationName), ("error", .str e.text)]
      else
        .raise e

def runCompensationLoop (ctx : WorkflowContext) : List WorkflowCompensation → Code Unit
  | [] => return ()
  | comp :: rest => do
    runCompensation ctx comp
    runCompensationLoop ctx rest

def runCompensations (ctx : WorkflowContext) : Code WorkflowInstance := do
  let inst ← assignAndSave ctx.workflowInstance { status := .compensating }
  -- Invalidate cache for this workflow as state is changing
  ask (.invalidateWorkflowState ctx.workflowId)
  let compensations ← ask (.getCompensationsReversed ctx.workflowInstance.id)
  runCompensationLoop ctx compensations
  assignAndSave inst { status := .compensated }

/-! ## Whole workflows -/

def finalizeWorkflowSuccess (inst : WorkflowInstance) (result : Json) : Code WorkflowInstance := do
  let inst ← assignAndSave inst
    { status := .completed, output := some (.obj (coerceJsonDict result)) }
  recordEvent inst.id .workflowCompleted [("output", inst.output)]
  return inst

def finalizeWorkflowCancelled (inst : WorkflowInstance) (e : PyExc) : Code WorkflowInstance :=
  assignAndSave inst { status := .cancelled, error := some e.text }

def finalizeWorkflowFailed (inst : WorkflowInstance) (ctx : WorkflowContext) (e : PyExc) :
    Code WorkflowInstance := do
  recordEvent inst.id .workflowFailed [("error", .str e.text)]
  let inst ← runCompensations ctx
  assignAndSave inst { status := .failed, error := some e.text }

/-- The `except` clauses around a workflow function. -/
def handleWorkflowError (inst : WorkflowInstance) (ctx : WorkflowContext) (e : PyExc) :
    Code WorkflowInstance :=
  match e.kind with
  | .cancelled => finalizeWorkflowCancelled inst e
  | .timeout | .operation => finalizeWorkflowFailed inst ctx e
  | .other => .raise e

/-- `execute_workflow`, once the instance is accepted. -/
def runInstance (func : WorkflowInstance → WorkflowBody) (inst : WorkflowInstance) :
    Code WorkflowInstance := do
  let inst ← assignAndSave inst { status := .running }
  let (ctx, result) ← E.runWorkflow { workflowInstance := inst } (func inst)
  match result with
  | .error e => handleWorkflowError inst ctx e
  | .ok value =>
    match ← (finalizeWorkflowSuccess inst value).attempt with
    | .ok inst => return inst
    | .error e => handleWorkflowError inst ctx e

def executeWorkflow (inst : WorkflowInstance) : Code WorkflowInstance := do
  let expected := E.constitutionalHash
  let got := inst.constitutionalHash
  let workflowType := inst.workflowType
  if got ≠ expected then
    .raise ⟨.operation, s!"Constitutional hash mismatch: expected {expected}, got {got}"⟩
  else
    match E.workflows workflowType with
    | none => .raise ⟨.operation, s!"Unknown workflow type: {workflowType}"⟩
    | some func => E.runInstance func inst

def resumeWorkflow (workflowId tenantId : String) : Code WorkflowInstance := do
  let found ← ask (.getWorkflowByBusinessId workflowId tenantId)
  match found with
  | none => .raise ⟨.operation, s!"Workflow not found: {workflowId}"⟩
  | some inst =>
    if inst.status = .completed ∨ inst.status = .cancelled then
      return inst
    else
      E.executeWorkflow inst

def getWorkflowStatus (workflowId tenantId : String) : Code (Option WorkflowInstance) :=
  ask (.getWorkflowByBusinessId workflowId tenantId)

def cancelWorkflow (workflowId tenantId reason : String) :
    Code (Option WorkflowInstance) := do
  let found ← ask (.getWorkflowByBusinessId workflowId tenantId)
  match found with
  | none => return none
  | some inst =>
    if ¬ (inst.status = .pending ∨ inst.status = .running) then
      return some inst
    else
      let inst ← assignAndSave inst { status := .cancelled, error := some reason }
      recordEvent inst.id .workflowCancelled [("reason", .str reason)]
      return some inst

end DurableWorkflowExecutor

end EnhancedAgentBus.Persistence
