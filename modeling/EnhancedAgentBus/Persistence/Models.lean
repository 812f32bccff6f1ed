import EnhancedAgentBus.Json

/-!
# Workflow persistence: the records

The records the durable executor and its repositories exchange, with the fields the
executor, the repositories and the replay engine read.  Times are left out, except the
creation time of a compensation, by which one repository orders them.
-/

namespace EnhancedAgentBus.Persistence

/-- A JSON object: `dict[str, Any]`. -/
abbrev JSONDict := List (String × Json)

/-- A 128-bit identifier, as `uuid4` draws it. -/
structure UUID where
  int : BitVec 128
  deriving DecidableEq

/-- `str(uuid)`: the 32 hexadecimal digits, grouped by hyphens. -/
def UUID.str (u : UUID) : String :=
  let digits := Nat.toDigits 16 u.int.toNat
  let hex := List.replicate (32 - digits.length) '0' ++ digits
  String.ofList (hex.take 8 ++ '-' :: (hex.drop 8).take 4 ++ '-' :: (hex.drop 12).take 4 ++
    '-' :: (hex.drop 16).take 4 ++ '-' :: hex.drop 20)

abbrev Callable := ℕ

/-! ## Exceptions -/

/-- How the executor's `except` clauses tell exceptions apart. -/
inductive ExcKind where
  /-- `TimeoutError`, itself one of the operation errors -/
  | timeout
  /-- `asyncio.CancelledError` -/
  | cancelled
  /-- any other of `_WORKFLOW_EXECUTOR_OPERATION_ERRORS` -/
  | operation
  /-- everything no clause names, such as a database error -/
  | other
  deriving DecidableEq

/-- A raised exception: its kind and its `str`. -/
structure PyExc where
  kind : ExcKind
  text : String
  deriving DecidableEq

/-- `isinstance(e, _WORKFLOW_EXECUTOR_OPERATION_ERRORS)` -/
def PyExc.isOperationError (e : PyExc) : Bool :=
  e.kind == .timeout || e.kind == .operation

/-! ## Enumerations -/

inductive WorkflowStatus where
  | pending
  | running
  | completed
  | failed
  | cancelled
  | compensating
  | compensated
  deriving DecidableEq

inductive StepStatus where
  | pending
  | executing
  | completed
  | failed
  | skipped
  | compensating
  | compensated
  | compensationFailed
  deriving DecidableEq

inductive StepType where
  | activity
  | decision
  | compensation
  | checkpoint
  | wait
  deriving DecidableEq

inductive EventType where
  | workflowStarted
  | workflowCompleted
  | workflowFailed
  | workflowCancelled
  | stepStarted
  | stepCompleted
  | stepFailed
  | compensationStarted
  | compensationCompleted
  | compensationFailed
  | checkpointCreated
  | checkpointRestored
  | timerFired
  | signalReceived
  deriving DecidableEq

/-! ## Records -/

structure WorkflowInstance where
  id : UUID
  workflowType : String
  workflowId : String
  tenantId : String
  status : WorkflowStatus := .pending
  input : Option JSONDict := none
  output : Json := .null
  error : Option String := none
  constitutionalHash : String

structure WorkflowStep where
  id : UUID
  workflowInstanceId : UUID
  stepName : String
  stepType : StepType
  status : StepStatus := .pending
  input : Option JSONDict := none
  output : Json := .null
  error : Option String := none
  idempotencyKey : Option String := none
  attemptCount : ℕ := 0

structure WorkflowEvent where
  workflowInstanceId : UUID
  eventType : EventType
  eventData : JSONDict
  sequenceNumber : ℕ

structure WorkflowCompensation where
  id : UUID
  workflowInstanceId : UUID
  stepId : UUID
  compensationName : String
  status : StepStatus := .pending
  input : Option JSONDict := none
  output : Json := .null
  error : Option String := none
  createdAt : ℕ

/-- What the executor assigns to an instance before it saves it; `none` leaves a field. -/
structure Assigned where
  status : WorkflowStatus
  output : Option Json := none
  error : Option String := none

def WorkflowInstance.assign (inst : WorkflowInstance) (set : Assigned) : WorkflowInstance :=
  { inst with
    status := set.status
    output := set.output.getD inst.output
    error := set.error <|> inst.error }

@[simp] theorem WorkflowInstance.assign_id (inst : WorkflowInstance) (set : Assigned) :
    (inst.assign set).id = inst.id := rfl

@[simp] theorem WorkflowInstance.assign_status (inst : WorkflowInstance) (set : Assigned) :
    (inst.assign set).status = set.status := rfl

@[simp] theorem WorkflowInstance.assign_workflowId (inst : WorkflowInstance) (set : Assigned) :
    (inst.assign set).workflowId = inst.workflowId := rfl

@[simp] theorem WorkflowInstance.assign_tenantId (inst : WorkflowInstance) (set : Assigned) :
    (inst.assign set).tenantId = inst.tenantId := rfl

structure WorkflowInstance.SameRun (a b : WorkflowInstance) : Prop where
  id : a.id = b.id
  workflowType : a.workflowType = b.workflowType
  workflowId : a.workflowId = b.workflowId
  tenantId : a.tenantId = b.tenantId
  input : a.input = b.input
  constitutionalHash : a.constitutionalHash = b.constitutionalHash

theorem WorkflowInstance.SameRun.refl (a : WorkflowInstance) : a.SameRun a :=
  ⟨rfl, rfl, rfl, rfl, rfl, rfl⟩

theorem WorkflowInstance.SameRun.assign {a b : WorkflowInstance} (h : a.SameRun b)
    (set : Assigned) : (a.assign set).SameRun b :=
  ⟨h.id, h.workflowType, h.workflowId, h.tenantId, h.input, h.constitutionalHash⟩

/-- `_coerce_json_dict`: a dict is itself, anything else is wrapped. -/
def coerceJsonDict : Json → JSONDict
  | .obj members => members
  | value => [("result", value)]

end EnhancedAgentBus.Persistence
