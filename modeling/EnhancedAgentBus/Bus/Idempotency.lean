import EnhancedAgentBus.Bus.Models

/-!
# Calls that share a run

A call of `send_message` with an idempotency key awaits the task that is in flight under the key, or
starts one.  The table of the tasks in flight has keys only, and a call that awaits a task directly
cancels it when it is cancelled itself.

The event loop decides who goes on next: the events of a run come in any order.  The lock of the
table is never held across an `await`, so to start a call and to remove an entry are one step each.
-/

namespace EnhancedAgentBus.Bus

/-! ## `_resolve_idempotency_key` -/

/-- `isinstance(value, str) and value` -/
def nonEmptyText : Json → Option String
  | .str text => if text = "" then none else some text
  | _ => none

def resolveIdempotencyKey (msg : AgentMessage) : Option String :=
  match msg.idempotencyKey.filter (· ≠ "") with
  | some explicitKey => some explicitKey
  | none =>
    let headerKey := getItem msg.headers "idempotency_key"
    let headerKey :=
      if headerKey.truthy then headerKey else getItem msg.headers "Idempotency-Key"
    match nonEmptyText headerKey with
    | some headerKey => some headerKey
    | none => nonEmptyText (getItem msg.metadata "idempotency_key")

/-! ## Tasks and calls -/

/-- How a task ends, and what who awaits it gets.  An exception of a service is `raised`. -/
inductive RunOutcome where
  | returned (result : ValidationResult)
  | raised
  | cancelled

/-- `CancelledError` -/
def RunOutcome.isCancelled : RunOutcome → Bool
  | cancelled => true
  | _ => false

inductive TaskStatus where
  | running (cancelRequested : Bool)
  | ended (outcome : RunOutcome)

/-- A task of `_send_message_once`, with the message of the call that started it. -/
structure SendTask where
  message : AgentMessage
  status : TaskStatus := .running false

namespace SendTask

/-- `task.result()`, once the task is done. -/
def outcome (task : SendTask) : Option RunOutcome :=
  match task.status with
  | .running _ => none
  | .ended outcome => some outcome

def isUndisturbed (task : SendTask) : Bool :=
  match task.status with
  | .running cancelRequested => !cancelRequested
  | .ended outcome => !outcome.isCancelled

end SendTask

/-- A call of `send_message`.  It is in flight as long as it has no outcome.  A call that is
cancelled after its task has ended will not get the outcome of the task. -/
structure SendCall where
  message : AgentMessage
  idempotencyKey : String
  task : ℕ
  createdTask : Bool
  cancelled : Bool := false
  mustCancel : Bool := false
  outcome : Option RunOutcome := none

/-- The tasks, which have the numbers of the calls that started them, the table
`_inflight_idempotency`, and the calls. -/
structure SendState where
  tasks : Dict ℕ SendTask := Dict.empty
  inflight : Dict String ℕ := Dict.empty
  calls : Dict ℕ SendCall := Dict.empty

/-- What happens: a call starts, a task ends, a call is cancelled, or goes on after its task. -/
inductive SendEvent where
  | start (call : ℕ) (msg : AgentMessage)
  | finish (task : ℕ) (outcome : RunOutcome)
  | cancel (call : ℕ)
  | wake (call : ℕ)

namespace SendState

variable (s : SendState)

/-- `send_message` up to its `await`, which gives the outcome of a task that is done at once.  A call
without a key shares nothing. -/
def startCall (cid : ℕ) (msg : AgentMessage) : SendState :=
  match s.calls.get cid, resolveIdempotencyKey msg with
  | none, some key =>
    match s.inflight.get key with
    | none =>
      { tasks := s.tasks.set cid { message := msg }
        inflight := s.inflight.set key cid
        calls := s.calls.set cid
          { message := msg, idempotencyKey := key, task := cid, createdTask := true } }
    | some existing =>
      { s with
        calls := s.calls.set cid
          { message := msg, idempotencyKey := key, task := existing, createdTask := false,
            outcome := (s.tasks.get existing).bind SendTask.outcome } }
  | _, _ => s

/-- A task ends.  Only one that was asked to stop is cancelled; it may go on all the same. -/
def finishTask (tid : ℕ) (outcome : RunOutcome) : SendState :=
  match s.tasks.get tid with
  | none => s
  | some task =>
    match task.status with
    | .ended _ => s
    | .running cancelRequested =>
      if outcome.isCancelled && !cancelRequested then s
      else { s with tasks := s.tasks.set tid { task with status := .ended outcome } }

/-- `task.cancel()` of the task that a call runs in: it cancels what the call awaits, or the call
itself if that is done. -/
def cancelCall (cid : ℕ) : SendState :=
  match s.calls.get cid with
  | none => s
  | some call =>
    match call.outcome, s.tasks.get call.task with
    | none, some task =>
      match task.status with
      | .running _ =>
        { s with
          tasks := s.tasks.set call.task { task with status := .running true }
          calls := s.calls.set cid { call with cancelled := true } }
      | .ended _ =>
        { s with calls := s.calls.set cid { call with cancelled := true, mustCancel := true } }
    | _, _ => s

def wakeCall (cid : ℕ) : SendState :=
  match s.calls.get cid with
  | none => s
  | some call =>
    match call.outcome, (s.tasks.get call.task).bind SendTask.outcome with
    | none, some outcome =>
      { s with
        inflight :=
          if call.createdTask && s.inflight.get call.idempotencyKey == some call.task then
            s.inflight.erase call.idempotencyKey
          else s.inflight
        calls := s.calls.set cid
          { call with outcome := some (if call.mustCancel then .cancelled else outcome) } }
    | _, _ => s

def step : SendEvent → SendState
  | .start cid msg => s.startCall cid msg
  | .finish tid outcome => s.finishTask tid outcome
  | .cancel cid => s.cancelCall cid
  | .wake cid => s.wakeCall cid

def InFlight (cid : ℕ) (call : SendCall) : Prop :=
  s.calls.get cid = some call ∧ call.outcome = none

end SendState

end EnhancedAgentBus.Bus
