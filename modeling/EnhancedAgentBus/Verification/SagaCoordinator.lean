import EnhancedAgentBus.Lib.Machine
import Mathlib.Data.List.Range

/-!
# The saga coordinator

`SagaCoordinator` with one saga, one call of `execute_saga` and one of `abort_saga`.  The two run
interleaved at their awaits and share the saga; between two awaits nothing interrupts them.  So the
state has the saga and the two calls with the place where each of them waits, and an event is the
end of something that is awaited, with all that its call does up to the next await.

A compensation under `PARALLEL` is a task of its own, and the call waits for all of them.  Times,
results and messages, which nothing here reads, are left out; so is `SELECTIVE`.  Nothing in
`execute_saga` raises what its two `except` clauses catch: `_execute_step_with_retry` and
`_execute_compensation` keep these exceptions to themselves.  `add_step` gives every compensation
its function, so that the guard of `_execute_compensation` never applies.
-/

namespace EnhancedAgentBus.Verification.SagaCoordinator

/-- `SagaState`, as far as it is taken. -/
inductive SagaState where
  | initialized
  | running
  | compensating
  | compensated
  | completed
  | aborted
  deriving DecidableEq

inductive StepState where
  | pending
  | running
  | completed
  | failed
  | compensating
  | compensated
  | skipped
  deriving DecidableEq

/-- `CompensationStrategy`, but for `SELECTIVE`. -/
inductive CompensationStrategy where
  | lifo
  | parallel
  deriving DecidableEq

structure SagaStep where
  stepId : String
  dependencies : List String := []
  maxRetries : ℤ := 3
  hasCompensation : Bool := false

/-- How an awaited function ends: it returns, it raises `TimeoutError` or another one of
`_SAGA_COORDINATOR_OPERATION_ERRORS`, or it raises anything else. -/
inductive Outcome where
  | returned
  | failed
  | escaped
  deriving DecidableEq

inductive Party where
  | executor
  | aborter
  deriving DecidableEq

/-- Where `execute_saga` is. -/
inductive Executor where
  | ready
  | calling (i attempt : ℕ)
  | sleeping (i attempt : ℕ)
  | compensating
  | returned (result : Bool)
  | raised
  deriving DecidableEq

/-- Where `abort_saga` is. -/
inductive Aborter where
  | ready
  | compensating
  | returned (result : Bool)
  | raised
  deriving DecidableEq

/-- The compensations of one call that are still to be called, and those that are awaited. -/
structure Rollback where
  waiting : List ℕ := []
  running : List ℕ := []

/-- What was called: the function of a step, in view of the states of the steps, or a compensation;
and which functions of steps have returned. -/
inductive Entry where
  | called (i : ℕ) (states : ℕ → StepState)
  | completed (i : ℕ)
  | compensates (i : ℕ)

structure Saga where
  state : SagaState := .initialized
  stepStates : ℕ → StepState := fun _ => .pending
  /-- The saga is in `_active_sagas`. -/
  active : Bool := true
  executor : Executor := .ready
  aborter : Aborter := .ready
  rollback : Party → Rollback := fun _ => {}
  /-- Latest first. -/
  log : List Entry := []

inductive Event where
  | execute
  | stepEnds (outcome : Outcome)
  | sleepEnds
  | abort
  | taskStarts (p : Party)
  | compensationEnds (p : Party) (i : ℕ) (outcome : Outcome)
  | gathered (p : Party)

namespace Saga

def setStep (S : Saga) (i : ℕ) (state : StepState) : Saga :=
  { S with stepStates := Function.update S.stepStates i state }

@[simp] theorem setStep_self (S : Saga) (i : ℕ) (state : StepState) :
    (S.setStep i state).stepStates i = state := Function.update_self _ _ _

theorem setStep_of_ne (S : Saga) {i j : ℕ} (hj : j ≠ i) (state : StepState) :
    (S.setStep i state).stepStates j = S.stepStates j := Function.update_of_ne hj _ _

def setRollback (S : Saga) (p : Party) (r : Rollback) : Saga :=
  { S with rollback := Function.update S.rollback p r }

/-- A call is in `_compensate_saga`. -/
def enter (S : Saga) : Party → Saga
  | .executor => { S with executor := .compensating }
  | .aborter => { S with aborter := .compensating }

/-- The end of `_compensate_saga`, and of the call that it stands in. -/
def finish (S : Saga) (p : Party) : Saga :=
  let S := if S.state = .aborted then S else { S with state := .compensated }
  match p with
  | .executor => { S with executor := .returned false }
  | .aborter => { S with aborter := .returned true }

def raise (S : Saga) : Party → Saga
  | .executor => { S with executor := .raised }
  | .aborter => { S with aborter := .raised }

def begin (S : Saga) (p : Party) (i : ℕ) (rest : List ℕ) : Saga :=
  let S := S.setStep i .compensating
  let S := { S with log := .compensates i :: S.log }
  S.setRollback p ⟨rest, i :: (S.rollback p).running⟩

/-- The loop of `_compensate_lifo`. -/
def next (S : Saga) (p : Party) : Saga :=
  match (S.rollback p).waiting with
  | [] => S.finish p
  | i :: rest => S.begin p i rest

variable (steps : List SagaStep) (strategy : CompensationStrategy)

/-- `completed_steps`, in `_compensate_saga`. -/
def completedSteps (S : Saga) : List ℕ :=
  (List.range steps.length).filter fun i =>
    S.stepStates i = .completed ∧ (steps[i]?.any fun step => step.hasCompensation) = true

/-- `_compensate_saga`, up to its first await. -/
def compensateSaga (S : Saga) (p : Party) : Saga :=
  match strategy with
  | .lifo => ((S.enter p).setRollback p ⟨(S.completedSteps steps).reverse, []⟩).next p
  | .parallel =>
    if S.completedSteps steps = [] then S.finish p
    else (S.enter p).setRollback p ⟨S.completedSteps steps, []⟩

def compensateFailure (S : Saga) : Saga :=
  { S with state := .compensating }.compensateSaga steps strategy .executor

/-- An attempt of `_execute_step_with_retry`, or the end of its loop. -/
def attemptStep (S : Saga) (i : ℕ) (step : SagaStep) (attempt : ℕ) : Saga :=
  if (attempt : ℤ) < step.maxRetries + 1 then
    let S := S.setStep i .running
    { S with executor := .calling i attempt, log := .called i S.stepStates :: S.log }
  else S.compensateFailure steps strategy

def findStep (stepId : String) : Option ℕ := steps.findIdx? fun step => step.stepId = stepId

/-- The check for one dependency.  Its `continue` is that of the loop over the dependencies. -/
def checkDependency (i : ℕ) (S : Saga) (stepId : String) : Saga :=
  match findStep steps stepId with
  | some j => if S.stepStates j = .completed then S else S.setStep i .skipped
  | none => S

def checkDependencies (S : Saga) (i : ℕ) (step : SagaStep) : Saga :=
  step.dependencies.foldl (checkDependency steps i) S

/-- The loop of `execute_saga`, at place `i`. -/
def executeFrom (S : Saga) (i : ℕ) : Saga :=
  match steps[i]? with
  | none => { S with state := .completed, active := false, executor := .returned true }
  | some step => (S.checkDependencies steps i step).attemptStep steps strategy i step 0

/-- The start of `execute_saga`. -/
def startExecution (S : Saga) : Saga :=
  if S.state = .initialized then { S with state := .running }.executeFrom steps strategy 0
  else S.raise .executor

/-- The function of the step has ended that `execute_saga` waits for. -/
def stepEnds (S : Saga) (i : ℕ) (step : SagaStep) (attempt : ℕ) : Outcome → Saga
  | .returned =>
    let S := S.setStep i .completed
    { S with log := .completed i :: S.log }.executeFrom steps strategy (i + 1)
  | .failed =>
    if (attempt : ℤ) = step.maxRetries then (S.setStep i .failed).compensateFailure steps strategy
    else { S with executor := .sleeping i attempt }
  | .escaped => S.raise .executor

/-- The start of `abort_saga`. -/
def startAbort (S : Saga) : Saga :=
  if S.active = true ∧ (S.state = .initialized ∨ S.state = .running) then
    { S with state := .aborted }.compensateSaga steps strategy .aborter
  else { S with aborter := .returned false }

def compensationEnds (S : Saga) (p : Party) (i : ℕ) (outcome : Outcome) : Saga :=
  let S := S.setRollback p { S.rollback p with running := (S.rollback p).running.erase i }
  let S := if outcome = .returned then S.setStep i .compensated else S
  match strategy with
  | .lifo => if outcome = .escaped then S.raise p else S.next p
  | .parallel => S

/-- Whether a call is in `_compensate_saga`. -/
def isCompensating (S : Saga) : Party → Bool
  | .executor => S.executor = .compensating
  | .aborter => S.aborter = .compensating

def step (S : Saga) : Event → Saga
  | .execute => if S.executor = .ready then S.startExecution steps strategy else S
  | .stepEnds outcome =>
    match S.executor with
    | .calling i attempt =>
      match steps[i]? with
      | some step => S.stepEnds steps strategy i step attempt outcome
      | none => S
    | _ => S
  | .sleepEnds =>
    match S.executor with
    | .sleeping i attempt =>
      match steps[i]? with
      | some step => S.attemptStep steps strategy i step (attempt + 1)
      | none => S
    | _ => S
  | .abort => if S.aborter = .ready then S.startAbort steps strategy else S
  | .taskStarts p =>
    match strategy, (S.rollback p).waiting with
    | .parallel, i :: rest => S.begin p i rest
    | _, _ => S
  | .compensationEnds p i outcome =>
    if i ∈ (S.rollback p).running then S.compensationEnds strategy p i outcome else S
  | .gathered p =>
    if strategy = .parallel ∧ S.isCompensating p = true ∧ (S.rollback p).waiting = [] ∧
      (S.rollback p).running = [] then S.finish p
    else S

def run (events : List Event) : Saga := Machine.run (step steps strategy) {} events

end Saga

end EnhancedAgentBus.Verification.SagaCoordinator
