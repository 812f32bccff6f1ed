import EnhancedAgentBus.Lib.Machine
import Mathlib.Algebra.Order.Ring.Rat
import Mathlib.Data.List.Count

/-!
# The circuit breaker of a service

`ServiceCircuitBreaker` and the calls that `with_service_circuit_breaker` puts through it.  A
wrapped call takes the breaker's lock twice, once to ask and once to report, and any number of other
calls come in between: each of the two is a step, and so is a cancellation in between.

A *period* is a stretch in one state: `metrics.state_changes` tells one from the next.  The world
keeps what happened in a log, and the discipline is said of the log (`Disciplined`).  The breaker
keeps its two counters only, and does not ask of a result in which period its call was admitted.

Left out are the fallbacks of a rejected call, and the metrics that nothing reads.
-/

namespace EnhancedAgentBus.CircuitBreaker

universe u

abbrev Seconds := ℚ

/-! ## The breaker -/

inductive CircuitState where
  | closed
  | opened
  | halfOpen
  deriving DecidableEq

structure ServiceCircuitConfig where
  failureThreshold : ℤ
  timeoutSeconds : Seconds
  halfOpenRequests : ℤ := 3

structure ServiceCircuitBreaker where
  state : CircuitState := .closed
  consecutiveFailures : ℕ := 0
  lastStateChange : Seconds
  halfOpenSuccesses : ℕ := 0
  /-- `metrics.state_changes` -/
  stateChanges : ℕ := 0

namespace ServiceCircuitBreaker

variable (cfg : ServiceCircuitConfig) (b : ServiceCircuitBreaker) (now : Seconds)

def transitionTo (newState : CircuitState) : ServiceCircuitBreaker where
  state := newState
  consecutiveFailures := if newState = .closed then 0 else b.consecutiveFailures
  lastStateChange := now
  halfOpenSuccesses := if newState = .halfOpen then 0 else b.halfOpenSuccesses
  stateChanges := b.stateChanges + 1

def checkTimeoutExpiry : Bool :=
  b.state = .opened && cfg.timeoutSeconds ≤ now - b.lastStateChange

def canExecute : Bool × ServiceCircuitBreaker :=
  match b.state with
  | .closed => (true, b)
  | .opened =>
    if b.checkTimeoutExpiry cfg now then (true, b.transitionTo now .halfOpen) else (false, b)
  | .halfOpen => (b.halfOpenSuccesses < cfg.halfOpenRequests, b)

def recordSuccess : ServiceCircuitBreaker :=
  match b.state with
  | .halfOpen =>
    let b := { b with halfOpenSuccesses := b.halfOpenSuccesses + 1 }
    if cfg.halfOpenRequests ≤ b.halfOpenSuccesses then b.transitionTo now .closed else b
  | .closed => { b with consecutiveFailures := 0 }
  | .opened => b

def recordFailure : ServiceCircuitBreaker :=
  let b := { b with consecutiveFailures := b.consecutiveFailures + 1 }
  match b.state with
  | .halfOpen => b.transitionTo now .opened
  | .closed =>
    if cfg.failureThreshold ≤ b.consecutiveFailures then b.transitionTo now .opened else b
  | .opened => b

def record (success : Bool) : ServiceCircuitBreaker :=
  if success then b.recordSuccess cfg now else b.recordFailure cfg now

end ServiceCircuitBreaker

/-! ## The calls -/

section Calls

variable {ι : Type u} [DecidableEq ι]

inductive Event (ι : Type u) where
  /-- `can_execute` -/
  | ask (call : ι)
  /-- `record_success` or `record_failure` -/
  | report (call : ι) (success : Bool)
  /-- A cancelled call reports nothing. -/
  | cancel (call : ι)

inductive Entry where
  | admitted (period : ℕ)
  | reported (success : Bool) (admittedIn reportedIn : ℕ)
  deriving DecidableEq

/-- The breaker, the calls that are being run, each with the period in which it was admitted, and
what happened, the latest first. -/
structure World (ι : Type u) where
  breaker : ServiceCircuitBreaker
  running : ι → Option ℕ := fun _ => none
  log : List Entry := []

def World.period (w : World ι) : ℕ := w.breaker.stateChanges

def step (cfg : ServiceCircuitConfig) (w : World ι) : Seconds × Event ι → World ι
  | (now, .ask call) =>
    match w.running call with
    | some _ => w
    | none =>
      let (admitted, b) := w.breaker.canExecute cfg now
      if admitted then
        { breaker := b
          running := Function.update w.running call (some b.stateChanges)
          log := .admitted b.stateChanges :: w.log }
      else { w with breaker := b }
  | (now, .report call success) =>
    match w.running call with
    | none => w
    | some period =>
      { breaker := w.breaker.record cfg now success
        running := Function.update w.running call none
        log := .reported success period w.period :: w.log }
  | (_, .cancel call) => { w with running := Function.update w.running call none }

end Calls

/-! ## What the log says -/

def admissions (period : ℕ) (log : List Entry) : ℕ := log.countP (· = .admitted period)

def successes (period : ℕ) (log : List Entry) : ℕ :=
  log.countP fun
    | .reported true admittedIn _ => admittedIn = period
    | _ => false

def streak (period : ℕ) : List Entry → ℕ
  | [] => 0
  | .admitted _ :: rest => streak period rest
  | .reported success _ reportedIn :: rest =>
    if success = false ∧ reportedIn = period then streak period rest + 1 else 0

inductive View where
  | closed (failures : ℕ)
  | opened (since : Seconds)
  | halfOpen (successes : ℕ)

def ServiceCircuitBreaker.view (b : ServiceCircuitBreaker) : View :=
  match b.state with
  | .closed => .closed b.consecutiveFailures
  | .opened => .opened b.lastStateChange
  | .halfOpen => .halfOpen b.halfOpenSuccesses

section Discipline

variable {ι : Type u} [DecidableEq ι]

structure Disciplined (cfg : ServiceCircuitConfig) (w : World ι) (e : Seconds × Event ι) :
    Prop where
  /-- A half-open circuit has admitted `half_open_requests` calls at most. -/
  admits : (step cfg w e).breaker.state = .halfOpen →
    admissions (step cfg w e).period (step cfg w e).log ≤ cfg.halfOpenRequests
  /-- It closes only after `half_open_requests` of them have succeeded. -/
  closes : w.breaker.state = .halfOpen → (step cfg w e).breaker.state = .closed →
    cfg.halfOpenRequests ≤ successes w.period (step cfg w e).log
  /-- A closed circuit opens exactly at the failure that makes `failure_threshold` in a row. -/
  opens : w.breaker.state = .closed → ((step cfg w e).breaker.state = .opened ↔
    (∃ call period, e.2 = .report call false ∧ w.running call = some period) ∧
      cfg.failureThreshold ≤ streak w.period (step cfg w e).log)
  /-- The result of a call that was admitted in an earlier state changes nothing. -/
  stale : ∀ call success period, e.2 = .report call success → w.running call = some period →
    period ≠ w.period → (step cfg w e).breaker.view = w.breaker.view

structure Careful (cfg : ServiceCircuitConfig) (w : World ι) (e : Seconds × Event ι) : Prop where
  /-- A circuit that is to try its service is to admit a call at least. -/
  tries : ∀ call, e.2 = .ask call → w.running call = none →
    w.breaker.checkTimeoutExpiry cfg e.1 → 1 ≤ cfg.halfOpenRequests
  /-- No call asks a half-open circuit that has admitted its calls and waits for their results. -/
  asks : ∀ call, e.2 = .ask call → w.running call = none → w.breaker.state = .halfOpen →
    w.breaker.halfOpenSuccesses < cfg.halfOpenRequests →
    admissions w.period w.log < cfg.halfOpenRequests
  /-- The result of a call that was admitted in an earlier state comes while the circuit is open, or
  it is a success while no failure is counted. -/
  stale : ∀ call success period, e.2 = .report call success → w.running call = some period →
    period ≠ w.period → w.breaker.state = .opened ∨
      w.breaker.state = .closed ∧ success = true ∧ w.breaker.consecutiveFailures = 0

end Discipline

end EnhancedAgentBus.CircuitBreaker
