import EnhancedAgentBus.Lib.Async

/-!
# The saga of the deliberation layer

`ConstitutionalSagaWorkflow.execute`, over the operations that its steps await.  The compensation of
a step is registered before its first attempt; a step that fails and is not optional ends the steps,
and then the compensations run, the latest first.

An exception is known by who handles it.  A step or a compensation is attempted again after one of
`_CONSTITUTIONAL_SAGA_OPERATION_ERRORS`; any other leaves the saga where it stands.  So no exception
reaches the outer handler of `execute`, which is left out, and so are the times, the messages and the
persistence provider, which the sagas here do not have.
-/

namespace EnhancedAgentBus.Deliberation

open Async

/-- An exception, by who handles it.  `timeout` is the one of `wait_for`, which cancels what the step
awaits; `requestError` is the one of the HTTP client. -/
inductive Raised where
  | runtimeError
  | valueError
  | lookupError
  | osError
  | timeout
  | requestError
  | other
  deriving DecidableEq

/-- One of `_CONSTITUTIONAL_SAGA_OPERATION_ERRORS`. -/
def Raised.isOperational : Raised → Bool
  | runtimeError | valueError | lookupError | osError | timeout => true
  | requestError | other => false

/-- `SagaStatus`, of a saga that has ended. -/
inductive SagaStatus where
  | completed
  | compensated
  | partiallyCompensated
  deriving DecidableEq

variable {Op : Type} {Resp : Op → Type} {κ α : Type}

structure SagaCompensation (Op : Type) (Resp : Op → Type) (κ : Type) where
  name : String
  execute : κ → Prog Op Resp Raised Bool
  maxRetries : ℕ := 3

/-- `SagaStep`.  It returns the context with its result. -/
structure SagaStep (Op : Type) (Resp : Op → Type) (κ : Type) where
  name : String
  execute : κ → Prog Op Resp Raised κ
  compensation : SagaCompensation Op Resp κ
  maxRetries : ℕ := 3
  isOptional : Bool := false

structure SagaResult (κ : Type) where
  status : SagaStatus
  completedSteps : List String
  failedStep : Option String
  compensatedSteps : List String
  failedCompensations : List String
  context : κ

/-- The saga while its steps run.  The compensations are kept latest first. -/
structure SagaRun (Op : Type) (Resp : Op → Type) (κ : Type) where
  context : κ
  compensations : List (SagaCompensation Op Resp κ) := []
  completedSteps : List String := []
  failedStep : Option String := none

def attempts (run : Prog Op Resp Raised α) : ℕ → Prog Op Resp Raised (Option α)
  | 0 => pure none
  | n + 1 => do
    match ← run.attempt with
    | .ok result => pure (some result)
    | .error e => if e.isOperational then attempts run n else .raise e

def executeSteps :
    List (SagaStep Op Resp κ) → SagaRun Op Resp κ → Prog Op Resp Raised (SagaRun Op Resp κ)
  | [], run => pure run
  | step :: rest, run => do
    let run := { run with compensations := step.compensation :: run.compensations }
    match ← attempts (step.execute run.context) step.maxRetries with
    | some context =>
      executeSteps rest
        { run with context := context, completedSteps := run.completedSteps ++ [step.name] }
    | none =>
      if step.isOptional then executeSteps rest run
      else pure { run with failedStep := some step.name }

/-- The attempts of a compensation, which succeed once it returns `True`. -/
def executeCompensation (run : Prog Op Resp Raised Bool) : ℕ → Prog Op Resp Raised Bool
  | 0 => pure false
  | n + 1 => do
    match ← run.attempt with
    | .ok true => pure true
    | .ok false => executeCompensation run n
    | .error e => if e.isOperational then executeCompensation run n else .raise e

/-- `_run_compensations`: the compensated steps, and the failed compensations. -/
def runCompensations (context : κ) :
    List (SagaCompensation Op Resp κ) → Prog Op Resp Raised (List String × List String)
  | [] => pure ([], [])
  | compensation :: rest => do
    let success ←
      executeCompensation (compensation.execute context) compensation.maxRetries
    let (compensated, failed) ← runCompensations context rest
    pure (if success then (compensation.name :: compensated, failed)
      else (compensated, compensation.name :: failed))

def execute (steps : List (SagaStep Op Resp κ)) (context : κ) :
    Prog Op Resp Raised (SagaResult κ) := do
  let run ← executeSteps steps { context := context }
  match run.failedStep with
  | none =>
    pure
      { status := .completed
        completedSteps := run.completedSteps
        failedStep := none
        compensatedSteps := []
        failedCompensations := []
        context := run.context }
  | some failed =>
    let (compensated, failedCompensations) ← runCompensations run.context run.compensations
    pure
      { status := if failedCompensations.isEmpty then .compensated else .partiallyCompensated
        completedSteps := run.completedSteps
        failedStep := some failed
        compensatedSteps := compensated
        failedCompensations := failedCompensations
        context := run.context }

/-! ## Rules -/

section Rules

variable {σ : Type} {step : σ → (o : Op) → Resp o → σ → Prop} {pre : σ → Op → Prop}
variable {s : σ} {I : σ → Prop} {E : Raised → σ → Prop}

theorem safe_attempts {run : Prog Op Resp Raised α} {Q : α → σ → Prop}
    (hrun : ∀ s, I s → Safe step pre run s Q fun e s' =>
      if e.isOperational then I s' else E e s') (hs : I s) (n : ℕ) :
    Safe step pre (attempts run n) s (fun result s' => match result with
      | some a => Q a s'
      | none => I s') E := by
  induction n generalizing s with
  | zero => exact hs
  | succ n ih =>
    rw [attempts, safe_bind, safe_attempt]
    refine (hrun s hs).mono (fun a t ha => ha) fun e t he => ?_
    dsimp only at he ⊢
    by_cases hop : e.isOperational = true
    · rw [if_pos hop] at he ⊢
      exact ih he
    · rw [if_neg hop] at he ⊢
      exact he

theorem safe_executeSteps_cons {first : SagaStep Op Resp κ} {rest : List (SagaStep Op Resp κ)}
    {run : SagaRun Op Resp κ} {Q : SagaRun Op Resp κ → σ → Prop}
    (h : Safe step pre (attempts (first.execute run.context) first.maxRetries) s
      (fun result t => match result with
        | some context =>
          Safe step pre (executeSteps rest
            { run with
              compensations := first.compensation :: run.compensations
              context := context
              completedSteps := run.completedSteps ++ [first.name] }) t Q E
        | none =>
          if first.isOptional then
            Safe step pre (executeSteps rest
              { run with compensations := first.compensation :: run.compensations }) t Q E
          else
            Q { run with
                compensations := first.compensation :: run.compensations
                failedStep := some first.name } t)
      E) :
    Safe step pre (executeSteps (first :: rest) run) s Q E := by
  rw [executeSteps, safe_bind]
  refine h.mono (fun result t ht => ?_) fun _ _ he => he
  cases result with
  | some context => exact ht
  | none =>
    dsimp only at ht ⊢
    by_cases hoptional : first.isOptional = true
    · rw [if_pos hoptional] at ht ⊢
      exact ht
    · rw [if_neg hoptional] at ht ⊢
      exact ht

theorem safe_trivial (p : Prog Op Resp Raised α) :
    Safe step (fun _ _ => True) p s (fun _ _ => True) fun _ _ => True := by
  induction p generalizing s with
  | done a => trivial
  | raise e => trivial
  | await o k ih => exact ⟨trivial, fun r s' _ => ih r⟩

/-- A step that returns under no circumstances. -/
def NeverReturns (step : σ → (o : Op) → Resp o → σ → Prop) (p : Prog Op Resp Raised α) : Prop :=
  ∀ s, Safe step (fun _ _ => True) p s (fun _ _ => False) fun _ _ => True

theorem NeverReturns.attempts {run : Prog Op Resp Raised α} (h : NeverReturns step run) (n : ℕ) :
    Safe step (fun _ _ => True) (attempts run n) s (fun result _ => result = none)
      fun _ _ => True := by
  have hrun : ∀ s, True → Safe step (fun _ _ => True) run s (fun _ _ => False) fun e s' =>
      if e.isOperational then True else True := by
    intro s _
    refine (h s).mono (fun _ _ hfalse => hfalse) fun e _ _ => ?_
    rw [ite_self]
    trivial
  refine (safe_attempts hrun trivial n).mono (fun result _ hresult => ?_) fun _ _ _ => trivial
  rcases result with _ | a
  · rfl
  · exact hresult.elim

theorem safe_executeSteps_failed {steps : List (SagaStep Op Resp κ)}
    (h : ∃ st ∈ steps, st.isOptional = false ∧ ∀ context, NeverReturns step (st.execute context))
    (run : SagaRun Op Resp κ) :
    Safe step (fun _ _ => True) (executeSteps steps run) s (fun run' _ => run'.failedStep ≠ none)
      fun _ _ => True := by
  induction steps generalizing s run with
  | nil =>
    obtain ⟨st, hst, -⟩ := h
    cases hst
  | cons first rest ih =>
    obtain ⟨st, hst, hmandatory, hnever⟩ := h
    refine safe_executeSteps_cons ?_
    rcases List.mem_cons.mp hst with rfl | hst
    · refine ((hnever _).attempts _).mono (fun result t hresult => ?_) fun _ _ _ => trivial
      subst hresult
      dsimp only
      rw [hmandatory, if_neg Bool.false_ne_true]
      exact Option.some_ne_none _
    · refine (safe_trivial _).mono (fun result t _ => ?_) fun _ _ _ => trivial
      cases result with
      | some context => exact ih ⟨st, hst, hmandatory, hnever⟩ _
      | none =>
        dsimp only
        by_cases hoptional : first.isOptional = true
        · rw [if_pos hoptional]
          exact ih ⟨st, hst, hmandatory, hnever⟩ _
        · rw [if_neg hoptional]
          exact Option.some_ne_none _

theorem safe_executeCompensation {run : Prog Op Resp Raised Bool} {Q : σ → Prop}
    (hrun : ∀ s, I s → Safe step pre run s (fun done s' => if done then Q s' else I s')
      fun e s' => if e.isOperational then I s' else E e s') (hs : I s) (n : ℕ) :
    Safe step pre (executeCompensation run n) s (fun done s' => if done then Q s' else I s') E := by
  induction n generalizing s with
  | zero => exact hs
  | succ n ih =>
    rw [executeCompensation, safe_bind, safe_attempt]
    refine (hrun s hs).mono (fun done t ht => ?_) fun e t he => ?_
    · cases done with
      | true => exact ht
      | false => exact ih ht
    · dsimp only at he ⊢
      by_cases hop : e.isOperational = true
      · rw [if_pos hop] at he ⊢
        exact ih he
      · rw [if_neg hop] at he ⊢
        exact he

theorem safe_executeCompensation_succ {run : Prog Op Resp Raised Bool} {Q : σ → Prop}
    (hrun : Safe step pre run s (fun done s' => done = true ∧ Q s') fun _ _ => False) (n : ℕ) :
    Safe step pre (executeCompensation run (n + 1)) s (fun done s' => done = true ∧ Q s') E := by
  rw [executeCompensation, safe_bind, safe_attempt]
  refine hrun.mono (fun done t ht => ?_) fun _ _ hfalse => hfalse.elim
  obtain ⟨rfl, ht⟩ := ht
  exact ⟨rfl, ht⟩

theorem safe_runCompensations_cons {context : κ} {compensation : SagaCompensation Op Resp κ}
    {rest : List (SagaCompensation Op Resp κ)} {Q : σ → Prop}
    (h : Safe step pre
      (executeCompensation (compensation.execute context) compensation.maxRetries) s
      (fun _ t => Safe step pre (runCompensations context rest) t (fun _ => Q) E) E) :
    Safe step pre (runCompensations context (compensation :: rest)) s (fun _ => Q) E := by
  rw [runCompensations, safe_bind]
  refine h.mono (fun done t ht => ?_) fun _ _ he => he
  rw [safe_bind]
  exact ht.mono (fun _ _ hq => hq) fun _ _ he => he

/-- Where the steps have to lead: to a completed saga, or to compensations that undo them. -/
def Concludes (step : σ → (o : Op) → Resp o → σ → Prop) (pre : σ → Op → Prop)
    (Q : SagaResult κ → σ → Prop) (R : σ → Prop) (E : Raised → σ → Prop) (run : SagaRun Op Resp κ)
    (t : σ) : Prop :=
  match run.failedStep with
  | none => ∀ result, result.status = .completed → result.context = run.context → Q result t
  | some _ => Safe step pre (runCompensations run.context run.compensations) t (fun _ => R) E

theorem safe_execute {steps : List (SagaStep Op Resp κ)} {context : κ}
    {Q : SagaResult κ → σ → Prop} {R : σ → Prop}
    (hsteps : Safe step pre (executeSteps steps { context := context }) s
      (Concludes step pre Q R E) E)
    (hfailed : ∀ result t, result.status ≠ .completed → R t → Q result t) :
    Safe step pre (execute steps context) s Q E := by
  rw [execute, safe_bind]
  refine hsteps.mono (fun run t hrun => ?_) fun _ _ he => he
  unfold Concludes at hrun
  rcases hstep : run.failedStep with _ | failed
  · rw [hstep] at hrun
    exact hrun _ rfl rfl
  · rw [hstep] at hrun
    dsimp only
    rw [safe_bind]
    refine Safe.mono hrun (fun names u hu => ?_) fun _ _ he => he
    refine hfailed _ u ?_ hu
    dsimp only
    by_cases hnone : names.2.isEmpty = true
    · rw [if_pos hnone]
      nofun
    · rw [if_neg hnone]
      nofun

theorem safe_execute_not_completed {steps : List (SagaStep Op Resp κ)}
    (h : ∃ st ∈ steps, st.isOptional = false ∧ ∀ context, NeverReturns step (st.execute context))
    (context : κ) :
    Safe step (fun _ _ => True) (execute steps context) s
      (fun result _ => result.status ≠ .completed) fun _ _ => True := by
  have hsteps := safe_executeSteps_failed (s := s) h { context := context }
  refine safe_execute (hsteps.mono (fun run t hrun => ?_) fun _ _ _ => trivial)
    fun result t hstatus (_ : True) => hstatus
  unfold Concludes
  rcases hfailed : run.failedStep with _ | failed
  · exact absurd hfailed hrun
  · exact safe_trivial _

end Rules

end EnhancedAgentBus.Deliberation
