import EnhancedAgentBus.Persistence.Calls

/-!
# The order in which a call does things

`Discipline` says what one execution may do to the others.  A run of calls one after another
needs the opposite view: what a call does *in which order*, since nobody else changes the world
meanwhile.

`Book` is what an execution's own operations tell about where it is: the step row it has in
hand and the result of its activity, the handlers it has bound, the compensations it has left.
`Book.note` is how one operation changes it, and `Legal` what may come next.  It is an automaton
that reads the operations of a call; `Call.legal` says that every call of the executor is one of
the words it accepts.

### What is load-bearing

`Legal` never mentions the world.  What an operation *means* for the tables is decided by
whoever follows the world along with the book (`Serial.conduct`), and each invariant does so
with the few fields it needs.
-/

namespace EnhancedAgentBus.Persistence

open Async Async.Prog DurableWorkflowExecutor

structure WorkflowCompensation.SameRecord (a b : WorkflowCompensation) : Prop where
  id : a.id = b.id
  workflowInstanceId : a.workflowInstanceId = b.workflowInstanceId
  stepId : a.stepId = b.stepId
  compensationName : a.compensationName = b.compensationName
  createdAt : a.createdAt = b.createdAt

theorem WorkflowCompensation.SameRecord.refl (a : WorkflowCompensation) : a.SameRecord a :=
  ⟨rfl, rfl, rfl, rfl, rfl⟩

/-! ## The book -/

/-- What an execution's own operations tell about where it is. -/
structure Book where
  /-- the instance it runs -/
  run : Option UUID := none
  /-- the status it persisted last -/
  phase : Option WorkflowStatus := none
  /-- the handlers it has bound, latest first -/
  handlers : List (String × Callable) := []
  /-- the identifier it drew and has not used -/
  fresh : Option UUID := none
  /-- the time it read last -/
  time : Option ℕ := none
  /-- the key under which it found no completed row -/
  missed : Option String := none
  /-- the step row it has in hand, as saved -/
  step : Option WorkflowStep := none
  /-- the result of the step's activity -/
  result : Option Json := none
  /-- the completed row it read or saved last -/
  completed : Option WorkflowStep := none
  /-- the compensation whose handler it has just bound -/
  bound : Option WorkflowCompensation := none
  /-- the pending compensations it has left, in the order it takes them -/
  remaining : Option (List WorkflowCompensation) := none
  /-- the compensation it has in hand, as saved -/
  comp : Option WorkflowCompensation := none
  /-- whether it has called the handler of that compensation -/
  called : Bool := false

def pendingOf (comps : List WorkflowCompensation) : List WorkflowCompensation :=
  comps.filter (·.status = .pending)

def Book.note (bk : Book) : (o : Op) → o.Resp → Book
  | .uuid4 _, u => { bk with fresh := some u }
  | .now, t => { bk with time := some t }
  | .saveWorkflow inst set, .ok _ =>
    match set.status with
    | .pending | .cancelled => {}
    | .running => { run := some inst.id, phase := some .running }
    | status =>
      { bk with phase := some status, step := none, result := none, remaining := none }
  | .getStepByIdempotencyKey _ key, found =>
    match found.filter (·.status = .completed) with
    | some row => { bk with completed := some row }
    | none => { bk with missed := some key }
  | .saveStep step, _ =>
    { bk with
      fresh := none
      missed := none
      step := some step
      result := none
      completed := if step.status = .completed then some step else bk.completed }
  | .callActivity _ _ _ _, .ok result => { bk with result := some result }
  | .bindHandler comp handler, _ =>
    { bk with
      handlers := (comp.compensationName, handler) :: bk.handlers
      bound := some comp }
  | .saveCompensation comp, _ =>
    match comp.status with
    | .pending => { bk with fresh := none, time := none, bound := none }
    | .compensating =>
      { bk with remaining := bk.remaining.map List.tail, comp := some comp, called := false }
    | _ => { bk with comp := none }
  | .getCompensationsReversed _, comps => { bk with remaining := some (pendingOf comps) }
  | .callHandler _ _ _, _ => { bk with called := true }
  | _, _ => bk

/-! ## What may come next -/

structure Registers (bk : Book) (comp : WorkflowCompensation) : Prop where
  phase : bk.phase = some .running
  run : bk.run = some comp.workflowInstanceId
  pending : comp.status = .pending
  fresh : bk.fresh = some comp.id
  time : bk.time = some comp.createdAt
  step : ∃ step, bk.step = some step ∧ step.id = comp.stepId

/-- An update of the step in hand: it is not completed yet, and completes with the result of its
activity. -/
structure Updates (bk : Book) (cur step : WorkflowStep) : Prop where
  hand : bk.step = some cur
  id : step.id = cur.id
  workflowInstanceId : step.workflowInstanceId = cur.workflowInstanceId
  idempotencyKey : step.idempotencyKey = cur.idempotencyKey
  unfinished : cur.status ≠ .completed
  result : step.status = .completed →
    ∃ result, bk.result = some result ∧ step.output = .obj (coerceJsonDict result)

/-- The end of the compensation in hand: its handler was called, or there is none under its
name. -/
structure Settles (bk : Book) (comp : WorkflowCompensation) : Prop where
  phase : bk.phase = some .compensating
  hand : ∃ cur, bk.comp = some cur ∧ comp.SameRecord cur
  called : bk.called = true ∨
    (comp.status = .compensated ∧ bk.handlers.lookup comp.compensationName = none)

/-- **What may come next.** -/
def Legal (bk : Book) : Op → Prop
  | .saveWorkflow inst set =>
    match set.status with
    | .pending | .cancelled | .running => True
    | .completed | .compensating => bk.run = some inst.id ∧ bk.phase = some .running
    | .compensated =>
      bk.run = some inst.id ∧ bk.phase = some .compensating ∧ bk.remaining = some []
    | .failed => bk.run = some inst.id ∧ bk.phase = some .compensated
  | .getStepByIdempotencyKey i _ => bk.run = some i
  | .saveStep step =>
    bk.run = some step.workflowInstanceId ∧ bk.phase = some .running ∧
      ∃ key, step.idempotencyKey = some key ∧
        ((step.status = .pending ∧ bk.fresh = some step.id ∧ bk.missed = some key) ∨
          ∃ cur, Updates bk cur step)
  | .setStepResult caller _ key value =>
    bk.run = some caller ∧ ∃ row, bk.completed = some row ∧ row.status = .completed ∧
      row.workflowInstanceId = caller ∧ row.idempotencyKey = some key ∧ row.output = .obj value
  | .callActivity i key _ _ =>
    bk.run = some i ∧ bk.phase = some .running ∧ ∃ cur, bk.step = some cur ∧
      cur.workflowInstanceId = i ∧ cur.idempotencyKey = some key ∧ cur.status ≠ .completed
  | .bindHandler comp _ => Registers bk comp
  | .getCompensationsReversed i => bk.run = some i ∧ bk.phase = some .compensating
  | .saveCompensation comp =>
    match comp.status with
    | .pending => Registers bk comp ∧ bk.bound = some comp
    | .compensating =>
      bk.phase = some .compensating ∧ bk.run = some comp.workflowInstanceId ∧
        ∃ rest, bk.remaining = some ({ comp with status := .pending } :: rest)
    | _ => Settles bk comp
  | .callHandler comp handler _ =>
    bk.phase = some .compensating ∧ bk.run = some comp.workflowInstanceId ∧
      bk.comp = some comp ∧ bk.handlers.lookup comp.compensationName = some handler ∧
      bk.called = false
  | _ => True

def Expected : (o : Op) → o.Resp → Prop
  | .saveWorkflow _ _, .error e => e.kind = .other
  | .saveEvent _, .error e => e.kind = .other
  | .getStepByIdempotencyKey i key, some row =>
    row.workflowInstanceId = i ∧ row.idempotencyKey = some key
  | .getCompensationsReversed i, comps => ∀ comp ∈ comps, comp.workflowInstanceId = i
  | _, _ => True

def BookStep (bk : Book) (o : Op) (r : o.Resp) (bk' : Book) : Prop :=
  Expected o r ∧ bk' = bk.note o r

/-- A program that does things in the order the book allows. -/
abbrev Orderly {α : Type} (p : Code α) (bk : Book) (Q : α → Book → Prop)
    (E : PyExc → Book → Prop) : Prop :=
  Safe BookStep Legal p bk Q E

/-- An execution in its workflow function: the book knows the instance and the handlers. -/
structure Running (bk : Book) (ctx : WorkflowContext) : Prop where
  run : bk.run = some ctx.workflowInstance.id
  phase : bk.phase = some .running
  handlers : bk.handlers = ctx.compensationHandlers

/-- An execution with a step in hand that is not completed. -/
structure InStep (bk : Book) (ctx : WorkflowContext) (key : String) (step : WorkflowStep) :
    Prop extends Running bk ctx where
  hand : bk.step = some step
  workflowInstanceId : step.workflowInstanceId = ctx.workflowInstance.id
  idempotencyKey : step.idempotencyKey = some key
  unfinished : step.status ≠ .completed

/-- An execution that compensates, with some records left to look at. -/
structure Compensating (bk : Book) (ctx : WorkflowContext) (rest : List WorkflowCompensation) :
    Prop where
  run : bk.run = some ctx.workflowInstance.id
  phase : bk.phase = some .compensating
  handlers : bk.handlers = ctx.compensationHandlers
  remaining : bk.remaining = some (pendingOf rest)
  own : ∀ comp ∈ rest, comp.workflowInstanceId = ctx.workflowInstance.id

/-! ## One lemma per function -/

section Functions

variable {bk : Book} {ctx : WorkflowContext} {key : String} {step : WorkflowStep}

theorem orRaise_orderly {α : Type} {r : Except PyExc α}
    (h : ∀ e, r = .error e → e.kind = .other) :
    Orderly (orRaise r) bk (fun _ bk' => bk' = bk) (fun e bk' => bk' = bk ∧ e.kind = .other) := by
  cases r with
  | ok a => simp [orRaise]
  | error e => simpa [orRaise] using h e rfl

theorem recordEvent_orderly {i : UUID} {ty : EventType} {data : JSONDict} :
    Orderly (recordEvent i ty data) bk (fun _ bk' => bk' = bk)
      (fun e bk' => bk' = bk ∧ e.kind = .other) := by
  simp only [Orderly, recordEvent, safe_bind, safe_perform]
  refine ⟨trivial, ?_⟩
  rintro n _ ⟨_, rfl⟩
  refine ⟨trivial, ?_⟩
  rintro r _ ⟨hr, rfl⟩
  refine orRaise_orderly ?_
  rintro e rfl
  exact hr

theorem assignAndSave_orderly {saved : WorkflowInstance} {set : Assigned}
    (hset : Legal bk (.saveWorkflow saved set)) :
    Orderly (assignAndSave saved set) bk
      (fun y bk' => y = saved.assign set ∧ bk' = bk.note (.saveWorkflow saved set) (.ok ()))
      (fun e bk' => bk' = bk ∧ e.kind = .other) := by
  simp only [Orderly, assignAndSave, safe_bind, safe_perform, safe_pure]
  refine ⟨hset, ?_⟩
  rintro r _ ⟨hr, rfl⟩
  cases r with
  | ok _ => exact ⟨trivial, rfl⟩
  | error e => exact ⟨rfl, hr⟩

/-! ### Activities -/

theorem getCachedStepResult_orderly (h : Running bk ctx) :
    Orderly (getCachedStepResult ctx key) bk
      (fun found bk' => Running bk' ctx ∧ (found = none → bk'.missed = some key))
      (fun _ _ => False) := by
  simp only [Orderly, getCachedStepResult, safe_bind, safe_perform]
  refine ⟨trivial, ?_⟩
  rintro cached bk ⟨_, rfl⟩
  cases cached.filter (· ≠ []) with
  | some members => exact ⟨h, by simp⟩
  | none =>
    simp only [safe_bind, safe_perform]
    refine ⟨h.run, ?_⟩
    rintro existing _ ⟨hrow, rfl⟩
    rcases hex : existing.filter (·.status = .completed) with _ | row
    · simpa [Book.note, hex] using ⟨h.run, h.phase, h.handlers⟩
    · obtain ⟨rfl, hdone⟩ := Option.filter_eq_some_iff.mp hex
      have hrun : Running { bk with completed := some row } ctx := ⟨h.run, h.phase, h.handlers⟩
      cases hout : row.output with
      | obj d =>
        simp only [hout, safe_bind, safe_perform, safe_pure, Book.note, hex]
        refine ⟨⟨h.run, row, rfl, by simpa using hdone, hrow.1, hrow.2, hout⟩, ?_⟩
        rintro _ _ ⟨_, rfl⟩
        exact ⟨hrun, by simp⟩
      | _ => simpa [hout, Book.note, hex] using hrun

theorem registerFor_orderly {call : ActivityCall} (h : InStep bk ctx key step) :
    Orderly (registerFor ctx call step) bk
      (fun ctx' bk' => ctx'.workflowInstance = ctx.workflowInstance ∧ InStep bk' ctx' key step)
      (fun _ _ => False) := by
  rcases hcomp : call.compensation with _ | handler
  · simpa [Orderly, registerFor, hcomp] using h
  · simp only [Orderly, registerFor, hcomp, WorkflowContext.registerCompensation, safe_bind,
      safe_perform, safe_pure]
    refine ⟨trivial, ?_⟩
    rintro id _ ⟨_, rfl⟩
    refine ⟨trivial, ?_⟩
    rintro t _ ⟨_, rfl⟩
    refine ⟨⟨h.phase, h.run, rfl, rfl, rfl, step, h.hand, rfl⟩, ?_⟩
    rintro _ _ ⟨_, rfl⟩
    refine ⟨⟨⟨h.phase, h.run, rfl, rfl, rfl, step, h.hand, rfl⟩, rfl⟩, ?_⟩
    rintro _ _ ⟨_, rfl⟩
    exact ⟨trivial, ⟨h.run, h.phase, by simp [Book.note, h.handlers]⟩, h.hand,
      h.workflowInstanceId, h.idempotencyKey, h.unfinished⟩

theorem InStep.saved (h : InStep bk ctx key step) (step' : WorkflowStep)
    (hid : step'.id = step.id) (hinst : step'.workflowInstanceId = step.workflowInstanceId)
    (hkey : step'.idempotencyKey = step.idempotencyKey) (hopen : step'.status ≠ .completed) :
    Legal bk (.saveStep step') ∧ InStep (bk.note (.saveStep step') ()) ctx key step' := by
  refine ⟨⟨?_, h.phase, key, hkey.trans h.idempotencyKey, .inr ⟨step, h.hand, hid, hinst, hkey,
    h.unfinished, fun hdone => absurd hdone hopen⟩⟩, ?_⟩
  · rw [hinst, h.workflowInstanceId, h.run]
  · exact ⟨⟨h.run, h.phase, h.handlers⟩, rfl, hinst.trans h.workflowInstanceId,
      hkey.trans h.idempotencyKey, hopen⟩

theorem completeStep_orderly {stepName : String} {result : Json} (h : InStep bk ctx key step)
    (hresult : bk.result = some result) :
    Orderly (completeStep ctx step stepName result key) bk (fun _ bk' => Running bk' ctx)
      (fun e bk' => Running bk' ctx ∧ e.kind = .other) := by
  simp only [Orderly, completeStep, safe_bind, safe_perform]
  refine ⟨⟨?_, h.phase, key, h.idempotencyKey, .inr ⟨step, h.hand, rfl, rfl, rfl, h.unfinished,
    fun _ => ⟨result, hresult, rfl⟩⟩⟩, ?_⟩
  · exact h.run.trans (congrArg some h.workflowInstanceId.symm)
  rintro _ _ ⟨_, rfl⟩
  refine ⟨⟨h.run, completedStep step result, rfl, rfl, h.workflowInstanceId, h.idempotencyKey,
    rfl⟩, ?_⟩
  rintro _ _ ⟨_, rfl⟩
  have hrun : Running (bk.note (.saveStep (completedStep step result)) ()) ctx :=
    ⟨h.run, h.phase, h.handlers⟩
  refine recordEvent_orderly.mono ?_ ?_
  · rintro _ _ rfl
    exact hrun
  · rintro e _ ⟨rfl, he⟩
    exact ⟨hrun, he⟩

theorem failStep_orderly {stepName : String} {e : PyExc} (h : InStep bk ctx key step) :
    Orderly (failStep ctx step stepName e) bk (fun _ bk' => Running bk' ctx)
      (fun _ bk' => Running bk' ctx) := by
  obtain ⟨hlegal, hnext⟩ :=
    h.saved { step with status := .failed, error := some e.text } rfl rfl rfl (by simp)
  simp only [Orderly, failStep, safe_bind, safe_perform]
  refine ⟨hlegal, ?_⟩
  rintro _ _ ⟨_, rfl⟩
  refine recordEvent_orderly.mono ?_ ?_
  · rintro _ _ rfl
    exact hnext.toRunning
  · rintro e _ ⟨rfl, _⟩
    exact hnext.toRunning

/-- What an attempt leaves: the step stays in hand unless it completed, or an exception that no
clause names was raised. -/
def Attempted (ctx : WorkflowContext) (key : String) (bk : Book) :
    WorkflowStep × Except PyExc Json → Prop
  | (_, .ok _) => Running bk ctx
  | (step, .error e) => Running bk ctx ∧ (InStep bk ctx key step ∨ e.kind = .other)

theorem tryActivity_orderly {call : ActivityCall} {attempt : ℕ} (h : InStep bk ctx key step) :
    Orderly (tryActivity ctx step call key attempt) bk (fun out bk' => Attempted ctx key bk' out)
      (fun _ _ => False) := by
  simp only [Orderly, tryActivity, safe_bind, safe_perform]
  refine ⟨trivial, ?_⟩
  rintro current bk ⟨_, rfl⟩
  cases hcur : isCancelled current with
  | true => exact ⟨h.toRunning, .inl h⟩
  | false =>
    obtain ⟨hlegal, hnext⟩ := h.saved
      { step with status := .executing, attemptCount := attempt + 1 } rfl rfl rfl (by simp)
    simp only [Bool.false_eq_true, if_false, safe_bind, safe_perform, safe_attempt]
    refine ⟨hlegal, ?_⟩
    rintro _ bk₁ ⟨_, rfl⟩
    refine recordEvent_orderly.mono ?_ ?_
    · rintro _ bk₂ rfl
      refine ⟨⟨hnext.run, hnext.phase, _, hnext.hand, hnext.workflowInstanceId,
        hnext.idempotencyKey, hnext.unfinished⟩, ?_⟩
      rintro result _ ⟨_, rfl⟩
      rcases result with e | result
      · exact ⟨hnext.toRunning, .inl hnext⟩
      · simp only [safe_bind, safe_perform]
        refine ⟨trivial, ?_⟩
        rintro current _ ⟨_, rfl⟩
        have hresult : InStep { bk.note (.saveStep _) () with result := some result } ctx key
            { step with status := .executing, attemptCount := attempt + 1 } :=
          { hnext with }
        cases isCancelled current with
        | true => exact ⟨hresult.toRunning, .inl hresult⟩
        | false =>
          simp only [Bool.false_eq_true, if_false, safe_bind, safe_attempt]
          refine (completeStep_orderly hresult rfl).mono ?_ ?_
          · exact fun _ _ hrun => hrun
          · exact fun e _ hrun => ⟨hrun.1, .inr hrun.2⟩
    · rintro e bk₂ ⟨rfl, he⟩
      exact ⟨hnext.toRunning, .inr he⟩

theorem runActivityWithRetry_orderly {call : ActivityCall} (remaining : ℕ) :
    ∀ {bk : Book} {attempt : ℕ} {step : WorkflowStep} {lastError : Option PyExc},
      InStep bk ctx key step →
        Orderly (runActivityWithRetry ctx call key remaining attempt step lastError) bk
          (fun out bk' => Running bk' ctx ∧
            ∀ e, out.2 = .error (some e) → InStep bk' ctx key out.1)
          (fun _ bk' => Running bk' ctx) := by
  induction remaining with
  | zero => exact fun h => ⟨h.toRunning, fun _ _ => h⟩
  | succ remaining ih =>
    intro bk attempt step lastError h
    simp only [Orderly, runActivityWithRetry, safe_bind]
    refine (tryActivity_orderly h).mono ?_ (fun _ _ h => h.elim)
    rintro ⟨step', result⟩ bk' hdone
    cases result with
    | ok result => exact ⟨hdone, fun _ he => by cases he⟩
    | error e =>
      obtain ⟨hrun, hstep⟩ := hdone
      have hin (hkind : e.kind ≠ .other) : InStep bk' ctx key step' :=
        hstep.resolve_right hkind
      cases hkind : e.kind with
      | timeout =>
        simp only [hkind]
        exact ih (hin (by simp [hkind]))
      | operation =>
        simp only [hkind]
        exact ih (hin (by simp [hkind]))
      | cancelled =>
        simp only [hkind]
        exact ⟨hrun, fun _ _ => hin (by simp [hkind])⟩
      | other =>
        simp only [hkind]
        exact hrun

variable {E : DurableWorkflowExecutor}

theorem runStep_orderly {call : ActivityCall} (h : InStep bk ctx key step) :
    Orderly (E.runStep ctx call key step) bk (fun _ bk' => Running bk' ctx)
      (fun _ bk' => Running bk' ctx) := by
  simp only [Orderly, runStep, safe_bind]
  refine (runActivityWithRetry_orderly _ h).mono ?_ (fun _ _ h => h)
  rintro ⟨step', (_ | lastError) | result⟩ bk' ⟨hrun, hstep⟩
  · exact hrun
  · simp only [safe_bind, safe_raise]
    exact failStep_orderly (hstep lastError rfl)
  · exact hrun

theorem executeActivity_orderly {call : ActivityCall} (h : Running bk ctx) :
    Orderly (E.executeActivity ctx call) bk
      (fun out bk' => out.1.workflowInstance = ctx.workflowInstance ∧ Running bk' out.1)
      (fun _ _ => False) := by
  simp only [Orderly, executeActivity, safe_bind]
  refine (getCachedStepResult_orderly h).mono ?_ (fun _ _ h => h)
  rintro found bk₁ ⟨hrun, hmissed⟩
  cases found with
  | some cachedResult => exact ⟨rfl, hrun⟩
  | none =>
    simp only [safe_bind, safe_perform, safe_attempt, safe_pure]
    refine ⟨trivial, ?_⟩
    rintro id _ ⟨_, rfl⟩
    refine ⟨⟨hrun.run, hrun.phase, _, rfl, .inl ⟨rfl, rfl, hmissed rfl⟩⟩, ?_⟩
    rintro _ bk₂ ⟨_, rfl⟩
    refine Safe.mono (registerFor_orderly (?_ : InStep _ ctx (E.keyOf ctx call) _)) ?_
      (fun _ _ h => False.elim h)
    · exact ⟨⟨hrun.run, hrun.phase, hrun.handlers⟩, rfl, rfl, rfl, by simp⟩
    rintro ctx' bk₃ ⟨hinst, hstep⟩
    refine (runStep_orderly hstep).mono ?_ ?_
    · exact fun _ _ hrun' => ⟨hinst, hrun'⟩
    · exact fun _ _ hrun' => ⟨hinst, hrun'⟩

theorem runWorkflow_orderly (body : WorkflowBody) :
    ∀ {bk : Book} {ctx : WorkflowContext}, Running bk ctx →
      Orderly (E.runWorkflow ctx body) bk
        (fun out bk' => out.1.workflowInstance = ctx.workflowInstance ∧ Running bk' out.1)
        (fun _ _ => False) := by
  induction body with
  | ret value => exact fun h => ⟨rfl, h⟩
  | raise e => exact fun h => ⟨rfl, h⟩
  | activity call k ih =>
    intro bk ctx h
    simp only [Orderly, runWorkflow, safe_bind]
    refine (executeActivity_orderly h).mono ?_ (fun _ _ h => h)
    rintro ⟨ctx', result⟩ bk' ⟨hinst, hrun⟩
    refine (ih result hrun).mono ?_ (fun _ _ h => h)
    exact fun out _ hout => ⟨hout.1.trans hinst, hout.2⟩

/-! ### Compensation and the final writes -/

variable {rest : List WorkflowCompensation} {comp : WorkflowCompensation}

structure InCompensation (bk : Book) (ctx : WorkflowContext) (rest : List WorkflowCompensation)
    (comp : WorkflowCompensation) : Prop extends Compensating bk ctx rest where
  hand : ∃ cur, bk.comp = some cur ∧ comp.SameRecord cur

theorem invokeHandler_orderly (h : Compensating bk ctx rest) (hhand : bk.comp = some comp)
    (hown : comp.workflowInstanceId = ctx.workflowInstance.id) (hcalled : bk.called = false) :
    Orderly (invokeHandler ctx comp) bk
      (fun out bk' =>
        match out with
        | .ok comp' =>
          InCompensation bk' ctx rest comp' ∧
            (bk'.called = true ∨ bk'.handlers.lookup comp'.compensationName = none)
        | .error _ => InCompensation bk' ctx rest comp ∧ bk'.called = true)
      (fun _ _ => False) := by
  simp only [Orderly, invokeHandler]
  rcases hlookup : ctx.handler comp.compensationName with _ | handler
  · exact ⟨⟨h, comp, hhand, .refl comp⟩, .inr (h.handlers ▸ hlookup)⟩
  · simp only [safe_bind, safe_perform]
    refine ⟨⟨h.phase, hown ▸ h.run, hhand, h.handlers ▸ hlookup, hcalled⟩, ?_⟩
    rintro r _ ⟨_, rfl⟩
    have hnext : Compensating { bk with called := true } ctx rest := { h with }
    rcases r with e | result
    · exact ⟨⟨hnext, comp, hhand, .refl comp⟩, rfl⟩
    · exact ⟨⟨hnext, comp, hhand, ⟨rfl, rfl, rfl, rfl, rfl⟩⟩, .inl rfl⟩

/-- What the `try` around one compensation leaves: the record is settled, or its handler raised,
or an exception that no clause names was raised. -/
def Tried (ctx : WorkflowContext) (rest : List WorkflowCompensation) (bk : Book) :
    WorkflowCompensation × Except PyExc Unit → Prop
  | (_, .ok _) => Compensating bk ctx rest
  | (comp, .error e) => (InCompensation bk ctx rest comp ∧ bk.called = true) ∨ e.kind = .other

theorem tryCompensation_orderly (h : Compensating bk ctx (comp :: rest))
    (hpending : comp.status = .pending) :
    Orderly (tryCompensation ctx comp) bk (fun out bk' => Tried ctx rest bk' out)
      (fun _ _ => False) := by
  have hown := h.own comp (List.mem_cons_self ..)
  simp only [Orderly, tryCompensation, safe_bind, safe_attempt]
  refine recordEvent_orderly.mono ?_ ?_
  · rintro _ bk rfl
    have hremaining : bk.remaining = some (comp :: pendingOf rest) := by
      rw [h.remaining, pendingOf, List.filter_cons_of_pos (by simpa using hpending)]
      rfl
    simp only [safe_perform]
    refine ⟨⟨h.phase, hown ▸ h.run, pendingOf rest, ?_⟩, ?_⟩
    · rw [hremaining, ← hpending]
    rintro _ _ ⟨_, rfl⟩
    have hnext : Compensating (bk.note (.saveCompensation { comp with status := .compensating }) ())
        ctx rest :=
      ⟨h.run, h.phase, h.handlers, by simp [Book.note, hremaining],
        fun c hc => h.own c (List.mem_cons_of_mem _ hc)⟩
    refine (invokeHandler_orderly hnext rfl hown rfl).mono ?_ (fun _ _ h => h)
    rintro called bk₁ hcalled
    rcases called with e | comp'
    · exact .inl hcalled
    · obtain ⟨hin, hlookup⟩ := hcalled
      obtain ⟨cur, hcur, hsame⟩ := hin.hand
      simp only [safe_bind, safe_perform, safe_attempt, safe_pure]
      refine ⟨⟨hin.phase, ⟨cur, hcur, ⟨hsame.id, hsame.workflowInstanceId, hsame.stepId,
        hsame.compensationName, hsame.createdAt⟩⟩, hlookup.imp_right fun h => ⟨rfl, h⟩⟩, ?_⟩
      rintro _ _ ⟨_, rfl⟩
      refine recordEvent_orderly.mono ?_ ?_
      · rintro _ _ rfl
        exact ⟨hin.run, hin.phase, hin.handlers, hin.remaining, hin.own⟩
      · exact fun e _ he => .inr he.2
  · exact fun e _ he => .inr he.2

theorem runCompensation_orderly (h : Compensating bk ctx (comp :: rest)) :
    Orderly (runCompensation ctx comp) bk (fun _ bk' => Compensating bk' ctx rest)
      (fun _ _ => True) := by
  simp only [Orderly, runCompensation]
  split
  · rename_i hdone
    refine ⟨h.run, h.phase, h.handlers, ?_, fun c hc => h.own c (List.mem_cons_of_mem _ hc)⟩
    rw [h.remaining, pendingOf, pendingOf, List.filter_cons_of_neg (by simpa using hdone)]
  · rename_i hpending
    simp only [safe_bind]
    refine (tryCompensation_orderly h (not_not.mp hpending)).mono ?_ (fun _ _ h => h.elim)
    rintro ⟨comp', result⟩ bk₁ htried
    cases result with
    | ok _ => exact htried
    | error e =>
      rcases hop : e.isOperationError with _ | _
      · simp [hop]
      · have hkind : e.kind ≠ .other := fun hk => by simp [PyExc.isOperationError, hk] at hop
        obtain ⟨hin, hcalled⟩ := htried.resolve_right hkind
        obtain ⟨cur, hcur, hsame⟩ := hin.hand
        simp only [hop, if_true, safe_bind, safe_perform]
        refine ⟨⟨hin.phase, ⟨cur, hcur, ⟨hsame.id, hsame.workflowInstanceId, hsame.stepId,
          hsame.compensationName, hsame.createdAt⟩⟩, .inl hcalled⟩, ?_⟩
        rintro _ _ ⟨_, rfl⟩
        refine recordEvent_orderly.mono ?_ (fun _ _ _ => trivial)
        rintro _ _ rfl
        exact ⟨hin.run, hin.phase, hin.handlers, hin.remaining, hin.own⟩

theorem runCompensationLoop_orderly (comps : List WorkflowCompensation) :
    ∀ {bk : Book}, Compensating bk ctx comps →
      Orderly (runCompensationLoop ctx comps) bk (fun _ bk' => Compensating bk' ctx [])
        (fun _ _ => True) := by
  induction comps with
  | nil => exact fun h => h
  | cons comp rest ih =>
    intro bk h
    simp only [Orderly, runCompensationLoop, safe_bind]
    exact (runCompensation_orderly h).mono (fun _ _ hnext => ih hnext) (fun _ _ _ => trivial)

theorem runCompensations_orderly (h : Running bk ctx) :
    Orderly (runCompensations ctx) bk
      (fun y bk' => y.id = ctx.workflowInstance.id ∧ bk'.run = some ctx.workflowInstance.id ∧
        bk'.phase = some .compensated) (fun _ _ => True) := by
  simp only [Orderly, runCompensations, safe_bind, safe_perform]
  refine Safe.mono (assignAndSave_orderly ?_) ?_ (fun _ _ _ => trivial)
  · exact ⟨h.run, h.phase⟩
  rintro y bk₁ ⟨rfl, rfl⟩
  refine ⟨trivial, ?_⟩
  rintro _ _ ⟨_, rfl⟩
  refine ⟨⟨h.run, rfl⟩, ?_⟩
  rintro comps _ ⟨hown, rfl⟩
  refine Safe.mono (runCompensationLoop_orderly comps ?_) ?_ (fun _ _ _ => trivial)
  · exact ⟨h.run, rfl, h.handlers, rfl, hown⟩
  rintro _ bk₂ hend
  refine Safe.mono (assignAndSave_orderly ?_) ?_ (fun _ _ _ => trivial)
  · exact ⟨hend.run, hend.phase, hend.remaining⟩
  rintro y bk₃ ⟨rfl, rfl⟩
  exact ⟨rfl, hend.run, rfl⟩

theorem handleWorkflowError_orderly {x : WorkflowInstance} {e : PyExc} (h : Running bk ctx) :
    Orderly (handleWorkflowError x ctx e) bk (fun _ _ => True) (fun _ _ => True) := by
  have hfailed : Orderly (finalizeWorkflowFailed x ctx e) bk (fun _ _ => True)
      (fun _ _ => True) := by
    simp only [Orderly, finalizeWorkflowFailed, safe_bind]
    refine recordEvent_orderly.mono ?_ (fun _ _ _ => trivial)
    rintro _ _ rfl
    refine (runCompensations_orderly h).mono ?_ (fun _ _ _ => trivial)
    rintro y bk₁ ⟨hid, hrun, hphase⟩
    refine Safe.mono (assignAndSave_orderly ?_) (fun _ _ _ => trivial) (fun _ _ _ => trivial)
    exact ⟨hid ▸ hrun, hphase⟩
  simp only [Orderly, handleWorkflowError]
  cases e.kind with
  | timeout => exact hfailed
  | operation => exact hfailed
  | cancelled =>
    refine Safe.mono (assignAndSave_orderly ?_) (fun _ _ _ => trivial) (fun _ _ _ => trivial)
    exact trivial
  | other => trivial

/-- **`execute_workflow` does things in order.** -/
theorem executeWorkflow_orderly {inst : WorkflowInstance} :
    Orderly (E.executeWorkflow inst) bk (fun _ _ => True) (fun _ _ => True) := by
  simp only [Orderly, executeWorkflow]
  split
  · trivial
  rcases E.workflows inst.workflowType with _ | func
  · trivial
  · simp only [runInstance, safe_bind]
    refine Safe.mono (assignAndSave_orderly ?_) ?_ (fun _ _ _ => trivial)
    · exact trivial
    rintro y bk₁ ⟨rfl, rfl⟩
    refine Safe.mono (runWorkflow_orderly _ ?_) ?_ (fun _ _ h => False.elim h)
    · exact ⟨rfl, rfl, rfl⟩
    rintro ⟨ctx, result⟩ bk₂ ⟨hinst, hrun⟩
    have hid : ctx.workflowInstance.id = inst.id := by rw [hinst]; rfl
    rcases result with e | value
    · exact handleWorkflowError_orderly hrun
    · simp only [finalizeWorkflowSuccess, safe_bind, safe_attempt, safe_pure]
      refine Safe.mono (assignAndSave_orderly ?_) ?_ ?_
      · exact ⟨hid ▸ hrun.run, hrun.phase⟩
      · rintro y bk₃ ⟨rfl, rfl⟩
        refine recordEvent_orderly.mono (fun _ _ _ => trivial) ?_
        -- The outcome is saved, and an exception that no clause names ends the call
        rintro e bk₄ ⟨_, hkind⟩
        simp [handleWorkflowError, hkind]
      · rintro e bk₃ ⟨_, hkind⟩
        simp [handleWorkflowError, hkind]

/-- **Every call does things in order.** -/
theorem Call.orderly (c : Call) :
    Orderly (c.code E) bk (fun _ _ => True) (fun _ _ => True) := by
  cases c with
  | start ty wid tid input =>
    simp only [Orderly, Call.code, startWorkflow, safe_bind]
    split
    · trivial
    simp only [safe_bind, safe_perform]
    refine ⟨trivial, ?_⟩
    rintro existing bk₁ ⟨_, rfl⟩
    cases existing.filter fun wf => wf.status = .pending ∨ wf.status = .running with
    | some wf => trivial
    | none =>
      simp only [safe_bind, safe_perform]
      refine ⟨trivial, ?_⟩
      rintro id bk₂ ⟨_, rfl⟩
      refine Safe.mono (assignAndSave_orderly ?_) (fun y _ _ => ?_) (fun _ _ _ => trivial)
      · exact trivial
      exact recordEvent_orderly.mono (fun _ _ _ => trivial) (fun _ _ _ => trivial)
  | execute inst =>
    simpa only [Orderly, Call.code, safe_bind, safe_pure] using executeWorkflow_orderly
  | resume wid tid =>
    simp only [Orderly, Call.code, resumeWorkflow, safe_bind, safe_perform]
    refine ⟨trivial, ?_⟩
    rintro found bk₁ ⟨_, rfl⟩
    rcases found with _ | inst
    · trivial
    · simp only
      split
      · trivial
      · exact executeWorkflow_orderly
  | cancel wid tid reason =>
    simp only [Orderly, Call.code, cancelWorkflow, safe_bind, safe_perform]
    refine ⟨trivial, ?_⟩
    rintro found bk₁ ⟨_, rfl⟩
    rcases found with _ | inst
    · trivial
    · simp only
      split
      · trivial
      simp only [safe_bind]
      refine Safe.mono (assignAndSave_orderly ?_) (fun y _ _ => ?_) (fun _ _ _ => trivial)
      · exact trivial
      exact recordEvent_orderly.mono (fun _ _ _ => trivial) (fun _ _ _ => trivial)
  | status wid tid => exact ⟨trivial, fun _ _ _ => trivial⟩

end Functions

end EnhancedAgentBus.Persistence
