import EnhancedAgentBus.Persistence.Executor

/-!
# What one execution does, whatever it is answered

Interleaved executions see each other only through the calls they make, so what they do to
each other is decided by what *one* of them may call, given the answers it got.  `View` is
what an execution has learnt from its answers:

* `seen` — it has read its own instance back as CANCELLED;
* `produced` — which results its activities have given.

`Allowed inst` is the discipline of an execution of `inst`: it names only its own rows, it
writes no `WORKFLOW_STARTED` event, it stores a result only when it has produced it, and
after it has *seen* a cancellation it writes no other outcome.  `executeWorkflow_disciplined`
is one pass over the code; every statement about interleaved executions starts from it.

### What is load-bearing

The last clause needs the workflow function to let a `CancelledError` through
(`Propagates`): one that catches it goes on, and the executor cannot know.  With
`watch = false` the clause is void and every workflow function is disciplined.
-/

namespace EnhancedAgentBus.Persistence

open Async Async.Prog DurableWorkflowExecutor

/-- The outcomes an execution writes; a cancellation is none of them. -/
def WorkflowStatus.isOutcome : WorkflowStatus → Bool
  | .completed | .failed | .compensating | .compensated => true
  | .pending | .running | .cancelled => false

def WorkflowStatus.isLive : WorkflowStatus → Bool
  | .pending | .running => true
  | .completed | .failed | .cancelled | .compensating | .compensated => false

/-! ## Views -/

/-- What an execution has learnt from its answers. -/
structure View where
  /-- it has read its instance back as cancelled -/
  seen : Bool
  /-- the results of its activities: instance, key, and the result as it is stored -/
  produced : UUID → String → JSONDict → Prop

structure View.Le (v v' : View) : Prop where
  seen : v'.seen = v.seen
  produced : ∀ i k d, v.produced i k d → v'.produced i k d

theorem View.Le.refl (v : View) : v.Le v := ⟨rfl, fun _ _ _ h => h⟩

theorem View.Le.trans {u v w : View} (h : u.Le v) (h' : v.Le w) : u.Le w :=
  ⟨h'.seen.trans h.seen, fun i k d hd => h'.produced i k d (h.produced i k d hd)⟩

/-- Whether an answer shows the instance cancelled. -/
def readsCancelled : (o : Op) → o.Resp → Bool
  | .getWorkflow _, r => isCancelled r
  | _, _ => false

def Yields : (o : Op) → o.Resp → UUID → String → JSONDict → Prop
  | .callActivity i k _ _, .ok result, i', k', d => i = i' ∧ k = k' ∧ d = coerceJsonDict result
  | _, _, _, _, _ => False

/-- What every answer has in common: a dict in a completed row was produced before, and what a
save raises no `except` clause names. -/
def AnswersWell (produced : UUID → String → JSONDict → Prop) : (o : Op) → o.Resp → Prop
  | .getStepByIdempotencyKey i k, some row =>
    row.status = .completed → ∀ d, row.output = .obj d → produced i k d
  | .saveWorkflow _ _, .error e => e.isOperationError = false
  | .saveEvent _, .error e => e.isOperationError = false
  | _, _ => True

theorem answersWell_of_step {b : Backend} {w w' : World} {o : Op} {r : o.Resp}
    (hstep : Step b w o r w') :
    AnswersWell (fun _ _ _ => True) o r := by
  cases o with
  | saveWorkflow saved set =>
    obtain ⟨rfl, _⟩ := step_saveWorkflow.mp hstep
    unfold World.saveWorkflow
    split_ifs
    · trivial
    · rfl
    · trivial
  | saveEvent event =>
    obtain ⟨rfl, _⟩ := step_saveEvent.mp hstep
    simp only [World.saveEvent]
    split_ifs
    · rfl
    · trivial
  | getStepByIdempotencyKey i key =>
    cases r with
    | none => trivial
    | some row => exact fun _ _ _ => trivial
  | _ => trivial

structure ViewStep (watch : Bool) (v : View) (o : Op) (r : o.Resp) (v' : View) : Prop where
  seen : v'.seen = (v.seen || (watch && readsCancelled o r))
  produced : ∀ i k d, v.produced i k d → v'.produced i k d
  yields : ∀ i k d, Yields o r i k d → v'.produced i k d
  answers : AnswersWell v'.produced o r

theorem ViewStep.le {watch : Bool} {v v' : View} {o : Op} {r : o.Resp}
    (h : ViewStep watch v o r v') (hr : readsCancelled o r = false) : v.Le v' :=
  ⟨by rw [h.seen, hr]; simp, h.produced⟩

/-- **The discipline of an execution of `inst`.** -/
def Allowed (inst : WorkflowInstance) (v : View) : Op → Prop
  | .getWorkflow id => id = inst.id
  | .getWorkflowByBusinessId _ _ => False
  | .saveWorkflow saved set =>
    saved.SameRun inst ∧ (v.seen = true → set.status.isOutcome = false)
  | .saveStep step =>
    step.workflowInstanceId = inst.id ∧
      (step.status = .completed →
        ∃ k d, step.idempotencyKey = some k ∧ step.output = .obj d ∧ v.produced inst.id k d)
  | .getStepByIdempotencyKey i _ => i = inst.id
  | .saveEvent event =>
    event.workflowInstanceId = inst.id ∧ event.eventType ≠ .workflowStarted
  | .getStepResult caller workflowId _ => caller = inst.id ∧ workflowId = inst.workflowId
  | .setStepResult caller workflowId k d =>
    caller = inst.id ∧ workflowId = inst.workflowId ∧ v.produced inst.id k d
  | .callActivity i _ _ _ => i = inst.id
  | _ => True

/-- A program of an execution of `inst` that keeps the discipline. -/
abbrev Disciplined (inst : WorkflowInstance) (watch : Bool) {α : Type} (p : Code α) (v : View)
    (Q : α → View → Prop) (E : PyExc → View → Prop) : Prop :=
  Safe (ViewStep watch) (Allowed inst) p v Q E

/-- After a cancellation is seen, only an exception no operation clause names; and only an
execution that watches sees one. -/
def Quiet {α : Type} (watch : Bool) (v : View) (r : Except PyExc α) : Prop :=
  v.seen = true → watch = true ∧ ∃ e, r = .error e ∧ e.isOperationError = false

theorem Quiet.of_not_seen {α : Type} {watch : Bool} {v : View} {r : Except PyExc α}
    (h : v.seen = false) : Quiet watch v r := fun hs => by simp [h] at hs

theorem Quiet.error {α : Type} {watch : Bool} {v : View} {e : PyExc}
    (hw : v.seen = true → watch = true) (h : e.isOperationError = false) :
    Quiet watch v (.error e : Except PyExc α) := fun hs => ⟨hw hs, e, rfl, h⟩

theorem Quiet.not_seen {α : Type} {watch : Bool} {v : View} {r : Except PyExc α}
    (h : Quiet watch v r) (hr : ∀ e, r = .error e → e.isOperationError = true) :
    v.seen = false := by
  by_contra hs
  obtain ⟨_, e, he, hno⟩ := h (by simpa using hs)
  rw [hr e he] at hno
  cases hno

/-- The workflow function does not catch a `CancelledError` or an error no clause names. -/
def Propagates : WorkflowBody → Prop
  | .ret _ => True
  | .raise _ => True
  | .activity _ k =>
    (∀ e : PyExc, e.isOperationError = false →
      ∃ e' : PyExc, k (.error e) = .raise e' ∧ e'.isOperationError = false) ∧
    ∀ r, Propagates (k r)

/-! ## One lemma per function -/

section Functions

variable {inst : WorkflowInstance} {watch : Bool} {v : View} {ctx : WorkflowContext}
variable {key : String}

theorem orRaise_disciplined {α : Type} {r : Except PyExc α}
    (h : ∀ e, r = .error e → e.isOperationError = false) :
    Disciplined inst watch (orRaise r) v (fun _ v' => v' = v)
      (fun e v' => v' = v ∧ e.isOperationError = false) := by
  cases r with
  | ok a => simp [orRaise]
  | error e => simpa [orRaise] using h e rfl

theorem recordEvent_disciplined {i : UUID} {ty : EventType} {data : JSONDict}
    (hi : i = inst.id) (hty : ty ≠ .workflowStarted) :
    Disciplined inst watch (recordEvent i ty data) v (fun _ v' => v.Le v')
      (fun e v' => v.Le v' ∧ e.isOperationError = false) := by
  simp only [Disciplined, recordEvent, safe_bind, safe_perform]
  refine ⟨trivial, fun n v₁ h₁ => ⟨⟨hi, hty⟩, fun r v₂ h₂ => ?_⟩⟩
  have hle := (h₁.le rfl).trans (h₂.le rfl)
  refine (orRaise_disciplined ?_).mono ?_ ?_
  · rintro e rfl
    exact h₂.answers
  · rintro _ t rfl
    exact hle
  · rintro e t ⟨rfl, he⟩
    exact ⟨hle, he⟩

theorem assignAndSave_disciplined {saved : WorkflowInstance} {set : Assigned}
    (hsaved : saved.SameRun inst) (hset : v.seen = true → set.status.isOutcome = false) :
    Disciplined inst watch (assignAndSave saved set) v
      (fun y v' => v.Le v' ∧ y = saved.assign set)
      (fun e v' => v.Le v' ∧ e.isOperationError = false) := by
  simp only [Disciplined, assignAndSave, safe_bind, safe_perform, safe_pure]
  refine ⟨⟨hsaved, hset⟩, fun r v₁ h₁ => ?_⟩
  refine (orRaise_disciplined ?_).mono ?_ ?_
  · rintro e rfl
    exact h₁.answers
  · rintro _ t rfl
    exact ⟨h₁.le rfl, trivial⟩
  · rintro e t ⟨rfl, he⟩
    exact ⟨h₁.le rfl, he⟩

variable {call : ActivityCall} {step : WorkflowStep}

theorem registerFor_disciplined :
    Disciplined inst watch (registerFor ctx call step) v
      (fun ctx' v' => v.Le v' ∧ ctx'.workflowInstance = ctx.workflowInstance)
      (fun _ _ => False) := by
  cases hcomp : call.compensation with
  | none => simp [Disciplined, registerFor, hcomp, View.Le.refl]
  | some handler =>
    simp only [Disciplined, registerFor, hcomp, WorkflowContext.registerCompensation, safe_bind,
      safe_perform, safe_pure]
    refine ⟨trivial, fun id v₁ h₁ => ⟨trivial, fun t v₂ h₂ => ⟨trivial, fun _ v₃ h₃ =>
      ⟨trivial, fun _ v₄ h₄ => ⟨?_, trivial⟩⟩⟩⟩⟩
    exact (h₁.le rfl).trans ((h₂.le rfl).trans ((h₃.le rfl).trans (h₄.le rfl)))

theorem getCachedStepResult_disciplined (hctx : ctx.workflowInstance.SameRun inst) :
    Disciplined inst watch (getCachedStepResult ctx key) v (fun _ v' => v.Le v')
      (fun _ _ => False) := by
  simp only [Disciplined, getCachedStepResult, safe_bind, safe_perform]
  refine ⟨⟨hctx.id, hctx.workflowId⟩, fun cached v₁ h₁ => ?_⟩
  cases cached.filter (· ≠ []) with
  | some members => exact h₁.le rfl
  | none =>
    simp only [safe_bind, safe_perform]
    refine ⟨hctx.id, fun existing v₂ h₂ => ?_⟩
    have hle := (h₁.le rfl).trans (h₂.le rfl)
    cases hex : existing.filter (·.status = .completed) with
    | none => exact hle
    | some row =>
      obtain ⟨rfl, hdone⟩ := Option.filter_eq_some_iff.mp hex
      have hprod := h₂.answers (by simpa using hdone)
      cases hout : row.output with
      | obj d =>
        simp only [hout, safe_bind, safe_perform, safe_pure]
        refine ⟨⟨hctx.id, hctx.workflowId, hctx.id ▸ hprod d hout⟩, fun _ v₃ h₃ => ?_⟩
        exact hle.trans (h₃.le rfl)
      | _ => simpa only [hout, safe_pure] using hle

structure OwnStep (inst : WorkflowInstance) (key : String) (step : WorkflowStep) : Prop where
  instance_eq : step.workflowInstanceId = inst.id
  key_eq : step.idempotencyKey = some key

theorem completeStep_disciplined {stepName : String} {result : Json}
    (hctx : ctx.workflowInstance.SameRun inst) (hstep : OwnStep inst key step)
    (hprod : v.produced inst.id key (coerceJsonDict result)) :
    Disciplined inst watch (completeStep ctx step stepName result key) v (fun _ v' => v.Le v')
      (fun e v' => v.Le v' ∧ e.isOperationError = false) := by
  simp only [Disciplined, completeStep, safe_bind, safe_perform]
  refine ⟨⟨hstep.instance_eq, fun _ => ⟨key, _, hstep.key_eq, rfl, hprod⟩⟩, fun _ v₁ h₁ => ?_⟩
  refine ⟨⟨hctx.id, hctx.workflowId, h₁.produced _ _ _ hprod⟩, fun _ v₂ h₂ => ?_⟩
  have hle := (h₁.le rfl).trans (h₂.le rfl)
  refine (recordEvent_disciplined hctx.id (by decide)).mono ?_ ?_
  · exact fun _ v' h => hle.trans h
  · exact fun e v' h => ⟨hle.trans h.1, h.2⟩

theorem failStep_disciplined {stepName : String} {e : PyExc}
    (hctx : ctx.workflowInstance.SameRun inst) (hstep : OwnStep inst key step) :
    Disciplined inst watch (failStep ctx step stepName e) v (fun _ v' => v.Le v')
      (fun e v' => v.Le v' ∧ e.isOperationError = false) := by
  simp only [Disciplined, failStep, safe_bind, safe_perform]
  refine ⟨⟨hstep.instance_eq, fun h => by simp at h⟩, fun _ v₁ h₁ => ?_⟩
  refine (recordEvent_disciplined hctx.id (by decide)).mono ?_ ?_
  · exact fun _ v' h => (h₁.le rfl).trans h
  · exact fun e v' h => ⟨(h₁.le rfl).trans h.1, h.2⟩

theorem seen_of_check {id : UUID} {current : Option WorkflowInstance} {v' : View}
    (h : ViewStep watch v (.getWorkflow id) current v') (hseen : v.seen = false) :
    (v'.seen = true → watch = true) ∧ (isCancelled current = false → v'.seen = false) := by
  rw [h.seen, hseen, readsCancelled]
  refine ⟨fun hs => ?_, fun hs => by simp [hs]⟩
  rw [Bool.false_or, Bool.and_eq_true] at hs
  exact hs.1

theorem tryActivity_disciplined {attempt : ℕ} (hctx : ctx.workflowInstance.SameRun inst)
    (hstep : OwnStep inst key step) (hseen : v.seen = false) :
    Disciplined inst watch (tryActivity ctx step call key attempt) v
      (fun out v' => OwnStep inst key out.1 ∧ Quiet watch v' out.2) (fun _ _ => False) := by
  simp only [Disciplined, tryActivity, safe_bind, safe_perform]
  refine ⟨hctx.id, fun current v₁ h₁ => ?_⟩
  obtain ⟨hw₁, hseen₁⟩ := seen_of_check h₁ hseen
  cases hcur : isCancelled current with
  | true => exact ⟨hstep, .error hw₁ rfl⟩
  | false =>
    replace hseen₁ := hseen₁ hcur
    have hown : OwnStep inst key
        { step with status := .executing, attemptCount := attempt + 1 } :=
      ⟨hstep.instance_eq, hstep.key_eq⟩
    simp only [Bool.false_eq_true, if_false, safe_bind, safe_perform, safe_attempt]
    refine ⟨⟨hstep.instance_eq, fun h => by simp at h⟩, fun _ v₂ h₂ => ?_⟩
    have hseen₂ : v₂.seen = false := (h₂.le rfl).seen.trans hseen₁
    refine (recordEvent_disciplined hctx.id (by decide)).mono (fun _ v₃ h₃ => ?_)
      (fun e v₃ h₃ => ⟨hown, .of_not_seen (h₃.1.seen.trans hseen₂)⟩)
    have hseen₃ : v₃.seen = false := h₃.seen.trans hseen₂
    refine ⟨hctx.id, fun result v₄ h₄ => ?_⟩
    have hseen₄ : v₄.seen = false := (h₄.le rfl).seen.trans hseen₃
    cases result with
    | error e => exact ⟨hown, .of_not_seen hseen₄⟩
    | ok result =>
      simp only [safe_bind, safe_perform]
      refine ⟨hctx.id, fun current v₅ h₅ => ?_⟩
      obtain ⟨hw₅, hseen₅⟩ := seen_of_check h₅ hseen₄
      cases hcur₅ : isCancelled current with
      | true => exact ⟨hown, .error hw₅ rfl⟩
      | false =>
        replace hseen₅ := hseen₅ hcur₅
        have hprod : v₅.produced inst.id key (coerceJsonDict result) :=
          h₅.produced _ _ _ (h₄.yields _ _ _ ⟨hctx.id, rfl, rfl⟩)
        simp only [Bool.false_eq_true, if_false, safe_bind, safe_attempt]
        refine (completeStep_disciplined hctx hown hprod).mono ?_ ?_
        · exact fun _ v₆ h₆ => ⟨⟨hown.instance_eq, hown.key_eq⟩,
            .of_not_seen (h₆.seen.trans hseen₅)⟩
        · exact fun e v₆ h₆ => ⟨⟨hown.instance_eq, hown.key_eq⟩,
            .of_not_seen (h₆.1.seen.trans hseen₅)⟩

theorem runActivityWithRetry_disciplined (hctx : ctx.workflowInstance.SameRun inst) (remaining : ℕ)
    :
    ∀ {v : View} {attempt : ℕ} {step : WorkflowStep} {lastError : Option PyExc},
      OwnStep inst key step → v.seen = false →
        Disciplined inst watch
          (runActivityWithRetry ctx call key remaining attempt step lastError) v
          (fun out v' => OwnStep inst key out.1 ∧
            (v'.seen = true → watch = true ∧
              ∃ e, out.2 = .error (some e) ∧ e.isOperationError = false))
          (fun e v' => Quiet watch v' (.error e : Except PyExc Json)) := by
  induction remaining with
  | zero =>
    intro v attempt step lastError hstep hseen
    exact ⟨hstep, fun h => by simp [hseen] at h⟩
  | succ remaining ih =>
    intro v attempt step lastError hstep hseen
    simp only [Disciplined, runActivityWithRetry, safe_bind]
    refine (tryActivity_disciplined hctx hstep hseen).mono ?_ (fun _ _ h => h.elim)
    rintro ⟨step', result⟩ v' ⟨hstep', hquiet⟩
    cases result with
    | ok result =>
      have hunseen := hquiet.not_seen (by simp)
      exact ⟨hstep', fun h => by simp [hunseen] at h⟩
    | error e =>
      have hunseen (hop : e.isOperationError = true) : v'.seen = false :=
        hquiet.not_seen (by rintro _ ⟨rfl⟩; exact hop)
      cases hkind : e.kind with
      | timeout =>
        simp only [hkind]
        exact ih hstep' (hunseen (by simp [PyExc.isOperationError, hkind]))
      | cancelled =>
        simp only [hkind]
        exact ⟨hstep', fun hs => ⟨(hquiet hs).1, e, rfl,
          by simp [PyExc.isOperationError, hkind]⟩⟩
      | operation =>
        simp only [hkind]
        exact ih hstep' (hunseen (by simp [PyExc.isOperationError, hkind]))
      | other =>
        simp only [hkind]
        exact hquiet

variable {E : DurableWorkflowExecutor}

theorem runStep_disciplined (hctx : ctx.workflowInstance.SameRun inst)
    (hstep : OwnStep inst key step) (hseen : v.seen = false) :
    Disciplined inst watch (E.runStep ctx call key step) v (fun _ v' => v'.seen = false)
      (fun e v' => Quiet watch v' (.error e : Except PyExc Json)) := by
  simp only [Disciplined, runStep, safe_bind]
  refine (runActivityWithRetry_disciplined hctx _ hstep hseen).mono ?_ (fun _ _ h => h)
  rintro ⟨step', (_ | lastError) | result⟩ v' ⟨hstep', hquiet⟩
  · intro hs
    obtain ⟨_, e, he, _⟩ := hquiet hs
    cases he
  · simp only [safe_bind, safe_raise]
    refine (failStep_disciplined hctx hstep').mono (fun _ v₁ h₁ hs => ?_) (fun e v₁ h₁ hs => ?_)
    · obtain ⟨hw, e, he, hno⟩ := hquiet (h₁.seen ▸ hs)
      cases he
      exact ⟨hw, lastError, rfl, hno⟩
    · exact ⟨(hquiet (h₁.1.seen ▸ hs)).1, e, rfl, h₁.2⟩
  · by_contra hs
    obtain ⟨_, e, he, _⟩ := hquiet (by simpa using hs)
    cases he

theorem executeActivity_disciplined (hctx : ctx.workflowInstance.SameRun inst)
    (hseen : v.seen = false) :
    Disciplined inst watch (E.executeActivity ctx call) v
      (fun out v' => out.1.workflowInstance.SameRun inst ∧ Quiet watch v' out.2)
      (fun _ _ => False) := by
  simp only [Disciplined, executeActivity, safe_bind]
  refine (getCachedStepResult_disciplined hctx).mono (fun found v₁ h₁ => ?_) (fun _ _ h => h)
  have hseen₁ : v₁.seen = false := h₁.seen.trans hseen
  cases found with
  | some cachedResult => exact ⟨hctx, .of_not_seen hseen₁⟩
  | none =>
    simp only [safe_bind, safe_perform, safe_attempt, safe_pure]
    refine ⟨trivial, fun id v₂ h₂ => ⟨⟨hctx.id, fun h => by simp at h⟩, fun _ v₃ h₃ => ?_⟩⟩
    refine registerFor_disciplined.mono ?_ (fun _ _ h => h.elim)
    rintro ctx' v₄ ⟨h₄, hinst⟩
    have hctx' : ctx'.workflowInstance.SameRun inst := hinst ▸ hctx
    have hseen₄ : v₄.seen = false :=
      h₄.seen.trans ((h₃.le rfl).seen.trans ((h₂.le rfl).seen.trans hseen₁))
    refine (runStep_disciplined hctx' ⟨hctx.id, rfl⟩ hseen₄).mono ?_ ?_
    · exact fun _ v' h => ⟨hctx', .of_not_seen h⟩
    · exact fun e v' h => ⟨hctx', h⟩

theorem runWorkflow_disciplined (body : WorkflowBody)
    (hbody : watch = true → Propagates body) :
    ∀ {v : View} {ctx : WorkflowContext}, ctx.workflowInstance.SameRun inst → v.seen = false →
      Disciplined inst watch (E.runWorkflow ctx body) v
        (fun out v' => out.1.workflowInstance.SameRun inst ∧ Quiet watch v' out.2)
        (fun _ _ => False) := by
  induction body with
  | ret value => exact fun hctx hseen => ⟨hctx, .of_not_seen hseen⟩
  | raise e => exact fun hctx hseen => ⟨hctx, .of_not_seen hseen⟩
  | activity call k ih =>
    intro v ctx hctx hseen
    simp only [Disciplined, runWorkflow, safe_bind]
    refine (executeActivity_disciplined hctx hseen).mono ?_ (fun _ _ h => h)
    rintro ⟨ctx', result⟩ v' ⟨hctx', hquiet⟩
    rcases hs : v'.seen with _ | _
    · exact ih result (fun hw => (hbody hw).2 result) hctx' hs
    · obtain ⟨hw, e, rfl, hno⟩ := hquiet hs
      obtain ⟨e', hk, hno'⟩ := (hbody hw).1 e hno
      simp only [hk, runWorkflow, safe_pure]
      exact ⟨hctx', .error (fun _ => hw) hno'⟩

/-! ### Compensation and the final writes -/

theorem invokeHandler_disciplined {comp : WorkflowCompensation} :
    Disciplined inst watch (invokeHandler ctx comp) v (fun _ v' => v.Le v')
      (fun _ _ => False) := by
  simp only [Disciplined, invokeHandler]
  cases ctx.handler comp.compensationName with
  | none => exact View.Le.refl v
  | some handler =>
    simp only [safe_bind, safe_perform]
    refine ⟨trivial, fun r v₁ h₁ => ?_⟩
    cases r with
    | error e => exact h₁.le rfl
    | ok result => exact h₁.le rfl

theorem tryCompensation_disciplined {comp : WorkflowCompensation}
    (hctx : ctx.workflowInstance.SameRun inst) :
    Disciplined inst watch (tryCompensation ctx comp) v (fun _ v' => v.Le v')
      (fun _ _ => False) := by
  simp only [Disciplined, tryCompensation, safe_bind, safe_attempt]
  refine (recordEvent_disciplined hctx.id (by decide)).mono (fun _ v₁ h₁ => ?_)
    (fun e v₁ h₁ => h₁.1)
  refine ⟨trivial, fun _ v₂ h₂ => ?_⟩
  refine invokeHandler_disciplined.mono (fun called v₃ h₃ => ?_) (fun _ _ h => h)
  have hle : v.Le v₃ := h₁.trans ((h₂.le rfl).trans h₃)
  cases called with
  | error e => exact hle
  | ok comp =>
    simp only [safe_bind, safe_perform, safe_attempt, safe_pure]
    refine ⟨trivial, fun _ v₄ h₄ => ?_⟩
    refine (recordEvent_disciplined hctx.id (by decide)).mono ?_ ?_
    · exact fun _ v₅ h₅ => hle.trans ((h₄.le rfl).trans h₅)
    · exact fun e v₅ h₅ => hle.trans ((h₄.le rfl).trans h₅.1)

theorem runCompensation_disciplined {comp : WorkflowCompensation}
    (hctx : ctx.workflowInstance.SameRun inst) :
    Disciplined inst watch (runCompensation ctx comp) v (fun _ v' => v.Le v')
      (fun _ v' => v.Le v') := by
  simp only [Disciplined, runCompensation]
  split
  · exact View.Le.refl v
  simp only [safe_bind]
  refine (tryCompensation_disciplined hctx).mono ?_ (fun _ _ h => h.elim)
  rintro ⟨comp', result⟩ v₁ h₁
  cases result with
  | ok _ => exact h₁
  | error e =>
    rcases hop : e.isOperationError with _ | _
    · simpa [hop] using h₁
    · simp only [hop, if_true, safe_bind, safe_perform]
      refine ⟨trivial, fun _ v₂ h₂ => ?_⟩
      refine (recordEvent_disciplined hctx.id (by decide)).mono ?_ ?_
      · exact fun _ v₃ h₃ => h₁.trans ((h₂.le rfl).trans h₃)
      · exact fun e v₃ h₃ => h₁.trans ((h₂.le rfl).trans h₃.1)

theorem runCompensationLoop_disciplined (hctx : ctx.workflowInstance.SameRun inst)
    (comps : List WorkflowCompensation) :
    ∀ {v : View}, Disciplined inst watch (runCompensationLoop ctx comps) v
      (fun _ v' => v.Le v') (fun _ v' => v.Le v') := by
  induction comps with
  | nil => exact fun {v} => View.Le.refl v
  | cons comp rest ih =>
    intro v
    simp only [Disciplined, runCompensationLoop, safe_bind]
    refine (runCompensation_disciplined hctx).mono (fun _ v₁ h₁ => ?_) (fun _ _ h => h)
    exact ih.mono (fun _ _ h => h₁.trans h) (fun _ _ h => h₁.trans h)

theorem runCompensations_disciplined (hctx : ctx.workflowInstance.SameRun inst)
    (hseen : v.seen = false) :
    Disciplined inst watch (runCompensations ctx) v
      (fun y v' => y.SameRun inst ∧ v'.seen = false) (fun _ _ => True) := by
  simp only [Disciplined, runCompensations, safe_bind, safe_perform]
  have hunseen {v' : View} (hs : v'.seen = false) (set : Assigned) :
      v'.seen = true → set.status.isOutcome = false := fun h => by simp [hs] at h
  refine (assignAndSave_disciplined hctx (hunseen hseen _)).mono ?_ (fun _ _ _ => trivial)
  rintro y v₁ ⟨h₁, rfl⟩
  refine ⟨trivial, fun _ v₂ h₂ => ⟨trivial, fun comps v₃ h₃ => ?_⟩⟩
  refine (runCompensationLoop_disciplined hctx comps).mono (fun _ v₄ h₄ => ?_)
    (fun _ _ _ => trivial)
  have hseen₄ : v₄.seen = false :=
    h₄.seen.trans ((h₃.le rfl).seen.trans ((h₂.le rfl).seen.trans (h₁.seen.trans hseen)))
  refine (assignAndSave_disciplined (hctx.assign _) (hunseen hseen₄ _)).mono ?_
    (fun _ _ _ => trivial)
  rintro y v₅ ⟨h₅, rfl⟩
  exact ⟨(hctx.assign _).assign _, h₅.seen.trans hseen₄⟩

theorem handleWorkflowError_disciplined {x : WorkflowInstance} {e : PyExc}
    (hx : x.SameRun inst) (hctx : ctx.workflowInstance.SameRun inst)
    (hquiet : Quiet watch v (.error e : Except PyExc Json)) :
    Disciplined inst watch (handleWorkflowError x ctx e) v (fun _ _ => True)
      (fun _ _ => True) := by
  simp only [Disciplined, handleWorkflowError]
  have hfailed (hop : e.isOperationError = true) :
      Safe (ViewStep watch) (Allowed inst) (finalizeWorkflowFailed x ctx e) v (fun _ _ => True)
        (fun _ _ => True) := by
    have hseen := hquiet.not_seen (by rintro _ ⟨rfl⟩; exact hop)
    simp only [finalizeWorkflowFailed, safe_bind]
    refine (recordEvent_disciplined hx.id (by decide)).mono (fun _ v₁ h₁ => ?_)
      (fun _ _ _ => trivial)
    refine (runCompensations_disciplined hctx (h₁.seen.trans hseen)).mono ?_
      (fun _ _ _ => trivial)
    rintro y v₂ ⟨hy, hseen₂⟩
    exact (assignAndSave_disciplined hy (fun h => by simp [hseen₂] at h)).mono
      (fun _ _ _ => trivial) (fun _ _ _ => trivial)
  cases hkind : e.kind with
  | timeout => exact hfailed (by simp [PyExc.isOperationError, hkind])
  | operation => exact hfailed (by simp [PyExc.isOperationError, hkind])
  | cancelled =>
    exact (assignAndSave_disciplined hx (fun _ => rfl)).mono (fun _ _ _ => trivial)
      (fun _ _ _ => trivial)
  | other => trivial

/-- **The discipline of `execute_workflow`.** -/
theorem executeWorkflow_disciplined
    (hbody : watch = true → ∀ func, E.workflows inst.workflowType = some func →
      ∀ x, Propagates (func x)) (hseen : v.seen = false) :
    Disciplined inst watch (E.executeWorkflow inst) v (fun _ _ => True) (fun _ _ => True) := by
  simp only [Disciplined, executeWorkflow]
  split
  · trivial
  cases hfunc : E.workflows inst.workflowType with
  | none => trivial
  | some func =>
    simp only [runInstance, safe_bind]
    refine (assignAndSave_disciplined (.refl inst) (fun _ => rfl)).mono ?_
      (fun _ _ _ => trivial)
    rintro y v₁ ⟨h₁, rfl⟩
    have hrun := (WorkflowInstance.SameRun.refl inst).assign { status := .running }
    refine Safe.mono (runWorkflow_disciplined _ (fun hw => hbody hw func hfunc _) ?_
      (h₁.seen.trans hseen)) ?_ (fun _ _ h => False.elim h)
    · exact hrun
    rintro ⟨ctx, result⟩ v₂ ⟨hctx, hquiet⟩
    cases result with
    | error e => exact handleWorkflowError_disciplined hrun hctx hquiet
    | ok value =>
      have hseen₂ := hquiet.not_seen (by simp)
      simp only [finalizeWorkflowSuccess, safe_bind, safe_attempt, safe_pure]
      refine (assignAndSave_disciplined hrun (fun h => by simp [hseen₂] at h)).mono ?_ ?_
      · rintro y v₃ ⟨h₃, rfl⟩
        refine (recordEvent_disciplined hrun.id (by decide)).mono (fun _ _ _ => trivial) ?_
        exact fun e v₄ h₄ => handleWorkflowError_disciplined hrun hctx
          (.of_not_seen (h₄.1.seen.trans (h₃.seen.trans hseen₂)))
      · exact fun e v₃ h₃ => handleWorkflowError_disciplined hrun hctx
          (.of_not_seen (h₃.1.seen.trans hseen₂))

end Functions

end EnhancedAgentBus.Persistence
