import EnhancedAgentBus.Workflows.Compensation

/-!
# Resuming a stopped saga

A run with a persistence provider is stopped anywhere; the state that was saved last is loaded with
`resume`, the same steps are added, and `execute` is called again.  `resume` restores the lists of
what was done, but `execute` looks at none of them: it calls every step from the first on, and
appends to the lists.  So the resumed run asks what the whole run asks, and its lists are those of
the record followed by those of the whole run (`lockstep_execute`).  It continues the stopped run
exactly when the record lists nothing (`continues_iff`).
-/

namespace EnhancedAgentBus.Workflows

open Async SagaWorkflow

/-! ## Runs with given outcomes -/

/-- The outcomes of the functions of a saga, by place and attempt. -/
structure Outcomes where
  step : ℕ → ℕ → Except Failure Json
  compensation : ℕ → ℕ → Except Failure Bool

def Outcomes.answer (outcomes : Outcomes) : (o : Ask) → Answer o
  | .step i input => outcomes.step i input.attempt
  | .compensate i input => outcomes.compensation i input.attempt
  | .save _ => .ok ()

/-- The answer, and what was asked so far, latest first. -/
def Outcomes.reply (outcomes : Outcomes) (asked : List Ask) (o : Ask) : Answer o × List Ask :=
  (outcomes.answer o, o :: asked)

/-- The steps of the relation that a run with these outcomes takes. -/
def Outcomes.asks (outcomes : Outcomes) (asked : List Ask) (o : Ask) (r : Answer o)
    (asked' : List Ask) : Prop :=
  r = outcomes.answer o ∧ asked' = o :: asked

/-- A new workflow with a provider and its steps added. -/
def begun (sagaId version : String) (specs : List StepSpec) (context : SagaContext) :
    SagaWorkflow Ask Answer :=
  { workflow sagaId true specs context with version := version }

/-- A workflow that `resume` has made of a record, with its steps added. -/
def resumed (state : SagaState) (specs : List StepSpec) (context : SagaContext) :
    SagaWorkflow Ask Answer :=
  { resume (fun state => .await (.save state) fun r => unwrap (A := Unit) r) state context with
    steps := specs.mapIdx StepSpec.toStep }

def lastSaved (asked : List Ask) : Option SagaState :=
  asked.findSome? fun
    | .save state => some state
    | _ => none

namespace Ask

def isCall : Ask → Bool
  | save _ => false
  | _ => true

def compensates : Ask → Option String
  | compensate _ input => some input.compensationName
  | _ => none

end Ask

def calls (asked : List Ask) : List Ask := asked.filter Ask.isCall

def compensations (asked : List Ask) : List Ask := asked.filter fun o => o.compensates.isSome

/-- **To continue a stopped run**: what a run that resumed it makes of it, compared with the whole
run. -/
structure Continues (specs : List StepSpec) (state : SagaState)
    (whole again : Ended Ask Answer Unit × List Ask) : Prop where
  /-- It ends as the whole run does. -/
  outcome : again.1.1 = whole.1.1 ∧ again.1.2.buildResult = whole.1.2.buildResult
  /-- It calls no step that is recorded as completed. -/
  notExecutedAgain : ∀ i spec input, specs[i]? = some spec →
    spec.name ∈ state.completedSteps → .step i input ∉ again.2
  /-- The steps that it calls are given the context that they have in the whole run. -/
  sameInput : ∀ i input, .step i input ∈ again.2 → .step i input ∈ whole.2
  /-- It calls the compensations of the whole run, in order, that are not recorded as done. -/
  compensates : compensations again.2 =
    (compensations whole.2).filter fun o => ∀ name ∈ o.compensates, name ∉ state.compensatedSteps

/-! ## Lockstep -/

section Lockstep

variable (outcomes : Outcomes) {state : SagaState} {W : SagaWorkflow Ask Answer}
  {asked asked' : List Ask} {α : Type}

/-- A workflow as it is after a resumption: with the record's lists before its own. -/
def resumeWith (state : SagaState) (W : SagaWorkflow Ask Answer) : SagaWorkflow Ask Answer :=
  { W with
    completedSteps := state.completedSteps ++ W.completedSteps
    failedStep := W.failedStep.or state.failedStep
    compensatedSteps := state.compensatedSteps ++ W.compensatedSteps
    failedCompensations := state.failedCompensations ++ W.failedCompensations }

/-- Two runs that have called the same and are apart by a record. -/
structure Lockstep (state : SagaState) (x y : Ended Ask Answer α × List Ask) : Prop where
  result : y.1.1 = x.1.1
  workflow : y.1.2 = resumeWith state x.1.2
  called : calls y.2 = calls x.2
  saveState : x.1.2.saveState = provider true

theorem run_congr (p : Prog Ask Answer Empty α) (h : calls asked' = calls asked) :
    (p.run outcomes.reply asked').1 = (p.run outcomes.reply asked).1 ∧
    calls (p.run outcomes.reply asked').2 = calls (p.run outcomes.reply asked).2 := by
  induction p generalizing asked asked' with
  | done a => exact ⟨rfl, h⟩
  | raise e => exact e.elim
  | await o k ih =>
    refine ih _ ?_
    simp only [calls, Outcomes.reply, List.filter_cons] at h ⊢
    rw [h]

theorem run_saveCurrentState (hW : W.saveState = provider true) (asked : List Ask) :
    W.saveCurrentState.run outcomes.reply asked = (.ok (), .save W.toState :: asked) := by
  unfold saveCurrentState
  rw [hW]
  rfl

theorem complete_resumeWith (W : SagaWorkflow Ask Answer) (i : ℕ) (step : SagaStep Ask Answer)
    (r : Json) :
    (resumeWith state W).complete i step r = resumeWith state (W.complete i step r) := by
  simp only [resumeWith, complete, List.append_assoc]

theorem lockstep_attemptStep (hW : W.saveState = provider true) (h : calls asked' = calls asked)
    (i : ℕ) (step : SagaStep Ask Answer) (attempt : ℕ) :
    Lockstep state ((W.attemptStep i step attempt).run outcomes.reply asked)
      (((resumeWith state W).attemptStep i step attempt).run outcomes.reply asked') := by
  unfold attemptStep
  rw [Prog.run_bind, Prog.run_bind]
  obtain ⟨hresult, hcalls⟩ := run_congr outcomes
    (step.execute (W.stepInput step attempt)).attempt h
  have hinput : (resumeWith state W).stepInput step attempt = W.stepInput step attempt := rfl
  rw [hinput, hresult]
  cases (Prog.run outcomes.reply (step.execute (W.stepInput step attempt)).attempt asked).1 with
  | error e => exact ⟨rfl, rfl, hcalls, hW⟩
  | ok r =>
    show Lockstep state (Prog.run outcomes.reply (_ >>= _) _)
      (Prog.run outcomes.reply (_ >>= _) _)
    rw [complete_resumeWith, Prog.run_bind, Prog.run_bind,
      run_saveCurrentState outcomes (W := W.complete i step r) hW,
      run_saveCurrentState outcomes (W := resumeWith state (W.complete i step r)) hW]
    exact ⟨rfl, rfl, hcalls, hW⟩

theorem Lockstep.bind {β : Type} {p q : Prog Ask Answer Empty (Ended Ask Answer α)}
    (h : Lockstep state (p.run outcomes.reply asked) (q.run outcomes.reply asked'))
    {f g : Ended Ask Answer α → Prog Ask Answer Empty (Ended Ask Answer β)}
    (hfg : ∀ (result : Except Failure α) (W : SagaWorkflow Ask Answer) (asked asked' : List Ask),
      W.saveState = provider true → calls asked' = calls asked →
        Lockstep state ((f (result, W)).run outcomes.reply asked)
          ((g (result, resumeWith state W)).run outcomes.reply asked')) :
    Lockstep state ((p >>= f).run outcomes.reply asked) ((q >>= g).run outcomes.reply asked') := by
  rw [Prog.run_bind, Prog.run_bind]
  generalize p.run outcomes.reply asked = x at h
  generalize q.run outcomes.reply asked' = y at h
  obtain ⟨⟨result, W⟩, asked⟩ := x
  obtain ⟨⟨result', W'⟩, asked'⟩ := y
  obtain ⟨hresult, hworkflow, hcalls, hsaveState⟩ := h
  obtain rfl : result' = result := hresult
  obtain rfl : W' = resumeWith state W := hworkflow
  exact hfg result' W asked asked' hsaveState hcalls

theorem lockstep_runAttempts (i : ℕ) (step : SagaStep Ask Answer) (left attempt : ℕ)
    (error : Option String) (hW : W.saveState = provider true) (h : calls asked' = calls asked) :
    Lockstep state ((runAttempts i step left attempt error W).run outcomes.reply asked)
      ((runAttempts i step left attempt error (resumeWith state W)).run outcomes.reply asked') := by
  induction left generalizing attempt error W asked asked' with
  | zero => exact ⟨rfl, rfl, h, hW⟩
  | succ left ih =>
    refine (lockstep_attemptStep outcomes hW h i step attempt).bind outcomes ?_
    intro result W asked asked' hW h
    cases result with
    | ok _ => exact ⟨rfl, rfl, h, hW⟩
    | error e =>
      show Lockstep state (Prog.run outcomes.reply (if e.escapes then _ else _) _)
        (Prog.run outcomes.reply (if e.escapes then _ else _) _)
      split
      · exact ⟨rfl, rfl, h, hW⟩
      · exact ih _ _ hW h

theorem lockstep_executeSteps (state : SagaState) (W : SagaWorkflow Ask Answer)
    (steps : List (SagaStep Ask Answer)) (i : ℕ) (asked asked' : List Ask) (hW : W.saveState = provider true) (h : calls asked' = calls asked) :
    Lockstep state ((executeSteps steps i W).run outcomes.reply asked)
      ((executeSteps steps i (resumeWith state W)).run outcomes.reply asked') := by
  induction steps generalizing i W asked asked' with
  | nil => exact ⟨rfl, rfl, h, hW⟩
  | cons step rest ih =>
    have hstart : Lockstep state ((W.executeStep i step).run outcomes.reply asked)
        (((resumeWith state W).executeStep i step).run outcomes.reply asked') :=
      lockstep_runAttempts outcomes i step _ 1 none (W := W.start i step) hW h
    refine hstart.bind outcomes ?_
    intro result W asked asked' hW h
    rcases result with e | success
    · exact ⟨rfl, rfl, h, hW⟩
    · show Lockstep state (Prog.run outcomes.reply (if _ then _ else _) _)
        (Prog.run outcomes.reply (if _ then _ else _) _)
      split
      · exact ⟨rfl, rfl, h, hW⟩
      · exact ih _ (i + 1) _ _ hW h

theorem lockstep_runCompensationAttempts (c : SagaCompensation Ask Answer) (left attempt : ℕ)
    (hW : W.saveState = provider true) (h : calls asked' = calls asked) :
    Lockstep state ((runCompensationAttempts c left attempt W).run outcomes.reply asked)
      ((runCompensationAttempts c left attempt (resumeWith state W)).run outcomes.reply
        asked') := by
  induction left generalizing attempt asked asked' with
  | zero => exact ⟨rfl, rfl, h, hW⟩
  | succ left ih =>
    rw [runCompensationAttempts, runCompensationAttempts, Prog.run_bind, Prog.run_bind]
    obtain ⟨hresult, hcalls⟩ := run_congr outcomes
      (c.execute (W.compensationInput c attempt)).attempt h
    have hinput : (resumeWith state W).compensationInput c attempt =
        W.compensationInput c attempt := rfl
    rw [hinput, hresult]
    cases (Prog.run outcomes.reply (c.execute (W.compensationInput c attempt)).attempt asked).1 with
    | ok success =>
      cases success with
      | true => exact ⟨rfl, rfl, hcalls, hW⟩
      | false => exact ih _ hcalls
    | error e =>
      show Lockstep state (Prog.run outcomes.reply (if e.escapes then _ else _) _)
        (Prog.run outcomes.reply (if e.escapes then _ else _) _)
      split
      · exact ⟨rfl, rfl, hcalls, hW⟩
      · exact ih _ hcalls

theorem lockstep_compensateAll (cs : List (SagaCompensation Ask Answer))
    (hW : W.saveState = provider true) (h : calls asked' = calls asked) :
    Lockstep state ((compensateAll cs W).run outcomes.reply asked)
      ((compensateAll cs (resumeWith state W)).run outcomes.reply asked') := by
  induction cs generalizing W asked asked' with
  | nil => exact ⟨rfl, rfl, h, hW⟩
  | cons c rest ih =>
    refine (lockstep_runCompensationAttempts outcomes c _ 1 hW h).bind outcomes ?_
    intro result W asked asked' hW h
    rcases result with e | success
    · exact ⟨rfl, rfl, h, hW⟩
    · have hnote : (resumeWith state W).noteCompensation c success =
          resumeWith state (W.noteCompensation c success) := by
        cases success <;> simp [resumeWith, noteCompensation]
      have hsaveState : (W.noteCompensation c success).saveState = provider true := by
        cases success <;> exact hW
      show Lockstep state (Prog.run outcomes.reply (_ >>= _) _)
        (Prog.run outcomes.reply (_ >>= _) _)
      rw [hnote, Prog.run_bind, Prog.run_bind,
        run_saveCurrentState outcomes hsaveState,
        run_saveCurrentState outcomes (W := resumeWith state (W.noteCompensation c success))
          hsaveState]
      exact ih hsaveState h

/-- Two runs that have come to their end.  The status is told by the lists. -/
structure Apart (state : SagaState) (x y : Ended Ask Answer Unit × List Ask) : Prop where
  result : y.1.1 = x.1.1
  workflow : ∃ status, y.1.2 = { resumeWith state x.1.2 with status := status } ∧
    (state.failedCompensations = [] → status = x.1.2.status)
  called : calls y.2 = calls x.2

theorem Lockstep.apart {x y : Ended Ask Answer Unit × List Ask} (h : Lockstep state x y) :
    Apart state x y :=
  ⟨h.result, ⟨x.1.2.status, h.workflow, fun _ => rfl⟩, h.called⟩

theorem hasFailed_resumeWith (hfailed : W.failedStep.or state.failedStep = W.failedStep) :
    (resumeWith state W).hasFailed = W.hasFailed := by
  show (W.failedStep.or state.failedStep).any _ = W.failedStep.any _
  rw [hfailed]

theorem lockstep_conclude (hfailed : W.failedStep.or state.failedStep = W.failedStep)
    (hW : W.saveState = provider true) (h : calls asked' = calls asked) :
    Lockstep state (W.conclude.run outcomes.reply asked)
        ((resumeWith state W).conclude.run outcomes.reply asked') ∨
      ((W.conclude.run outcomes.reply asked).1.1 = .ok () ∧
        Apart state (W.conclude.run outcomes.reply asked)
          ((resumeWith state W).conclude.run outcomes.reply asked')) := by
  unfold conclude
  rw [hasFailed_resumeWith hfailed]
  rcases W.hasFailed with _ | _
  · left
    show Lockstep state (Prog.run outcomes.reply (_ >>= _) _)
      (Prog.run outcomes.reply (_ >>= _) _)
    rw [Prog.run_bind, Prog.run_bind,
      run_saveCurrentState outcomes (W := { W with status := .completed }) hW,
      run_saveCurrentState outcomes (W := { resumeWith state W with status := .completed }) hW]
    exact ⟨rfl, rfl, h, hW⟩
  · have hrun : Lockstep state (W.runCompensations.run outcomes.reply asked)
        ((resumeWith state W).runCompensations.run outcomes.reply asked') :=
      lockstep_compensateAll outcomes W.compensations.reverse
        (W := { W with status := .compensating }) hW h
    simp only [if_true, Prog.run_bind]
    generalize W.runCompensations.run outcomes.reply asked = x at hrun ⊢
    generalize (resumeWith state W).runCompensations.run outcomes.reply asked' = y at hrun ⊢
    obtain ⟨⟨result, W⟩, asked⟩ := x
    obtain ⟨⟨result', W'⟩, asked'⟩ := y
    obtain ⟨hresult, hworkflow, hcalls, hW⟩ := hrun
    obtain rfl : result' = result := hresult
    obtain rfl : W' = resumeWith state W := hworkflow
    rcases result' with e | _
    · exact .inl ⟨rfl, rfl, hcalls, hW⟩
    · right
      simp only [Prog.run_bind,
        run_saveCurrentState outcomes (W := { W with status := W.finalStatus }) hW,
        run_saveCurrentState outcomes
          (W := { resumeWith state W with status := (resumeWith state W).finalStatus }) hW]
      refine ⟨rfl, rfl, ⟨_, rfl, fun hnone => ?_⟩, hcalls⟩
      show finalStatus _ = finalStatus _
      unfold finalStatus resumeWith
      rw [hnone, List.nil_append]

end Lockstep

/-! ## What a record says -/

def SagaState.origin (state : SagaState) : String × String × Option String :=
  (state.sagaId, state.version, state.failedStep)

/-- A workflow with a provider, whose compensations are those of its steps. -/
def Prepared (W : SagaWorkflow Ask Answer) : Prop :=
  W.saveState = provider true ∧
    ∀ c ∈ W.compensations, ∃ j spec, c = CompensationSpec.toCompensation j spec

theorem Prepared.start {W : SagaWorkflow Ask Answer} (hW : Prepared W) (i j : ℕ)
    (spec : StepSpec) : Prepared (W.start i (spec.toStep j)) := by
  refine ⟨hW.1, fun c hc => ?_⟩
  rcases List.mem_append.mp hc with hc | hc
  · exact hW.2 c hc
  · obtain ⟨c', hc', rfl⟩ := Option.map_eq_some_iff.mp (Option.mem_toList.mp hc)
    exact ⟨j, c', rfl⟩

section Records

variable (outcomes : Outcomes) {α : Type} {W : SagaWorkflow Ask Answer} {asked : List Ask}
  {origin : String × String × Option String}

/-- A run that keeps what its records say besides their lists. -/
structure Keeps (origin : String × String × Option String) (asked : List Ask)
    (x : Ended Ask Answer α × List Ask) : Prop where
  workflow : x.1.2.toState.origin = origin
  prepared : Prepared x.1.2
  saved : ∀ state, .save state ∈ x.2 → .save state ∈ asked ∨ state.origin = origin

theorem Keeps.refl (hW : W.toState.origin = origin) (hprepared : Prepared W)
    (asked : List Ask) (result : Except Failure α) : Keeps origin asked ((result, W), asked) :=
  ⟨hW, hprepared, fun _ hmem => .inl hmem⟩

theorem Keeps.of_call {o : Ask} (ho : o.isCall = true) {x : Ended Ask Answer α × List Ask}
    (h : Keeps origin (o :: asked) x) : Keeps origin asked x := by
  refine ⟨h.workflow, h.prepared, fun state hmem => (h.saved state hmem).imp_left fun hold => ?_⟩
  rcases List.mem_cons.mp hold with rfl | hold
  · cases ho
  · exact hold

theorem Keeps.of_save {state : SagaState} (hstate : state.origin = origin)
    {x : Ended Ask Answer α × List Ask} (h : Keeps origin (.save state :: asked) x) :
    Keeps origin asked x := by
  refine ⟨h.workflow, h.prepared, fun state' hmem => ?_⟩
  rcases h.saved state' hmem with hold | horigin
  · rcases List.mem_cons.mp hold with heq | hold
    · cases heq
      exact .inr hstate
    · exact .inl hold
  · exact .inr horigin

theorem Keeps.bind {β : Type} {p : Prog Ask Answer Empty (Ended Ask Answer α)}
    (h : Keeps origin asked (p.run outcomes.reply asked))
    {f : Ended Ask Answer α → Prog Ask Answer Empty (Ended Ask Answer β)}
    (hf : ∀ (result : Except Failure α) (W : SagaWorkflow Ask Answer) (asked : List Ask),
      W.toState.origin = origin → Prepared W →
        Keeps origin asked ((f (result, W)).run outcomes.reply asked)) :
    Keeps origin asked ((p >>= f).run outcomes.reply asked) := by
  rw [Prog.run_bind]
  obtain ⟨hworkflow, hprepared, hpreparedd⟩ := hf _ _ (p.run outcomes.reply asked).2 h.workflow h.prepared
  refine ⟨hworkflow, hprepared, fun state hmem => ?_⟩
  rcases hpreparedd state hmem with hmem | horigin
  · exact h.saved state hmem
  · exact .inr horigin

theorem keeps_save (hW : W.toState.origin = origin) (hprepared : Prepared W)
    (asked : List Ask) :
    Keeps origin asked
      ((do let saved ← W.saveCurrentState
           pure (saved, W) : Prog Ask Answer Empty (Ended Ask Answer Unit)).run outcomes.reply
        asked) := by
  rw [Prog.run_bind, run_saveCurrentState outcomes hprepared.1]
  exact .of_save hW (.refl hW hprepared _ _)

theorem keeps_attemptStep (hW : W.toState.origin = origin) (hprepared : Prepared W)
    (i j : ℕ) (spec : StepSpec) (attempt : ℕ) (asked : List Ask) :
    Keeps origin asked
      ((W.attemptStep i (spec.toStep j) attempt).run outcomes.reply asked) := by
  unfold attemptStep
  have hexecute : ((spec.toStep j).execute (W.stepInput (spec.toStep j) attempt)).attempt.run
      outcomes.reply asked = (outcomes.step j attempt,
        .step j (W.stepInput (spec.toStep j) attempt) :: asked) :=
    congrArg (fun p => Prog.run outcomes.reply p _) (attempt_unwrap (outcomes.step j attempt))
  rw [Prog.run_bind, hexecute]
  refine Keeps.of_call (o := .step j (W.stepInput (spec.toStep j) attempt)) rfl ?_
  rcases outcomes.step j attempt with e | r
  · exact .refl hW hprepared _ _
  · exact keeps_save outcomes (W := W.complete i (spec.toStep j) r) hW hprepared _

theorem keeps_runAttempts (i j : ℕ) (spec : StepSpec) (left attempt : ℕ) (error : Option String)
    (hW : W.toState.origin = origin) (hprepared : Prepared W) (asked : List Ask) :
    Keeps origin asked
      ((runAttempts i (spec.toStep j) left attempt error W).run outcomes.reply asked) := by
  induction left generalizing attempt error W asked with
  | zero => exact .refl (W := W.fail i (spec.toStep j) error) hW hprepared _ _
  | succ left ih =>
    refine (keeps_attemptStep outcomes hW hprepared i j spec attempt asked).bind outcomes ?_
    intro result W asked hW hprepared
    cases result with
    | ok _ => exact .refl hW hprepared _ _
    | error e =>
      show Keeps origin asked (Prog.run outcomes.reply (if e.escapes then _ else _) _)
      split
      · exact .refl hW hprepared _ _
      · exact ih _ _ hW hprepared _

theorem keeps_executeSteps (steps : List (SagaStep Ask Answer))
    (hsteps : ∀ step ∈ steps, ∃ j spec, step = StepSpec.toStep j spec) (i : ℕ)
    (hW : W.toState.origin = origin) (hprepared : Prepared W) (asked : List Ask) :
    ∃ result W' failedStep asked',
      (executeSteps steps i W).run outcomes.reply asked =
        ((result, { W' with failedStep := failedStep }), asked') ∧
      Keeps origin asked ((result, W'), asked') := by
  induction steps generalizing i W asked with
  | nil => exact ⟨.ok (), W, W.failedStep, asked, rfl, .refl hW hprepared _ _⟩
  | cons step rest ih =>
    obtain ⟨j, spec, rfl⟩ := hsteps step List.mem_cons_self
    have hstart : Keeps origin asked
        ((W.executeStep i (spec.toStep j)).run outcomes.reply asked) :=
      keeps_runAttempts outcomes i j spec _ 1 none (W := W.start i (spec.toStep j)) hW
          (hprepared.start i j spec) asked
    rw [executeSteps, Prog.run_bind]
    generalize (W.executeStep i (spec.toStep j)).run outcomes.reply asked = x at hstart ⊢
    obtain ⟨⟨result, W⟩, asked'⟩ := x
    obtain ⟨hW, hprepared, hpreparedd⟩ := hstart
    rcases result with e | success
    · exact ⟨.error e, W, W.failedStep, asked', rfl, hW, hprepared, hpreparedd⟩
    · by_cases hfail : success = false ∧ (spec.toStep j).isOptional = false
      · simp only [if_pos hfail]
        exact ⟨.ok (), W, _, asked', rfl, hW, hprepared, hpreparedd⟩
      · simp only [if_neg hfail]
        obtain ⟨result, W', failedStep, asked'', hrun, hkeeps⟩ :=
          ih (fun step hstep => hsteps step (List.mem_cons_of_mem _ hstep)) (i + 1) hW hprepared
            asked'
        refine ⟨result, W', failedStep, asked'', hrun, hkeeps.workflow, hkeeps.prepared, ?_⟩
        intro state hmem
        rcases hkeeps.saved state hmem with hmem | horigin
        · exact hpreparedd state hmem
        · exact .inr horigin

theorem keeps_runCompensationAttempts (j : ℕ) (spec : CompensationSpec) (left attempt : ℕ)
    (hW : W.toState.origin = origin) (hprepared : Prepared W) (asked : List Ask) :
    Keeps origin asked
      ((runCompensationAttempts (spec.toCompensation j) left attempt W).run outcomes.reply
        asked) := by
  induction left generalizing attempt asked with
  | zero =>
    exact .refl (W := W.addError ("Compensation '" ++ spec.name ++ "' failed")) hW hprepared _ _
  | succ left ih =>
    have hexecute : ((spec.toCompensation j).execute
        (W.compensationInput (spec.toCompensation j) attempt)).attempt.run outcomes.reply asked =
        (outcomes.compensation j attempt,
          .compensate j (W.compensationInput (spec.toCompensation j) attempt) :: asked) :=
      congrArg (fun p => Prog.run outcomes.reply p _)
        (attempt_unwrap (outcomes.compensation j attempt))
    rw [runCompensationAttempts, Prog.run_bind, hexecute]
    refine Keeps.of_call
      (o := .compensate j (W.compensationInput (spec.toCompensation j) attempt)) rfl ?_
    cases outcomes.compensation j attempt with
    | ok success =>
      cases success with
      | true => exact .refl hW hprepared _ _
      | false => exact ih _ _
    | error e =>
      show Keeps origin _ (Prog.run outcomes.reply (if e.escapes then _ else _) _)
      split
      · exact .refl hW hprepared _ _
      · exact ih _ _

theorem keeps_compensateAll (cs : List (SagaCompensation Ask Answer))
    (hcs : ∀ c ∈ cs, ∃ j spec, c = CompensationSpec.toCompensation j spec)
    (hW : W.toState.origin = origin) (hprepared : Prepared W) (asked : List Ask) :
    Keeps origin asked ((compensateAll cs W).run outcomes.reply asked) := by
  induction cs generalizing W asked with
  | nil => exact .refl hW hprepared _ _
  | cons c rest ih =>
    obtain ⟨j, spec, rfl⟩ := hcs c List.mem_cons_self
    have hfirst : Keeps origin asked
        ((W.executeCompensation (spec.toCompensation j)).run outcomes.reply asked) :=
      keeps_runCompensationAttempts outcomes j spec _ 1 hW hprepared asked
    refine hfirst.bind outcomes ?_
    intro result W asked hW hprepared
    rcases result with e | success
    · exact .refl hW hprepared _ _
    · have hnote : (W.noteCompensation (spec.toCompensation j) success).toState.origin =
          origin := by
        cases success <;> exact hW
      have hprepared' : Prepared (W.noteCompensation (spec.toCompensation j) success) := by
        cases success <;> exact hprepared
      simp only [Prog.run_bind, run_saveCurrentState outcomes hprepared'.1]
      exact .of_save hnote
        (ih (fun c hc => hcs c (List.mem_cons_of_mem _ hc)) hnote hprepared' _)

theorem keeps_conclude (hW : W.toState.origin = origin) (hprepared : Prepared W)
    (asked : List Ask) : Keeps origin asked (W.conclude.run outcomes.reply asked) := by
  unfold conclude
  rcases W.hasFailed with _ | _
  · exact keeps_save outcomes (W := { W with status := .completed }) hW hprepared asked
  · have hrun : Keeps origin asked (W.runCompensations.run outcomes.reply asked) :=
      keeps_compensateAll outcomes W.compensations.reverse
        (fun c hc => hprepared.2 c (List.mem_reverse.mp hc)) (W := { W with status := .compensating })
        hW hprepared asked
    refine hrun.bind outcomes ?_
    intro result W asked hW hprepared
    rcases result with e | _
    · exact .refl hW hprepared _ _
    · exact keeps_save outcomes (W := { W with status := W.finalStatus }) hW hprepared asked

end Records

/-! ## Whole executions -/

section Executions

variable (outcomes : Outcomes) {state : SagaState} {W : SagaWorkflow Ask Answer}
  {asked asked' : List Ask}

/-- The `except` clause of `execute`. -/
def recover (ended : Ended Ask Answer Unit) : Prog Ask Answer Empty (Ended Ask Answer Unit) :=
  match ended.1 with
  | .ok () => pure (.ok (), ended.2)
  | .error e =>
    if e.escapes then pure (.error e, ended.2)
    else
      let W := { ended.2.addError e.message with status := .failed }
      W.runCompensations

/-- The start of `execute`. -/
def launch (W : SagaWorkflow Ask Answer) (context : SagaContext) : SagaWorkflow Ask Answer :=
  { W with status := .executing, context := context }

theorem run_execute (hW : W.saveState = provider true) (context : SagaContext)
    (asked : List Ask) :
    (W.execute context).run outcomes.reply asked =
      ((launch W context).executeBody >>= recover).run outcomes.reply
        (.save (launch W context).toState :: asked) := by
  unfold execute
  rw [Prog.run_bind, run_saveCurrentState outcomes (W := { W with
    status := .executing, context := context }) hW]
  rfl

theorem lockstep_recover (result : Except Failure Unit) (hW : W.saveState = provider true)
    (h : calls asked' = calls asked) :
    Lockstep state ((recover (result, W)).run outcomes.reply asked)
      ((recover (result, resumeWith state W)).run outcomes.reply asked') := by
  cases result with
  | ok _ => exact ⟨rfl, rfl, h, hW⟩
  | error e =>
    unfold recover
    show Lockstep state (Prog.run outcomes.reply (if e.escapes then _ else _) _)
      (Prog.run outcomes.reply (if e.escapes then _ else _) _)
    split
    · exact ⟨rfl, rfl, h, hW⟩
    · exact lockstep_compensateAll outcomes W.compensations.reverse
        (W := { W.addError e.message with status := .compensating }) hW h

theorem keeps_recover {origin : String × String × Option String} (result : Except Failure Unit)
    (hW : W.toState.origin = origin) (hprepared : Prepared W) (asked : List Ask) :
    Keeps origin asked ((recover (result, W)).run outcomes.reply asked) := by
  cases result with
  | ok _ => exact .refl hW hprepared _ _
  | error e =>
    unfold recover
    show Keeps origin asked (Prog.run outcomes.reply (if e.escapes then _ else _) _)
    split
    · exact .refl hW hprepared _ _
    · exact keeps_compensateAll outcomes W.compensations.reverse
        (fun c hc => hprepared.2 c (List.mem_reverse.mp hc))
        (W := { W.addError e.message with status := .compensating }) hW hprepared asked

/-- What `executeBody` and its `except` clause make of the steps. -/
def afterSteps (ended : Ended Ask Answer Unit) : Prog Ask Answer Empty (Ended Ask Answer Unit) :=
  (match ended.1 with
    | .error e => pure (.error e, ended.2)
    | .ok () => ended.2.conclude) >>= recover

theorem run_executeBody (W : SagaWorkflow Ask Answer) (asked : List Ask) :
    (W.executeBody >>= recover).run outcomes.reply asked =
      (executeSteps W.steps 0 W >>= afterSteps).run outcomes.reply asked := by
  rw [Prog.run_bind, executeBody, Prog.run_bind, Prog.run_bind]
  exact (Prog.run_bind _ _ _ _).symm

theorem keeps_afterSteps {origin : String × String × Option String}
    (result : Except Failure Unit) (hW : W.toState.origin = origin) (hprepared : Prepared W)
    (asked : List Ask) : Keeps origin asked ((afterSteps (result, W)).run outcomes.reply asked) := by
  refine Keeps.bind outcomes ?_ fun result W asked hW hprepared =>
    keeps_recover outcomes result hW hprepared asked
  rcases result with e | _
  · exact .refl hW hprepared _ _
  · exact keeps_conclude outcomes hW hprepared asked

theorem apart_afterSteps (hfailed : W.failedStep.or state.failedStep = W.failedStep)
    (result : Except Failure Unit) (hW : W.saveState = provider true)
    (h : calls asked' = calls asked) :
    Apart state ((afterSteps (result, W)).run outcomes.reply asked)
      ((afterSteps (result, resumeWith state W)).run outcomes.reply asked') := by
  rcases result with e | _
  · exact (lockstep_recover outcomes (.error e) hW h).apart
  · rcases lockstep_conclude outcomes hfailed hW h with hlockstep | ⟨hok, hapart⟩
    · refine (hlockstep.bind outcomes fun result W asked asked' hW h => ?_).apart
      exact lockstep_recover outcomes result hW h
    · unfold afterSteps
      have hok' := hapart.result.trans hok
      simp only [Prog.run_bind, recover, hok, hok']
      exact ⟨rfl, hapart.workflow, hapart.called⟩

theorem apart_execute (sagaId version : String) (specs : List StepSpec) (context : SagaContext)
    (hsaved : .save state ∈
      (((begun sagaId version specs context).execute context).run outcomes.reply []).2) :
    Apart state (((begun sagaId version specs context).execute context).run outcomes.reply [])
        (((resumed state specs context).execute context).run outcomes.reply []) ∧
      (((begun sagaId version specs context).execute context).run outcomes.reply
        []).1.2.failedStep.or state.failedStep =
      (((begun sagaId version specs context).execute context).run outcomes.reply
        []).1.2.failedStep := by
  have hsteps : ∀ step ∈ specs.mapIdx StepSpec.toStep, ∃ j spec, step = StepSpec.toStep j spec := by
    intro step hstep
    obtain ⟨j, hj, rfl⟩ := List.mem_mapIdx.mp hstep
    exact ⟨j, specs[j], rfl⟩
  have hprepared : Prepared (launch (begun sagaId version specs context) context) :=
    ⟨rfl, fun c hc => absurd hc List.not_mem_nil⟩
  -- the whole run, as far as the end of the steps
  obtain ⟨result, W, failedStep, asked, hrun, hkeeps⟩ :=
    keeps_executeSteps outcomes (specs.mapIdx StepSpec.toStep) hsteps 0
      (W := launch (begun sagaId version specs context) context) rfl hprepared
      [.save (launch (begun sagaId version specs context) context).toState]
  have hwhole : ((begun sagaId version specs context).execute context).run outcomes.reply [] =
      (afterSteps (result, { W with failedStep := failedStep })).run outcomes.reply asked := by
    rw [run_execute outcomes rfl, run_executeBody, Prog.run_bind]
    exact congrArg (fun x => (afterSteps x.1).run outcomes.reply x.2) hrun
  have hafter := keeps_afterSteps outcomes (W := { W with failedStep := failedStep }) result rfl
    hkeeps.prepared asked
  -- what the record says of the workflow
  have horigin : state.origin = (sagaId, version, none) ∨
      state.origin = (sagaId, version, failedStep) := by
    have hW : (W.sagaId, W.version, W.failedStep) = (sagaId, version, none) := hkeeps.workflow
    simp only [Prod.mk.injEq] at hW
    rw [hwhole] at hsaved
    rcases hafter.saved state hsaved with hsaved | horigin
    · rcases hkeeps.saved state hsaved with hsaved | horigin
      · obtain rfl : state = _ := by simpa using hsaved
        exact .inl rfl
      · exact .inl horigin
    · refine .inr (horigin.trans ?_)
      show (W.sagaId, W.version, failedStep) = _
      rw [hW.1, hW.2.1]
  obtain ⟨hid, hversion, hfailed⟩ : state.sagaId = sagaId ∧ state.version = version ∧
      failedStep.or state.failedStep = failedStep := by
    rcases horigin with horigin | horigin <;>
      (simp only [SagaState.origin, Prod.mk.injEq] at horigin
       obtain ⟨hid, hversion, hfailed⟩ := horigin
       refine ⟨hid, hversion, ?_⟩
       rw [hfailed]
       cases failedStep <;> rfl)
  have hend : (((begun sagaId version specs context).execute context).run outcomes.reply
      []).1.2.failedStep = failedStep := by
    rw [hwhole]
    exact congrArg (fun o => o.2.2) hafter.workflow
  refine ⟨?_, by rw [hend, hfailed]⟩
  -- the resumed run, in lockstep
  have hlaunch : launch (resumed state specs context) context =
      resumeWith state (launch (begun sagaId version specs context) context) := by
    subst hid hversion
    simp [launch, resumed, resume, resumeWith, begun, workflow, provider]
  have hlockstep := lockstep_executeSteps outcomes state
    (launch (begun sagaId version specs context) context) (specs.mapIdx StepSpec.toStep) 0
    [.save (launch (begun sagaId version specs context) context).toState]
    [.save (launch (resumed state specs context) context).toState] rfl rfl
  rw [hwhole, run_execute outcomes rfl, run_executeBody, Prog.run_bind]
  have hresumed : executeSteps (launch (resumed state specs context) context).steps 0
      (launch (resumed state specs context) context) = executeSteps (specs.mapIdx StepSpec.toStep)
        0 (resumeWith state (launch (begun sagaId version specs context) context)) :=
    congrArg (executeSteps (specs.mapIdx StepSpec.toStep) 0) hlaunch
  rw [hresumed]
  rw [hrun] at hlockstep
  generalize Prog.run outcomes.reply (executeSteps (specs.mapIdx StepSpec.toStep) 0
    (resumeWith state (launch (begun sagaId version specs context) context)))
    [.save (launch (resumed state specs context) context).toState] = y at hlockstep ⊢
  obtain ⟨⟨result', W'⟩, asked'⟩ := y
  obtain ⟨hresult, hworkflow, hcalls, hsave⟩ := hlockstep
  obtain rfl : result' = result := hresult
  obtain rfl : W' = resumeWith state { W with failedStep := failedStep } := hworkflow
  exact apart_afterSteps outcomes hfailed result' hsave hcalls

theorem suffix_run {α : Type} (p : Prog Ask Answer Empty α) (asked : List Ask) :
    asked <:+ (p.run outcomes.reply asked).2 := by
  induction p generalizing asked with
  | done a => exact List.suffix_refl asked
  | raise e => exact e.elim
  | await o k ih => exact (List.suffix_cons o asked).trans (ih _ _)

theorem mem_of_lastSaved (h : lastSaved asked = some state) : .save state ∈ asked := by
  obtain ⟨o, ho, hstate⟩ := List.exists_of_findSome?_eq_some h
  cases o with
  | save state' =>
    obtain rfl : state' = state := Option.some.inj hstate
    exact ho
  | step i input => cases hstate
  | compensate i input => cases hstate

theorem compensations_calls (asked : List Ask) :
    compensations (calls asked) = compensations asked := by
  unfold compensations calls
  rw [List.filter_filter]
  refine List.filter_congr fun o _ => ?_
  cases o <;> rfl

end Executions

/-- **A resumed saga continues the stopped one exactly when there was nothing to continue**: for
every list of steps, all outcomes and every point where the run is stopped, exactly when the state
that was saved last lists no step and no compensation. -/
theorem continues_iff (outcomes : Outcomes) (sagaId version : String) (specs : List StepSpec)
    (context : SagaContext) {asked : List Ask} {state : SagaState}
    (hstop : Exec outcomes.asks ((begun sagaId version specs context).execute context) [] .stopped
      asked) (hlast : lastSaved asked = some state) :
    Continues specs state
        (((begun sagaId version specs context).execute context).run outcomes.reply [])
        (((resumed state specs context).execute context).run outcomes.reply []) ↔
      state.completedSteps = [] ∧ state.compensatedSteps = [] ∧
        state.failedCompensations = [] := by
  have hsaved : .save state ∈
      (((begun sagaId version specs context).execute context).run outcomes.reply []).2 := by
    obtain ⟨q, hq⟩ := hstop.run_of_stopped outcomes.reply
      fun _ _ _ _ hstep => Prod.ext hstep.1 hstep.2
    rw [← hq]
    exact (suffix_run outcomes q asked).mem (mem_of_lastSaved hlast)
  obtain ⟨hapart, hfailed⟩ := apart_execute outcomes sagaId version specs context hsaved
  generalize ((begun sagaId version specs context).execute context).run outcomes.reply [] = whole
    at hapart hfailed ⊢
  generalize ((resumed state specs context).execute context).run outcomes.reply [] = again
    at hapart ⊢
  obtain ⟨hresult, ⟨status, hworkflow, hstatus⟩, hcalls⟩ := hapart
  constructor
  · intro h
    have hbuild := h.outcome.2
    rw [hworkflow] at hbuild
    refine ⟨?_, ?_, ?_⟩
    · exact List.append_left_eq_self.mp (congrArg SagaResult.completedSteps hbuild)
    · exact List.append_left_eq_self.mp (congrArg SagaResult.compensatedSteps hbuild)
    · exact List.append_left_eq_self.mp (congrArg SagaResult.failedCompensations hbuild)
  · rintro ⟨hcompleted, hcompensated, hfailedCompensations⟩
    refine ⟨⟨hresult, ?_⟩, ?_, ?_, ?_⟩
    · rw [hworkflow, hstatus hfailedCompensations]
      unfold resumeWith buildResult
      rw [hcompleted, hcompensated, hfailedCompensations, hfailed]
      rfl
    · intro i spec input hspec hmem
      rw [hcompleted] at hmem
      cases hmem
    · intro i input hmem
      have hcall : .step i input ∈ calls again.2 := List.mem_filter.mpr ⟨hmem, rfl⟩
      rw [hcalls] at hcall
      exact (List.mem_filter.mp hcall).1
    · rw [← compensations_calls again.2, hcalls, compensations_calls, hcompensated]
      exact (List.filter_eq_self.mpr fun o _ => by simp).symm

/-! ## A booking, stopped after its first step -/

def allGood : Outcomes where
  step _ _ := .ok .null
  compensation _ _ := .ok true

def booking : List StepSpec := [{ name := "reserve" }, { name := "pay" }]

def bookingContext : SagaContext := { constitutionalHash := "608508a9bd224290" }

def reserveInput : StepInput where
  sagaId := "order-7"
  stepName := "reserve"
  attempt := 1
  context := .empty
  metadata := .empty
  constitutionalHash := "608508a9bd224290"

theorem booking_started : ∃ asked state, Exec allGood.asks
    ((begun "order-7" "1.0.0" booking bookingContext).execute bookingContext) [] .stopped asked ∧
    lastSaved asked = some state ∧ state.completedSteps = [] ∧ state.compensatedSteps = [] ∧
    state.failedCompensations = [] :=
  ⟨_, _, .await ⟨rfl, rfl⟩ (.stop _ _), rfl, rfl, rfl, rfl⟩

theorem continues_iff_booking : ∃ state, Continues booking state
    (((begun "order-7" "1.0.0" booking bookingContext).execute bookingContext).run
      allGood.reply [])
    (((resumed state booking bookingContext).execute bookingContext).run allGood.reply []) := by
  obtain ⟨asked, state, hstop, hlast, hempty⟩ := booking_started
  exact ⟨state, (continues_iff allGood "order-7" "1.0.0" booking bookingContext hstop hlast).mpr
    hempty⟩

/-- Stopped after the first step was recorded; the resumed run calls it again. -/
theorem not_continues_booking : ∃ asked state, Exec allGood.asks
    ((begun "order-7" "1.0.0" booking bookingContext).execute bookingContext) [] .stopped asked ∧
    lastSaved asked = some state ∧ ¬ Continues booking state
      (((begun "order-7" "1.0.0" booking bookingContext).execute bookingContext).run
        allGood.reply [])
      (((resumed state booking bookingContext).execute bookingContext).run allGood.reply []) := by
  refine ⟨_, _, .await ⟨rfl, rfl⟩ (.await ⟨rfl, rfl⟩ (.await ⟨rfl, rfl⟩ (.stop _ _))), rfl, ?_⟩
  intro h
  refine h.notExecutedAgain 0 _ reserveInput rfl (List.mem_singleton.mpr rfl) ?_
  -- the latest questions: the last save, the second step and its save, the first step and its save
  exact List.mem_of_getElem? (i := 4) rfl

end EnhancedAgentBus.Workflows
