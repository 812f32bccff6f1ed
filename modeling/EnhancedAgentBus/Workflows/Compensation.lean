import EnhancedAgentBus.Workflows.ConstitutionalSaga

/-!
# The compensation law of the constitutional saga workflow

What an execution promises of its steps, its compensations and its status (`Lawful`), for every list
of steps and every answer of the steps, the compensations and the persistence provider.

Each save stands in a `try` block that is not its own.  A save that fails after a step has returned
counts as a failure of the step, which is then called again; one that fails among the compensations,
or at the end, is caught outside, and *all* compensations run once more, after which the status stays
`COMPENSATING`; at the start it leaves `execute`.  An exception outside
`_CONSTITUTIONAL_SAGA_OPERATION_ERRORS` leaves `execute` wherever it is raised.  Besides, the failure
of a step without a name is not seen, and a compensation without attempts is not attempted.
`lawful_iff_regular` says that there is no other way to break the law.
-/

namespace EnhancedAgentBus.Workflows

open Async

/-! ## Sagas whose functions answer anything -/

structure CompensationSpec where
  name : String
  idempotencyKey : Option String := none
  maxRetries : ℤ := 3

structure StepSpec where
  name : String
  compensation : Option CompensationSpec := none
  timeoutSeconds : ℤ := 30
  maxRetries : ℤ := 3
  isOptional : Bool := false

/-- What a workflow awaits: the function of the step at a place, that of its compensation, or the
persistence provider. -/
inductive Ask where
  | step (i : ℕ) (input : StepInput)
  | compensate (i : ℕ) (input : CompensationInput)
  | save (state : SagaState)

def Answer : Ask → Type
  | .step _ _ => Except Failure Json
  | .compensate _ _ => Except Failure Bool
  | .save _ => Except Failure Unit

def unwrap {Op : Type} {Resp : Op → Type} {A : Type} : Except Failure A → Prog Op Resp Failure A
  | .ok a => .done a
  | .error e => .raise e

def CompensationSpec.toCompensation (i : ℕ) (spec : CompensationSpec) :
    SagaCompensation Ask Answer where
  name := spec.name
  execute := fun input => .await (.compensate i input) fun r => unwrap (A := Bool) r
  idempotencyKey := spec.idempotencyKey
  maxRetries := spec.maxRetries

def StepSpec.toStep (i : ℕ) (spec : StepSpec) : SagaStep Ask Answer where
  name := spec.name
  execute := fun input => .await (.step i input) fun r => unwrap (A := Json) r
  compensation := spec.compensation.map (CompensationSpec.toCompensation i)
  timeoutSeconds := spec.timeoutSeconds
  maxRetries := spec.maxRetries
  isOptional := spec.isOptional

def provider (persistent : Bool) : Option (SagaState → Prog Ask Answer Failure Unit) :=
  if persistent then some fun state => .await (.save state) fun r => unwrap (A := Unit) r else none

def workflow (sagaId : String) (persistent : Bool) (specs : List StepSpec)
    (context : SagaContext) : SagaWorkflow Ask Answer where
  sagaId := sagaId
  saveState := provider persistent
  steps := specs.mapIdx StepSpec.toStep
  context := context

/-! ## What is seen of an execution -/

/-- One answer: a step returned or raised, a compensation succeeded or did not, a save went through
or did not.  A failure says whether it is outside `_CONSTITUTIONAL_SAGA_OPERATION_ERRORS`. -/
inductive Event where
  | returned (i attempt : ℕ)
  | erred (i : ℕ) (escapes : Bool)
  | compensated (i : ℕ)
  | notCompensated (i : ℕ) (escapes : Bool)
  | saved
  | unsaved (escapes : Bool)
  deriving DecidableEq

def observe : (o : Ask) → Answer o → Event
  | .step i input, .ok _ => .returned i input.attempt
  | .step i _, .error e => .erred i e.escapes
  | .compensate i _, .ok true => .compensated i
  | .compensate i _, .ok false => .notCompensated i false
  | .compensate i _, .error e => .notCompensated i e.escapes
  | .save _, .ok _ => .saved
  | .save _, .error e => .unsaved e.escapes

/-- Anything may be answered; what was answered is kept, latest first. -/
def anyAnswer (events : List Event) (o : Ask) (r : Answer o) (events' : List Event) : Prop :=
  events' = observe o r :: events

namespace Event

def called : Event → Option ℕ
  | returned i _ | erred i _ => some i
  | _ => none

def compensates : Event → Option ℕ
  | compensated i | notCompensated i _ => some i
  | _ => none

def returns : Event → Option ℕ
  | returned i _ => some i
  | _ => none

end Event

/-- What holds of every event, given the events before it. -/
def Always (P : Event → List Event → Prop) : List Event → Prop
  | [] => True
  | e :: events => P e events ∧ Always P events

/-- A step has returned, and its save went through. -/
def Passed (persistent : Bool) (i : ℕ) : List Event → Prop
  | [] => False
  | e :: events => Passed persistent i events ∨
      (if persistent then e = .saved ∧ ∃ k, events.head? = some (.returned i k)
        else ∃ k, e = .returned i k)

def NoRecall : List Event → Prop :=
  Always fun e events => ∀ i ∈ e.called, ∀ k, .returned i k ∉ events

/-- Compensations are run in the reverse order of the steps. -/
def InReverse : List Event → Prop :=
  Always fun e events => ∀ i ∈ e.compensates, ∀ e' ∈ events, ∀ j ∈ e'.compensates, i ≤ j

def NotAgain : List Event → Prop :=
  Always fun e events => ∀ i ∈ e.compensates, .compensated i ∉ events

/-- **The law** for an execution that has ended. -/
structure Lawful (specs : List StepSpec) (result : Except Failure Unit)
    (W : SagaWorkflow Ask Answer) (events : List Event) : Prop where
  /-- It returns with a terminal status. -/
  terminal : result = .ok () ∧
    W.status ∈ [SagaStatus.completed, .compensated, .partiallyCompensated, .failed]
  /-- It completes exactly when every step that is not optional did. -/
  completed : W.status = .completed ↔ ∀ i spec, specs[i]? = some spec → spec.isOptional = false →
    W.stepStatus i = .completed
  /-- Then no compensation was run. -/
  quiet : W.status = .completed → ∀ e ∈ events, e.compensates = none
  /-- Otherwise, those of all steps that were started were run. -/
  attempted : W.status ≠ .completed → ∀ i spec, specs[i]? = some spec →
    spec.compensation.isSome = true → W.stepStatus i ≠ .pending →
    ∃ e ∈ events, i ∈ e.compensates
  inReverse : InReverse events
  notAgain : NotAgain events
  /-- `COMPENSATED` says that all of them succeeded. -/
  truthful : W.status = .compensated → ∀ i spec, specs[i]? = some spec →
    spec.compensation.isSome = true → W.stepStatus i ≠ .pending → .compensated i ∈ events
  noRecall : NoRecall events

/-! ## What is asked of the answers -/

/-- No exception escapes, and a save fails only after the last attempt of a step. -/
def Smooth (specs : List StepSpec) : List Event → Prop :=
  Always fun e events => match e with
    | .erred _ escapes => escapes = false
    | .notCompensated _ escapes => escapes = false
    | .unsaved escapes => escapes = false ∧ ∃ i k spec, events.head? = some (.returned i k) ∧
        specs[i]? = some spec ∧ spec.maxRetries ≤ k
    | _ => True

/-- The steps before a place have passed, but for optional ones. -/
def Reached (persistent : Bool) (specs : List StepSpec) (events : List Event) (i : ℕ) : Prop :=
  ∀ j < i, ∀ spec, specs[j]? = some spec → spec.isOptional = false → Passed persistent j events

structure Regular (persistent : Bool) (specs : List StepSpec) (events : List Event) : Prop where
  smooth : Smooth specs events
  /-- A step without a name passes, unless it is optional. -/
  named : ∀ i spec, specs[i]? = some spec → spec.isOptional = false → spec.name = "" →
    Reached persistent specs events i → Passed persistent i events
  /-- If a step was started whose compensation has no attempts, then all steps pass that are not
  optional. -/
  retried : ∀ i spec compensation, specs[i]? = some spec → spec.compensation = some compensation →
    compensation.maxRetries ≤ 0 → Reached persistent specs events i →
    ∀ j spec', specs[j]? = some spec' → spec'.isOptional = false → Passed persistent j events

/-! ## What is awaited, one by one -/

/-- What holds when a method of the workflow has ended, whatever was answered. -/
abbrev Ends {α : Type} (p : Prog Ask Answer Empty α) (events : List Event)
    (Q : α → List Event → Prop) : Prop :=
  Safe anyAnswer (fun _ _ => True) p events Q fun e _ => e.elim

theorem Ends.mono {α : Type} {p : Prog Ask Answer Empty α} {events : List Event}
    {Q Q' : α → List Event → Prop} (h : Ends p events Q)
    (hQ : ∀ a events', Q a events' → Q' a events') : Ends p events Q' :=
  Safe.mono h hQ fun e _ => e.elim

theorem ends_bind {α β : Type} (p : Prog Ask Answer Empty α) (f : α → Prog Ask Answer Empty β)
    (events : List Event) (Q : β → List Event → Prop) :
    Ends (p >>= f) events Q ↔ Ends p events fun a events' => Ends (f a) events' Q :=
  safe_bind p f

theorem attempt_unwrap {Op : Type} {Resp : Op → Type} {A : Type} (r : Except Failure A) :
    (unwrap r : Prog Op Resp Failure A).attempt = (.done r : Prog Op Resp Empty _) := by
  cases r <;> rfl

theorem ends_await {α : Type} (o : Ask) (p : Prog Ask Answer Empty α)
    (a : Answer o → α) (hp : p = .await o fun r => .done (a r)) (events : List Event)
    (Q : α → List Event → Prop) : Ends p events Q ↔ ∀ r, Q (a r) (observe o r :: events) := by
  subst hp
  simp only [safe_await, safe_done, anyAnswer, true_and, forall_eq]

theorem ends_step (i : ℕ) (spec : StepSpec) (input : StepInput) (events : List Event)
    (Q : Except Failure Json → List Event → Prop) :
    Ends ((spec.toStep i).execute input).attempt events Q ↔
      (∀ r, Q (.ok r) (.returned i input.attempt :: events)) ∧
      ∀ e, Q (.error e) (.erred i e.escapes :: events) := by
  have hanswer := ends_await (.step i input) ((spec.toStep i).execute input).attempt (fun r => r)
    (congrArg (Prog.await _) (funext fun r => attempt_unwrap (A := Json) r)) events Q
  rw [hanswer]
  constructor
  · exact fun h => ⟨fun r => h (.ok r), fun e => h (.error e)⟩
  · intro h r
    cases r with
    | ok r => exact h.1 r
    | error e => exact h.2 e

theorem ends_compensate (i : ℕ) (spec : CompensationSpec) (input : CompensationInput)
    (events : List Event) (Q : Except Failure Bool → List Event → Prop) :
    Ends ((spec.toCompensation i).execute input).attempt events Q ↔
      Q (.ok true) (.compensated i :: events) ∧
      Q (.ok false) (.notCompensated i false :: events) ∧
      ∀ e, Q (.error e) (.notCompensated i e.escapes :: events) := by
  have hanswer := ends_await (.compensate i input)
    ((spec.toCompensation i).execute input).attempt (fun r => r)
    (congrArg (Prog.await _) (funext fun r => attempt_unwrap (A := Bool) r)) events Q
  rw [hanswer]
  constructor
  · exact fun h => ⟨h (.ok true), h (.ok false), fun e => h (.error e)⟩
  · intro h r
    cases r with
    | ok success =>
      cases success with
      | true => exact h.1
      | false => exact h.2.1
    | error e => exact h.2.2 e

theorem ends_save {W : SagaWorkflow Ask Answer} {persistent : Bool}
    (hW : W.saveState = provider persistent) (events : List Event)
    (Q : Except Failure Unit → List Event → Prop) :
    Ends W.saveCurrentState events Q ↔
      if persistent then Q (.ok ()) (.saved :: events) ∧
        ∀ e, Q (.error e) (.unsaved e.escapes :: events)
      else Q (.ok ()) events := by
  unfold SagaWorkflow.saveCurrentState
  rw [hW]
  rcases persistent with _ | _
  · rfl
  · have hanswer := ends_await (.save W.toState) _ (fun r => r)
      (congrArg (Prog.await (Ask.save W.toState)) (funext fun r => attempt_unwrap (A := Unit) r))
      events Q
    refine hanswer.trans ?_
    rw [if_pos rfl]
    constructor
    · exact fun h => ⟨h (.ok ()), fun e => h (.error e)⟩
    · intro h r
      cases r with
      | ok r => exact h.1
      | error e => exact h.2 e

/-! ## The steps -/

variable {persistent : Bool} {specs : List StepSpec} {i : ℕ} {W : SagaWorkflow Ask Answer}
  {events : List Event}

/-- The compensations that are registered: those of the steps before a place, in order. -/
def Registered (specs : List StepSpec) (i : ℕ) (compensations : List (SagaCompensation Ask Answer)) :
    Prop :=
  ∃ l : List (ℕ × CompensationSpec),
    compensations = l.map (fun c => c.2.toCompensation c.1) ∧
    l.Pairwise (fun c c' => c.1 < c'.1) ∧
    ∀ j c, (j, c) ∈ l ↔ j < i ∧ ∃ spec, specs[j]? = some spec ∧ spec.compensation = some c

theorem registered_zero : Registered specs 0 [] :=
  ⟨[], rfl, .nil, fun j _ => iff_of_false List.not_mem_nil fun h => absurd h.1 (Nat.not_lt_zero j)⟩

theorem Registered.start {compensations : List (SagaCompensation Ask Answer)}
    (h : Registered specs i compensations) {spec : StepSpec} (hspec : specs[i]? = some spec) :
    Registered specs (i + 1) (compensations ++ (spec.toStep i).compensation.toList) := by
  obtain ⟨l, rfl, hsorted, hmem⟩ := h
  refine ⟨l ++ (spec.compensation.map fun c => (i, c)).toList, ?_, ?_, fun j c => ?_⟩
  · rw [List.map_append, StepSpec.toStep]
    cases spec.compensation <;> rfl
  · rw [List.pairwise_append]
    refine ⟨hsorted, ?_, ?_⟩
    · rcases spec.compensation with _ | c
      · exact .nil
      · exact List.pairwise_singleton _ _
    · rintro ⟨j, c⟩ hc c' hc'
      obtain ⟨c'', -, rfl⟩ : ∃ c'', spec.compensation = some c'' ∧ (i, c'') = c' := by
        simpa using hc'
      exact ((hmem j c).mp hc).1
  · rw [List.mem_append, hmem]
    constructor
    · rintro (⟨hj, hspec'⟩ | hown)
      · exact ⟨Nat.lt_succ_of_lt hj, hspec'⟩
      · obtain ⟨c', hc', heq⟩ : ∃ c', spec.compensation = some c' ∧ (i, c') = (j, c) := by
          simpa using hown
        cases heq
        exact ⟨Nat.lt_succ_self _, spec, hspec, hc'⟩
    · rintro ⟨hj, spec', hspec', hc⟩
      rcases Nat.lt_succ_iff_lt_or_eq.mp hj with hlt | rfl
      · exact .inl ⟨hlt, spec', hspec', hc⟩
      · rw [hspec] at hspec'
        cases hspec'
        exact .inr (by simp [hc])

/-- What holds of a workflow that has done the steps before a place, and waits with the others. -/
structure Underway (persistent : Bool) (specs : List StepSpec) (i : ℕ)
    (W : SagaWorkflow Ask Answer) (events : List Event) : Prop where
  saveState : W.saveState = provider persistent
  registered : Registered specs i W.compensations
  failedStep : W.failedStep = none
  failedCompensations : W.failedCompensations = []
  done : ∀ j < i, W.stepStatus j = .completed ∧ Passed persistent j events ∨
    W.stepStatus j = .failed ∧ ¬ Passed persistent j events
  waiting : ∀ j, i ≤ j → W.stepStatus j = .pending ∧ ¬ Passed persistent j events ∧
    ∀ k, .returned j k ∉ events
  quiet : ∀ e ∈ events, e.compensates = none
  head : persistent = true → ∀ j k, events.head? ≠ some (.returned j k)
  smooth : Smooth specs events ↔ NoRecall events

/-- What holds between the attempts of the step at a place, when so many are left. -/
structure Trying (persistent : Bool) (specs : List StepSpec) (i left : ℕ)
    (W : SagaWorkflow Ask Answer) (events : List Event) : Prop where
  saveState : W.saveState = provider persistent
  registered : Registered specs (i + 1) W.compensations
  failedStep : W.failedStep = none
  failedCompensations : W.failedCompensations = []
  done : ∀ j < i, W.stepStatus j = .completed ∧ Passed persistent j events ∨
    W.stepStatus j = .failed ∧ ¬ Passed persistent j events
  own : ¬ Passed persistent i events
  waiting : ∀ j, i < j → W.stepStatus j = .pending ∧ ¬ Passed persistent j events ∧
    ∀ k, .returned j k ∉ events
  quiet : ∀ e ∈ events, e.compensates = none
  head : persistent = true → ∀ j k, events.head? ≠ some (.returned j k)
  /-- With attempts left, the law holds so far only if the step has not returned yet. -/
  smooth : Smooth specs events ↔
    NoRecall events ∧ (0 < left → ∀ k, .returned i k ∉ events)

theorem Underway.start (h : Underway persistent specs i W events) {spec : StepSpec}
    (hspec : specs[i]? = some spec) (left : ℕ) :
    Trying persistent specs i left (W.start i (spec.toStep i)) events where
  saveState := h.saveState
  registered := h.registered.start hspec
  failedStep := h.failedStep
  failedCompensations := h.failedCompensations
  done := by
    intro j hj
    have hne : (W.start i (spec.toStep i)).stepStatus j = W.stepStatus j :=
      Function.update_of_ne (Nat.ne_of_lt hj) _ _
    rw [hne]
    exact h.done j hj
  own := (h.waiting i (Nat.le_refl i)).2.1
  waiting := by
    intro j hj
    have hne : (W.start i (spec.toStep i)).stepStatus j = W.stepStatus j :=
      Function.update_of_ne (Nat.ne_of_gt hj) _ _
    rw [hne]
    exact h.waiting j (Nat.le_of_lt hj)
  quiet := h.quiet
  head := h.head
  smooth := by
    rw [h.smooth]
    exact ⟨fun hnone => ⟨hnone, fun _ => (h.waiting i (Nat.le_refl i)).2.2⟩, fun h => h.1⟩

theorem passed_of_own {own : List Event} (hown : ∀ e ∈ own, ∀ j k, e = .returned j k → j = i)
    {j : ℕ} (hj : j ≠ i) (hhead : persistent = true → ∀ k, events.head? ≠ some (.returned j k)) :
    Passed persistent j (own ++ events) ↔ Passed persistent j events := by
  induction own with
  | nil => rfl
  | cons e own ih =>
    have hrest := ih fun e' he' => hown e' (List.mem_cons_of_mem e he')
    rw [List.cons_append, Passed, hrest, or_iff_left_iff_imp]
    intro hnew
    exfalso
    rcases persistent with _ | _
    · obtain ⟨k, rfl⟩ := hnew
      exact hj (hown _ List.mem_cons_self j k rfl)
    · obtain ⟨-, k, hhead'⟩ := hnew
      rcases own with _ | ⟨e', own⟩
      · exact hhead rfl k hhead'
      · obtain rfl : e' = .returned j k := Option.some.inj hhead'
        exact hj (hown _ (List.mem_cons_of_mem e List.mem_cons_self) j k rfl)

def Own (i : ℕ) (own : List Event) : Prop :=
  ∀ e ∈ own, e.compensates = none ∧ ∀ j ∈ e.returns, j = i

theorem Own.returned {own : List Event} (h : Own i own) :
    ∀ e ∈ own, ∀ j k, e = .returned j k → j = i := by
  rintro _ he j k rfl
  exact (h _ he).2 j rfl

namespace Trying

variable {left : ℕ}

theorem frame (h : Trying persistent specs i left W events) {own : List Event} (hown : Own i own)
    {status : StepStatus} {W' : SagaWorkflow Ask Answer}
    (hstatus : W'.stepStatus = Function.update W.stepStatus i status) :
    (∀ j < i, W'.stepStatus j = .completed ∧ Passed persistent j (own ++ events) ∨
      W'.stepStatus j = .failed ∧ ¬ Passed persistent j (own ++ events)) ∧
    (∀ j, i < j → W'.stepStatus j = .pending ∧ ¬ Passed persistent j (own ++ events) ∧
      ∀ k, .returned j k ∉ own ++ events) ∧
    ∀ e ∈ own ++ events, e.compensates = none := by
  refine ⟨fun j hj => ?_, fun j hj => ?_, fun e he => ?_⟩
  · have hne := Nat.ne_of_lt hj
    rw [hstatus, Function.update_of_ne hne,
      passed_of_own hown.returned hne fun hpersistent => h.head hpersistent j]
    exact h.done j hj
  · have hne := Nat.ne_of_gt hj
    rw [hstatus, Function.update_of_ne hne,
      passed_of_own hown.returned hne fun hpersistent => h.head hpersistent j]
    obtain ⟨hpending, hnotPassed, hnotReturned⟩ := h.waiting j hj
    refine ⟨hpending, hnotPassed, fun k hmem => ?_⟩
    rcases List.mem_append.mp hmem with hmem | hmem
    · exact hne (hown.returned _ hmem j k rfl)
    · exact hnotReturned k hmem
  · rcases List.mem_append.mp he with he | he
    · exact (hown e he).1
    · exact h.quiet e he

theorem again (h : Trying persistent specs i left W events) (own : List Event)
    (status : StepStatus) (W' : SagaWorkflow Ask Answer) (hown : Own i own)
    (hstatus : W'.stepStatus = Function.update W.stepStatus i status)
    (hrest : W'.saveState = W.saveState ∧ W'.compensations = W.compensations ∧
      W'.failedStep = W.failedStep ∧ W'.failedCompensations = W.failedCompensations)
    (hnotPassed : ¬ Passed persistent i (own ++ events))
    (hhead : persistent = true → ∀ j k, (own ++ events).head? ≠ some (.returned j k)) {left' : ℕ}
    (hsmooth : Smooth specs (own ++ events) ↔
      NoRecall (own ++ events) ∧ (0 < left' → ∀ k, .returned i k ∉ own ++ events)) :
    Trying persistent specs i left' W' (own ++ events) := by
  obtain ⟨hdone, hwaiting, hquiet⟩ := h.frame hown hstatus
  obtain ⟨hsaveState, hcompensations, hfailedStep, hfailedCompensations⟩ := hrest
  exact {
    saveState := hsaveState.trans h.saveState
    registered := hcompensations ▸ h.registered
    failedStep := hfailedStep.trans h.failedStep
    failedCompensations := hfailedCompensations.trans h.failedCompensations
    done := hdone
    own := hnotPassed
    waiting := hwaiting
    quiet := hquiet
    head := hhead
    smooth := hsmooth }

theorem finish (h : Trying persistent specs i left W events) (own : List Event)
    (status : StepStatus) (W' : SagaWorkflow Ask Answer) (hown : Own i own)
    (hstatus : W'.stepStatus = Function.update W.stepStatus i status)
    (hrest : W'.saveState = W.saveState ∧ W'.compensations = W.compensations ∧
      W'.failedStep = W.failedStep ∧ W'.failedCompensations = W.failedCompensations)
    (hpassed : status = .completed ∧ Passed persistent i (own ++ events) ∨
      status = .failed ∧ ¬ Passed persistent i (own ++ events))
    (hhead : persistent = true → ∀ j k, (own ++ events).head? ≠ some (.returned j k))
    (hsmooth : Smooth specs (own ++ events) ↔ NoRecall (own ++ events)) :
    Underway persistent specs (i + 1) W' (own ++ events) := by
  obtain ⟨hdone, hwaiting, hquiet⟩ := h.frame hown hstatus
  obtain ⟨hsaveState, hcompensations, hfailedStep, hfailedCompensations⟩ := hrest
  exact {
    saveState := hsaveState.trans h.saveState
    registered := hcompensations ▸ h.registered
    failedStep := hfailedStep.trans h.failedStep
    failedCompensations := hfailedCompensations.trans h.failedCompensations
    done := by
      intro j hj
      rcases Nat.lt_succ_iff_lt_or_eq.mp hj with hlt | rfl
      · exact hdone j hlt
      · rw [hstatus, Function.update_self]
        exact hpassed
    waiting := fun j hj => hwaiting j hj
    quiet := hquiet
    head := hhead
    smooth := hsmooth }

end Trying

def StepEnded (persistent : Bool) (specs : List StepSpec) (i : ℕ) (status : ℕ → StepStatus)
    (ended : SagaWorkflow.Ended Ask Answer Bool) (events : List Event) : Prop :=
  match ended.1 with
  | .ok success => Underway persistent specs (i + 1) ended.2 events ∧
      ended.2.stepStatus = Function.update status i (if success then .completed else .failed)
  | .error e => e.escapes = true ∧ ¬ Smooth specs events

theorem stepEnded_update (status : ℕ → StepStatus) (own : StepStatus) :
    StepEnded persistent specs i (Function.update status i own) =
      StepEnded persistent specs i status := by
  funext ended events
  simp only [StepEnded, Function.update_idem]

theorem noRecall_cons {e : Event} (he : e.called = none) :
    NoRecall (e :: events) ↔ NoRecall events := by
  refine and_iff_right ?_
  intro j hj
  rw [he] at hj
  cases hj

open SagaWorkflow

theorem ends_attemptStep (hW : W.saveState = provider persistent) (spec : StepSpec) (attempt : ℕ)
    (Q : Ended Ask Answer Unit → List Event → Prop) :
    Ends (W.attemptStep i (spec.toStep i) attempt) events Q ↔
      (∀ r, if persistent then
          Q (.ok (), W.complete i (spec.toStep i) r)
            ([.saved, .returned i attempt] ++ events) ∧
          ∀ e, Q (.error e, W.complete i (spec.toStep i) r)
            ([.unsaved e.escapes, .returned i attempt] ++ events)
        else Q (.ok (), W.complete i (spec.toStep i) r) ([.returned i attempt] ++ events)) ∧
      ∀ e, Q (.error e, W) ([.erred i e.escapes] ++ events) := by
  rw [attemptStep, ends_bind, ends_step]
  refine and_congr (forall_congr' fun r => ?_) Iff.rfl
  rw [ends_bind]
  exact ends_save (W := W.complete i (spec.toStep i) r) hW _ _

theorem ends_runAttempts {spec : StepSpec} (hspec : specs[i]? = some spec) {left attempt : ℕ}
    (hattempt : attempt + left = spec.maxRetries.toNat + 1) (error : Option String)
    (h : Trying persistent specs i left W events) :
    Ends (runAttempts i (spec.toStep i) left attempt error W) events
      (StepEnded persistent specs i W.stepStatus) := by
  induction left generalizing attempt error W events with
  | zero =>
    refine ⟨h.finish [] .failed _ (fun _ he => absurd he List.not_mem_nil) rfl
      ⟨rfl, rfl, rfl, rfl⟩ (.inr ⟨rfl, h.own⟩) h.head ?_, rfl⟩
    rw [List.nil_append, h.smooth, and_iff_left_iff_imp]
    exact fun _ hpos => absurd hpos (Nat.lt_irrefl 0)
  | succ left ih =>
    -- a further call keeps the law as long as the step has not returned
    have hcalled {e : Event} (he : e.called = some i) :
        NoRecall (e :: events) ↔ Smooth specs events := by
      have hsmooth : Smooth specs events ↔ NoRecall events ∧ ∀ k, .returned i k ∉ events := by
        rw [h.smooth]
        exact and_congr_right fun _ => forall_prop_of_true (Nat.succ_pos left)
      rw [hsmooth, and_comm]
      refine and_congr_left fun _ => ?_
      show (∀ j ∈ e.called, ∀ k, .returned j k ∉ events) ↔ _
      rw [he]
      simp
    rw [runAttempts, ends_bind, ends_attemptStep h.saveState]
    refine ⟨fun r => ?_, fun e => ?_⟩
    · rcases persistent with _ | _
      · refine ⟨h.finish [.returned i attempt] .completed _ ?_ rfl
          ⟨rfl, rfl, rfl, rfl⟩ (.inl ⟨rfl, .inr ⟨attempt, rfl⟩⟩)
          (fun hfalse => by cases hfalse) ?_, rfl⟩
        · simp [Own, Event.compensates, Event.returns]
        · rw [List.singleton_append, hcalled rfl]
          exact and_iff_right trivial
      · refine ⟨⟨h.finish [.saved, .returned i attempt] .completed _ ?_ rfl
          ⟨rfl, rfl, rfl, rfl⟩ (.inl ⟨rfl, .inr ⟨rfl, attempt, rfl⟩⟩) ?_ ?_, rfl⟩,
          fun e => ?_⟩
        · simp [Own, Event.compensates, Event.returns]
        · rintro - j k ⟨⟩
        · rw [List.cons_append, List.singleton_append, noRecall_cons rfl, hcalled rfl]
          exact (and_iff_right trivial).trans (and_iff_right trivial)
        · show Ends (if e.escapes then _ else _) _ _
          split
          · rename_i hescapes
            exact ⟨hescapes, fun hsmooth => absurd (hsmooth.1.1.symm.trans hescapes) (by decide)⟩
          · rename_i hescapes
            -- the save failed: the step has returned, and is called again
            have hescapes := Bool.eq_false_iff.mpr hescapes
            have hnext : attempt + 1 + left = spec.maxRetries.toNat + 1 := by omega
            have hended := ih (W := W.complete i (spec.toStep i) r) hnext
              (some (stepError (spec.toStep i) e)) (h.again
              [.unsaved e.escapes, .returned i attempt] .completed
              (W.complete i (spec.toStep i) r) ?_ rfl ⟨rfl, rfl, rfl, rfl⟩ ?_ ?_ ?_)
            · have hcomplete : (W.complete i (spec.toStep i) r).stepStatus =
                  Function.update W.stepStatus i .completed := rfl
              rwa [hcomplete, stepEnded_update] at hended
            · simp [Own, Event.compensates, Event.returns]
            · simp [Passed, h.own]
            · rintro - j k ⟨⟩
            · have hlast : (0 < left → ∀ k, Event.returned i k ∉
                  [.unsaved e.escapes, .returned i attempt] ++ events) ↔
                  spec.maxRetries ≤ attempt := by
                constructor
                · intro hnone
                  by_contra hmore
                  exact hnone (by omega) attempt (by simp)
                · intro hle hleft
                  omega
              have hsmooth : Smooth specs (.unsaved e.escapes :: .returned i attempt ::
                  events) ↔ spec.maxRetries ≤ attempt ∧ Smooth specs events := by
                constructor
                · rintro ⟨⟨-, j, k, spec', hhead, hspec', hle⟩, -, hrest⟩
                  obtain ⟨rfl, rfl⟩ : i = j ∧ attempt = k := by simpa using hhead
                  rw [hspec] at hspec'
                  cases hspec'
                  exact ⟨hle, hrest⟩
                · exact fun h => ⟨⟨hescapes, i, attempt, spec, rfl, hspec, h.1⟩, trivial, h.2⟩
              rw [hlast, List.cons_append, List.singleton_append, hsmooth, noRecall_cons rfl,
                hcalled rfl]
              exact and_comm
    · show Ends (if e.escapes then _ else _) _ _
      split
      · rename_i hescapes
        exact ⟨hescapes, fun hsmooth => absurd (hsmooth.1.symm.trans hescapes) (by decide)⟩
      · rename_i hescapes
        have hescapes := Bool.eq_false_iff.mpr hescapes
        refine ih (by omega) _ (h.again [.erred i e.escapes] (W.stepStatus i) W ?_
          (Function.update_eq_self i _).symm ⟨rfl, rfl, rfl, rfl⟩ ?_ ?_ ?_)
        · simp [Own, Event.compensates, Event.returns]
        · simp [Passed, h.own]
        · rintro - j k ⟨⟩
        · have hsmooth : Smooth specs (.erred i e.escapes :: events) ↔ Smooth specs events :=
            and_iff_right hescapes
          have hreturned : (∀ k, Event.returned i k ∉ [.erred i e.escapes] ++ events) ↔
              ∀ k, .returned i k ∉ events := by simp
          rw [hreturned, List.singleton_append, hsmooth, hcalled rfl, h.smooth]
          exact ⟨fun h => ⟨h, fun _ => h.2 (Nat.succ_pos left)⟩, fun h => h.1⟩

/-- How the loop over the steps ends: it came to its end, or a step failed that is not optional. -/
def StepsEnded (persistent : Bool) (specs : List StepSpec) (ended : Ended Ask Answer Unit)
    (events : List Event) : Prop :=
  match ended.1 with
  | .ok () =>
    (Underway persistent specs specs.length ended.2 events ∧
      ∀ j spec, specs[j]? = some spec → spec.isOptional = false →
        ended.2.stepStatus j = .completed) ∨
    ∃ i spec W, specs[i]? = some spec ∧ spec.isOptional = false ∧
      Underway persistent specs (i + 1) W events ∧ W.stepStatus i = .failed ∧
      (∀ j < i, ∀ spec', specs[j]? = some spec' → spec'.isOptional = false →
        W.stepStatus j = .completed) ∧
      ended.2 = { W with failedStep := some spec.name }
  | .error e => e.escapes = true ∧ ¬ Smooth specs events

theorem ends_executeSteps {rest : List StepSpec} (hi : i ≤ specs.length)
    (hrest : specs.drop i = rest) (h : Underway persistent specs i W events)
    (hcompleted : ∀ j < i, ∀ spec, specs[j]? = some spec → spec.isOptional = false →
      W.stepStatus j = .completed) :
    Ends (executeSteps (rest.mapIdx fun j spec => spec.toStep (i + j)) i W) events
      (StepsEnded persistent specs) := by
  induction rest generalizing i W events with
  | nil =>
    obtain rfl : i = specs.length := Nat.le_antisymm hi (List.drop_eq_nil_iff.mp hrest)
    exact .inl ⟨h, fun j spec hspec =>
      hcompleted j (List.getElem?_eq_some_iff.mp hspec).1 spec hspec⟩
  | cons spec rest ih =>
    have hspec : specs[i]? = some spec := by
      rw [← Nat.add_zero i, ← List.getElem?_drop, hrest]
      rfl
    have hlt : i < specs.length := (List.getElem?_eq_some_iff.mp hspec).1
    have hrest' : specs.drop (i + 1) = rest := by
      rw [← List.drop_drop, hrest]
      rfl
    have hplaces : (rest.mapIdx fun j spec => spec.toStep (i + (j + 1))) =
        rest.mapIdx fun j spec => spec.toStep (i + 1 + j) := by
      congr 1
      funext j spec
      rw [Nat.add_right_comm, Nat.add_assoc]
    rw [List.mapIdx_cons, hplaces, Nat.add_zero, executeSteps, ends_bind, executeStep]
    have hattempts := ends_runAttempts hspec (Nat.add_comm _ _) none
      (h.start hspec spec.maxRetries.toNat)
    refine hattempts.mono ?_
    rintro ⟨result, W'⟩ events' hended
    rcases result with e | success
    · exact hended
    · obtain ⟨hunderway, hstatus⟩ := hended
      have hbefore : ∀ j < i, ∀ spec', specs[j]? = some spec' → spec'.isOptional = false →
          W'.stepStatus j = .completed := by
        intro j hj spec' hspec' hoptional
        rw [hstatus, Function.update_of_ne (Nat.ne_of_lt hj)]
        exact (Function.update_of_ne (Nat.ne_of_lt hj) _ _).trans
          (hcompleted j hj spec' hspec' hoptional)
      show Ends (if _ then _ else _) _ _
      split
      · rename_i hfailed
        refine .inr ⟨i, spec, W', hspec, hfailed.2, hunderway, ?_, hbefore, rfl⟩
        rw [hstatus, hfailed.1, Function.update_self]
        rfl
      · rename_i hpassed
        refine ih hlt hrest' hunderway fun j hj spec' hspec' hoptional => ?_
        rcases Nat.lt_succ_iff_lt_or_eq.mp hj with hlt | rfl
        · exact hbefore j hlt spec' hspec' hoptional
        · rw [hspec] at hspec'
          cases hspec'
          have hsuccess : success = true := by
            by_contra hfalse
            exact hpassed ⟨Bool.eq_false_iff.mpr hfalse, hoptional⟩
          rw [hstatus, hsuccess, Function.update_self]
          rfl

/-! ## The compensations -/

/-- What holds of the events when some compensations have been run, with so many attempts at that of
a further place. -/
structure Undoing (persistent : Bool) (specs : List StepSpec) (W₀ : SagaWorkflow Ask Answer)
    (events₀ : List Event) (ran : List (ℕ × CompensationSpec)) (W : SagaWorkflow Ask Answer)
    (events : List Event) : Prop where
  saveState : W.saveState = provider persistent
  status : W.status = .compensating
  stepStatus : W.stepStatus = W₀.stepStatus
  passed : ∀ j, Passed persistent j events ↔ Passed persistent j events₀
  smooth : Smooth specs events ↔ NoRecall events
  inReverse : InReverse events
  notAgain : NotAgain events
  head : persistent = true → ∀ j k, events.head? ≠ some (.returned j k)
  own : ∀ e ∈ events, ∀ j ∈ e.compensates, ∃ c, (j, c) ∈ ran
  attempted : ∀ j c, (j, c) ∈ ran →
    ((∃ e ∈ events, j ∈ e.compensates) ↔ 0 < c.maxRetries)
  succeeded : W.failedCompensations = [] ↔ ∀ j c, (j, c) ∈ ran → .compensated j ∈ events

def Answers (i : ℕ) (answers : List Event) : Prop :=
  ∀ e ∈ answers, e = .compensated i ∨ e = .notCompensated i false

namespace Answers

variable {answers : List Event}

theorem passed (h : Answers i answers) (j : ℕ) :
    Passed persistent j (answers ++ events) ↔ Passed persistent j events := by
  induction answers with
  | nil => rfl
  | cons e answers ih =>
    rw [List.cons_append, Passed, ih fun e' he' => h e' (List.mem_cons_of_mem e he')]
    rcases h e List.mem_cons_self with rfl | rfl <;> cases persistent <;> simp

theorem smooth (h : Answers i answers) : Smooth specs (answers ++ events) ↔ Smooth specs events := by
  induction answers with
  | nil => rfl
  | cons e answers ih =>
    refine Iff.trans ?_ (ih fun e' he' => h e' (List.mem_cons_of_mem e he'))
    rcases h e List.mem_cons_self with rfl | rfl
    · exact and_iff_right trivial
    · exact and_iff_right rfl

theorem noRecall (h : Answers i answers) : NoRecall (answers ++ events) ↔ NoRecall events := by
  induction answers with
  | nil => rfl
  | cons e answers ih =>
    rw [List.cons_append, noRecall_cons, ih fun e' he' => h e' (List.mem_cons_of_mem e he')]
    rcases h e List.mem_cons_self with rfl | rfl <;> rfl

theorem compensates (h : Answers i answers) {e : Event} (he : e ∈ answers) :
    e.compensates = some i := by
  rcases h e he with rfl | rfl <;> rfl

theorem inReverse (h : Answers i answers) (hevents : InReverse events)
    (hbefore : ∀ e ∈ events, ∀ j ∈ e.compensates, i ≤ j) : InReverse (answers ++ events) := by
  induction answers with
  | nil => exact hevents
  | cons e answers ih =>
    have hrest : Answers i answers := fun e' he' => h e' (List.mem_cons_of_mem e he')
    refine ⟨fun k hk e' he' j hj => ?_, ih hrest⟩
    have hk := Option.mem_def.mp hk
    rw [h.compensates List.mem_cons_self] at hk
    cases hk
    rcases List.mem_append.mp he' with he' | he'
    · have hj := Option.mem_def.mp hj
      rw [hrest.compensates he'] at hj
      cases hj
      exact Nat.le_refl i
    · exact hbefore e' he' j hj

theorem notAgain (h : Answers i answers) (hlast : .compensated i ∉ answers.tail)
    (hevents : NotAgain events) (hfresh : .compensated i ∉ events) :
    NotAgain (answers ++ events) := by
  induction answers with
  | nil => exact hevents
  | cons e answers ih =>
    refine ⟨fun k hk hmem => ?_, ih (fun e' he' => h e' (List.mem_cons_of_mem e he'))
      fun hmem => hlast (List.mem_of_mem_tail hmem)⟩
    have hk := Option.mem_def.mp hk
    rw [h.compensates List.mem_cons_self] at hk
    cases hk
    rcases List.mem_append.mp hmem with hmem | hmem
    · exact hlast hmem
    · exact hfresh hmem

end Answers

/-- How the attempts of a compensation end: with a success, after failures, or with failures only. -/
def CompensationEnded (specs : List StepSpec) (i attempts : ℕ) (W : SagaWorkflow Ask Answer)
    (events : List Event) (ended : Ended Ask Answer Bool) (events' : List Event) : Prop :=
  match ended.1 with
  | .ok success => ∃ answers, events' = answers ++ events ∧ Answers i answers ∧
      .compensated i ∉ answers.tail ∧ (.compensated i ∈ answers ↔ success = true) ∧
      (answers ≠ [] ↔ 0 < attempts) ∧
      ended.2.saveState = W.saveState ∧ ended.2.status = W.status ∧
      ended.2.stepStatus = W.stepStatus ∧ ended.2.failedCompensations = W.failedCompensations
  | .error e => e.escapes = true ∧ ¬ Smooth specs events'

theorem ends_runCompensationAttempts (c : CompensationSpec) (left attempt failures : ℕ) :
    Ends (runCompensationAttempts (c.toCompensation i) left attempt W)
      (List.replicate failures (.notCompensated i false) ++ events)
      (CompensationEnded specs i (failures + left) W events) := by
  induction left generalizing attempt failures with
  | zero =>
    refine ⟨List.replicate failures (.notCompensated i false), rfl, ?_, ?_, ?_, ?_, rfl, rfl, rfl,
      rfl⟩
    · exact fun e he => .inr (List.eq_of_mem_replicate he)
    · intro hmem
      cases List.eq_of_mem_replicate (List.mem_of_mem_tail hmem)
    · refine iff_of_false (fun hmem => ?_) Bool.false_ne_true
      cases List.eq_of_mem_replicate hmem
    · rw [ne_eq, List.replicate_eq_nil_iff, Nat.add_zero, Nat.pos_iff_ne_zero]
  | succ left ih =>
    have hagain := ih (attempt + 1) (failures + 1)
    rw [List.replicate_succ, List.cons_append, Nat.add_right_comm, Nat.add_assoc] at hagain
    rw [runCompensationAttempts, ends_bind, ends_compensate]
    refine ⟨?_, hagain, fun e => ?_⟩
    · refine ⟨.compensated i :: List.replicate failures (.notCompensated i false), rfl, ?_, ?_, ?_,
        ?_, rfl, rfl, rfl, rfl⟩
      · intro e he
        rcases List.mem_cons.mp he with rfl | he
        · exact .inl rfl
        · exact .inr (List.eq_of_mem_replicate he)
      · intro hmem
        cases List.eq_of_mem_replicate hmem
      · exact iff_of_true List.mem_cons_self rfl
      · exact iff_of_true (List.cons_ne_nil _ _) (by omega)
    · show Ends (if e.escapes then _ else _) _ _
      split
      · rename_i hescapes
        exact ⟨hescapes, fun hsmooth => absurd (hsmooth.1.symm.trans hescapes) (by decide)⟩
      · rename_i hescapes
        rw [Bool.eq_false_iff.mpr hescapes]
        exact hagain

section Undoing

variable {W₀ : SagaWorkflow Ask Answer} {events₀ : List Event} {ran : List (ℕ × CompensationSpec)}

theorem Undoing.answer (h : Undoing persistent specs W₀ events₀ ran W events)
    (hlt : ∀ j c, (j, c) ∈ ran → i < j) (c : CompensationSpec) {success : Bool}
    {W' : SagaWorkflow Ask Answer} {events' : List Event}
    (hended : CompensationEnded specs i c.maxRetries.toNat W events (.ok success, W') events') :
    Undoing persistent specs W₀ events₀ (ran ++ [(i, c)])
      (W'.noteCompensation (c.toCompensation i) success) events' := by
  obtain ⟨answers, rfl, hanswers, hlast, hsuccess, hattempts, hsaveState, hstatus, hstepStatus,
    hfailed⟩ := hended
  have hfresh : .compensated i ∉ events := by
    intro hmem
    obtain ⟨c', hc'⟩ := h.own _ hmem i rfl
    exact absurd (hlt i c' hc') (Nat.lt_irrefl i)
  have hother {j : ℕ} {c' : CompensationSpec} (hj : (j, c') ∈ ran) :
      ∀ e ∈ answers, j ∉ e.compensates := by
    intro e he hmem
    have hmem := Option.mem_def.mp hmem
    rw [hanswers.compensates he] at hmem
    cases hmem
    exact absurd (hlt _ c' hj) (Nat.lt_irrefl _)
  have hnote : ∀ W : SagaWorkflow Ask Answer,
      (W.noteCompensation (c.toCompensation i) success).saveState = W.saveState ∧
      (W.noteCompensation (c.toCompensation i) success).status = W.status ∧
      (W.noteCompensation (c.toCompensation i) success).stepStatus = W.stepStatus := by
    intro W
    cases success <;> exact ⟨rfl, rfl, rfl⟩
  have hmem {j : ℕ} {c' : CompensationSpec} :
      (j, c') ∈ ran ++ [(i, c)] ↔ (j, c') ∈ ran ∨ j = i ∧ c' = c := by simp
  exact {
    saveState := (hnote W').1.trans (hsaveState.trans h.saveState)
    status := (hnote W').2.1.trans (hstatus.trans h.status)
    stepStatus := (hnote W').2.2.trans (hstepStatus.trans h.stepStatus)
    passed := fun j => (hanswers.passed j).trans (h.passed j)
    smooth := by rw [hanswers.smooth, hanswers.noRecall, h.smooth]
    inReverse := by
      refine hanswers.inReverse h.inReverse fun e he j hj => ?_
      obtain ⟨c', hc'⟩ := h.own e he j hj
      exact Nat.le_of_lt (hlt j c' hc')
    notAgain := hanswers.notAgain hlast h.notAgain hfresh
    head := by
      intro hpersistent j k
      rcases answers with _ | ⟨e, answers⟩
      · exact h.head hpersistent j k
      · rintro heq
        obtain rfl : e = .returned j k := Option.some.inj heq
        cases hanswers.compensates List.mem_cons_self
    own := by
      intro e he j hj
      rcases List.mem_append.mp he with he | he
      · have hj := Option.mem_def.mp hj
        rw [hanswers.compensates he] at hj
        cases hj
        exact ⟨c, hmem.mpr (.inr ⟨rfl, rfl⟩)⟩
      · obtain ⟨c', hc'⟩ := h.own e he j hj
        exact ⟨c', hmem.mpr (.inl hc')⟩
    attempted := by
      intro j c' hj
      rcases hmem.mp hj with hj | ⟨rfl, rfl⟩
      · rw [← h.attempted j c' hj]
        constructor
        · rintro ⟨e, he, hje⟩
          rcases List.mem_append.mp he with he | he
          · exact absurd hje (hother hj e he)
          · exact ⟨e, he, hje⟩
        · rintro ⟨e, he, hje⟩
          exact ⟨e, List.mem_append_right _ he, hje⟩
      · have hpos : 0 < c'.maxRetries.toNat ↔ 0 < c'.maxRetries := by omega
        rw [← hpos, ← hattempts]
        constructor
        · rintro ⟨e, he, hje⟩ rfl
          obtain ⟨c'', hc''⟩ := h.own e he _ hje
          exact absurd (hlt _ c'' hc'') (Nat.lt_irrefl _)
        · intro hne
          obtain ⟨e, he⟩ := List.exists_mem_of_ne_nil answers hne
          exact ⟨e, List.mem_append_left _ he, Option.mem_def.mpr (hanswers.compensates he)⟩
    succeeded := by
      have hold : (∀ j c', (j, c') ∈ ran → .compensated j ∈ answers ++ events) ↔
          ∀ j c', (j, c') ∈ ran → .compensated j ∈ events := by
        refine forall₂_congr fun j c' => forall_congr' fun hj => ?_
        rw [List.mem_append, or_iff_right]
        exact fun hmem => hother hj _ hmem rfl
      have hown : .compensated i ∈ answers ++ events ↔ success = true := by
        rw [List.mem_append, or_iff_left hfresh, hsuccess]
      have hall : (∀ j c', (j, c') ∈ ran ++ [(i, c)] → .compensated j ∈ answers ++ events) ↔
          (∀ j c', (j, c') ∈ ran → .compensated j ∈ answers ++ events) ∧
          .compensated i ∈ answers ++ events := by
        constructor
        · intro hall
          exact ⟨fun j c' hj => hall j c' (hmem.mpr (.inl hj)),
            hall i c (hmem.mpr (.inr ⟨rfl, rfl⟩))⟩
        · rintro ⟨hran, hi⟩ j c' hj
          rcases hmem.mp hj with hj | ⟨rfl, -⟩
          · exact hran j c' hj
          · exact hi
      rw [hall, hold, hown, ← h.succeeded, ← hfailed]
      cases success with
      | true => exact (and_iff_left rfl).symm
      | false => exact iff_of_false (by simp [noteCompensation]) (by simp) }

theorem Undoing.save (h : Undoing persistent specs W₀ events₀ ran W events)
    (hpersistent : persistent = true) :
    Undoing persistent specs W₀ events₀ ran W (.saved :: events) where
  saveState := h.saveState
  status := h.status
  stepStatus := h.stepStatus
  passed := by
    intro j
    rw [Passed, h.passed, or_iff_left_iff_imp, if_pos hpersistent]
    rintro ⟨-, k, hhead⟩
    exact absurd hhead (h.head hpersistent j k)
  smooth := (and_iff_right trivial).trans (h.smooth.trans (noRecall_cons rfl).symm)
  inReverse := ⟨(fun _ hk => by cases hk), h.inReverse⟩
  notAgain := ⟨(fun _ hk => by cases hk), h.notAgain⟩
  head := by
    rintro - j k ⟨⟩
  own := by
    intro e he j hj
    rcases List.mem_cons.mp he with rfl | he
    · cases hj
    · exact h.own e he j hj
  attempted := by
    intro j c hj
    rw [← h.attempted j c hj]
    simp [Event.compensates]
  succeeded := by
    rw [h.succeeded]
    simp

theorem not_smooth_unsaved (hhead : ∀ j k, events.head? ≠ some (.returned j k)) (escapes : Bool) :
    ¬ Smooth specs (.unsaved escapes :: events) := by
  rintro ⟨⟨-, j, k, -, heq, -⟩, -⟩
  exact hhead j k heq

def AllEnded (persistent : Bool) (specs : List StepSpec) (W₀ : SagaWorkflow Ask Answer)
    (events₀ : List Event) (all : List (ℕ × CompensationSpec)) (ended : Ended Ask Answer Unit)
    (events : List Event) : Prop :=
  match ended.1 with
  | .ok () => Undoing persistent specs W₀ events₀ all ended.2 events
  | .error _ => ¬ Smooth specs events

theorem ends_compensateAll {rest : List (ℕ × CompensationSpec)}
    (hsorted : (ran ++ rest).Pairwise fun c c' => c'.1 < c.1)
    (h : Undoing persistent specs W₀ events₀ ran W events) :
    Ends (compensateAll (rest.map fun c => c.2.toCompensation c.1) W) events
      (AllEnded persistent specs W₀ events₀ (ran ++ rest)) := by
  induction rest generalizing ran W events with
  | nil =>
    rw [List.append_nil]
    exact h
  | cons c rest ih =>
    obtain ⟨i, c⟩ := c
    have hlt : ∀ j c', (j, c') ∈ ran → i < j := by
      intro j c' hj
      exact (List.pairwise_append.mp hsorted).2.2 _ hj _ List.mem_cons_self
    have hsplit : ran ++ (i, c) :: rest = (ran ++ [(i, c)]) ++ rest := by simp
    rw [hsplit] at hsorted ⊢
    rw [List.map_cons, compensateAll, ends_bind]
    have hattempts : Ends (runCompensationAttempts (c.toCompensation i) c.maxRetries.toNat 1 W)
        events (CompensationEnded specs i (0 + c.maxRetries.toNat) W events) :=
      ends_runCompensationAttempts c c.maxRetries.toNat 1 0
    rw [Nat.zero_add] at hattempts
    refine hattempts.mono ?_
    rintro ⟨result, W'⟩ events' hended
    rcases result with e | success
    · exact hended.2
    · have hundoing := h.answer hlt c hended
      show Ends (_ >>= _) _ _
      rw [ends_bind, ends_save hundoing.saveState]
      rcases persistent with _ | _
      · exact ih hsorted hundoing
      · refine ⟨ih hsorted (hundoing.save rfl), fun e => ?_⟩
        exact not_smooth_unsaved (hundoing.head rfl) _

end Undoing

/-! ## Once more, after an exception -/

/-- What happens to a workflow whose law is broken already. -/
def Kept (specs : List StepSpec) (W : SagaWorkflow Ask Answer) (events : List Event) {α : Type}
    (ended : Ended Ask Answer α) (events' : List Event) : Prop :=
  ended.2.status = W.status ∧ (Smooth specs events' → Smooth specs events)

theorem ends_smooth {α : Type} (p : Prog Ask Answer Empty α) (specs : List StepSpec)
    (events : List Event) : Ends p events fun _ events' => Smooth specs events' → Smooth specs events := by
  induction p generalizing events with
  | done a => exact id
  | raise e => exact e.elim
  | await o k ih =>
    refine ⟨trivial, fun r events' hanswer => ?_⟩
    obtain rfl : events' = observe o r :: events := hanswer
    exact Ends.mono (ih r _) fun a events' h hsmooth => (h hsmooth).2

theorem kept_runCompensationAttempts (specs : List StepSpec) (c : SagaCompensation Ask Answer) (left attempt : ℕ)
    (W : SagaWorkflow Ask Answer) (events : List Event) :
    Ends (runCompensationAttempts c left attempt W) events (Kept specs W events) := by
  induction left generalizing attempt events with
  | zero => exact ⟨rfl, id⟩
  | succ left ih =>
    rw [runCompensationAttempts, ends_bind]
    refine Ends.mono (ends_smooth _ specs events) fun result events' hsmooth => ?_
    have hagain : Ends (runCompensationAttempts c left (attempt + 1) W) events'
        (Kept specs W events) :=
      (ih (attempt + 1) events').mono fun _ _ h => ⟨h.1, hsmooth ∘ h.2⟩
    cases result with
    | ok success =>
      cases success with
      | true => exact ⟨rfl, hsmooth⟩
      | false => exact hagain
    | error e =>
      show Ends (if e.escapes then _ else _) _ _
      split
      · exact ⟨rfl, hsmooth⟩
      · exact hagain

theorem kept_compensateAll (specs : List StepSpec) (cs : List (SagaCompensation Ask Answer))
    (W : SagaWorkflow Ask Answer) (events : List Event) :
    Ends (compensateAll cs W) events (Kept specs W events) := by
  induction cs generalizing W events with
  | nil => exact ⟨rfl, id⟩
  | cons c cs ih =>
    rw [compensateAll, ends_bind]
    refine (kept_runCompensationAttempts specs c _ 1 W events).mono ?_
    rintro ⟨result, W'⟩ events' hkept
    rcases result with e | success
    · exact hkept
    · have hstatus : (W'.noteCompensation c success).status = W.status := by
        rw [← hkept.1]
        cases success <;> rfl
      show Ends (_ >>= _) _ _
      rw [ends_bind]
      refine Ends.mono (ends_smooth _ specs events') fun saved events'' hsmooth => ?_
      rcases saved with e | _
      · exact ⟨hstatus, hkept.2 ∘ hsmooth⟩
      · exact (ih _ _).mono fun _ _ h => ⟨h.1.trans hstatus, hkept.2 ∘ hsmooth ∘ h.2⟩

/-! ## The law -/

/-- The law holds exactly of the answers that are regular. -/
def Decided (persistent : Bool) (specs : List StepSpec) (ended : Ended Ask Answer Unit)
    (events : List Event) : Prop :=
  Lawful specs ended.1 ended.2 events ↔ Regular persistent specs events

/-- How the `try` block of `execute` ends. -/
def BodyEnded (persistent : Bool) (specs : List StepSpec) (ended : Ended Ask Answer Unit)
    (events : List Event) : Prop :=
  match ended.1 with
  | .ok () => Decided persistent specs ended events
  | .error _ => ¬ Smooth specs events

theorem inReverse_of_quiet (h : ∀ e ∈ events, e.compensates = none) : InReverse events := by
  induction events with
  | nil => trivial
  | cons e events ih =>
    refine ⟨fun k hk => ?_, ih fun e' he' => h e' (List.mem_cons_of_mem e he')⟩
    rw [Option.mem_def, h e List.mem_cons_self] at hk
    cases hk

theorem notAgain_of_quiet (h : ∀ e ∈ events, e.compensates = none) : NotAgain events := by
  induction events with
  | nil => trivial
  | cons e events ih =>
    refine ⟨fun k hk => ?_, ih fun e' he' => h e' (List.mem_cons_of_mem e he')⟩
    rw [Option.mem_def, h e List.mem_cons_self] at hk
    cases hk

namespace Underway

theorem save (h : Underway persistent specs i W events) (hpersistent : persistent = true) :
    Underway persistent specs i W (.saved :: events) := by
  have hpassed (j : ℕ) : Passed persistent j (.saved :: events) ↔ Passed persistent j events := by
    rw [Passed, or_iff_left_iff_imp, if_pos hpersistent]
    rintro ⟨-, k, hhead⟩
    exact absurd hhead (h.head hpersistent j k)
  exact { h with
    done := by
      intro j hj
      rw [hpassed]
      exact h.done j hj
    waiting := by
      intro j hj
      rw [hpassed]
      obtain ⟨hpending, hnotPassed, hnotReturned⟩ := h.waiting j hj
      exact ⟨hpending, hnotPassed, fun k hmem => hnotReturned k (List.mem_of_ne_of_mem (by simp) hmem)⟩
    quiet := by
      intro e he
      rcases List.mem_cons.mp he with rfl | he
      · rfl
      · exact h.quiet e he
    head := by
      rintro - j k ⟨⟩
    smooth := (and_iff_right trivial).trans (h.smooth.trans (noRecall_cons rfl).symm) }

theorem passed_iff (h : Underway persistent specs i W events) (j : ℕ) :
    Passed persistent j events ↔ W.stepStatus j = .completed := by
  rcases Nat.lt_or_ge j i with hlt | hge
  · rcases h.done j hlt with ⟨hstatus, hpassed⟩ | ⟨hstatus, hpassed⟩
    · exact iff_of_true hpassed hstatus
    · refine iff_of_false hpassed fun heq => ?_
      rw [hstatus] at heq
      cases heq
  · obtain ⟨hstatus, hpassed, -⟩ := h.waiting j hge
    refine iff_of_false hpassed fun heq => ?_
    rw [hstatus] at heq
    cases heq

theorem started_iff (h : Underway persistent specs i W events) (j : ℕ) :
    W.stepStatus j ≠ .pending ↔ j < i := by
  rcases Nat.lt_or_ge j i with hlt | hge
  · refine iff_of_true ?_ hlt
    rcases h.done j hlt with ⟨hstatus, -⟩ | ⟨hstatus, -⟩
    · rw [hstatus]
      decide
    · rw [hstatus]
      decide
  · exact iff_of_false (not_not.mpr (h.waiting j hge).1) (Nat.not_lt.mpr hge)

end Underway

theorem decided_completed (h : Underway persistent specs specs.length W events)
    (hcompleted : ∀ j spec, specs[j]? = some spec → spec.isOptional = false →
      W.stepStatus j = .completed) :
    Decided persistent specs (.ok (), { W with status := .completed }) events := by
  have hpassed : ∀ j spec, specs[j]? = some spec → spec.isOptional = false →
      Passed persistent j events :=
    fun j spec hspec hoptional => (h.passed_iff j).mpr (hcompleted j spec hspec hoptional)
  constructor
  · intro hlawful
    exact {
      smooth := h.smooth.mpr hlawful.noRecall
      named := fun j spec hspec hoptional _ _ => hpassed j spec hspec hoptional
      retried := fun _ _ _ _ _ _ _ => hpassed }
  · intro hregular
    exact {
      terminal := ⟨rfl, List.mem_cons_self⟩
      completed := iff_of_true rfl hcompleted
      quiet := fun _ => h.quiet
      attempted := fun hne => absurd rfl hne
      inReverse := inReverse_of_quiet h.quiet
      notAgain := notAgain_of_quiet h.quiet
      truthful := by rintro ⟨⟩
      noRecall := h.smooth.mp hregular.smooth }

theorem decided_unnamed (h : Underway persistent specs (i + 1) W events) {spec : StepSpec}
    (hspec : specs[i]? = some spec) (hoptional : spec.isOptional = false) (hname : spec.name = "")
    (hfailed : W.stepStatus i = .failed)
    (hbefore : ∀ j < i, ∀ spec', specs[j]? = some spec' → spec'.isOptional = false →
      W.stepStatus j = .completed) :
    Decided persistent specs
      (.ok (), { W with failedStep := some spec.name, status := .completed }) events := by
  have hnot : W.stepStatus i ≠ .completed := by
    rw [hfailed]
    decide
  refine iff_of_false (fun hlawful => ?_) fun hregular => ?_
  · exact hnot (hlawful.completed.mp rfl i spec hspec hoptional)
  · refine hnot ((h.passed_iff i).mp (hregular.named i spec hspec hoptional hname ?_))
    exact fun j hj spec' hspec' hoptional' =>
      (h.passed_iff j).mpr (hbefore j hj spec' hspec' hoptional')

theorem decided_compensated {W₀ : SagaWorkflow Ask Answer} {events₀ : List Event}
    {all : List (ℕ × CompensationSpec)} (h₀ : Underway persistent specs (i + 1) W₀ events₀)
    {spec : StepSpec} (hspec : specs[i]? = some spec) (hoptional : spec.isOptional = false)
    (hname : spec.name ≠ "") (hfailed : W₀.stepStatus i = .failed)
    (hbefore : ∀ j < i, ∀ spec', specs[j]? = some spec' → spec'.isOptional = false →
      W₀.stepStatus j = .completed)
    (hall : ∀ j c, (j, c) ∈ all ↔
      j < i + 1 ∧ ∃ spec, specs[j]? = some spec ∧ spec.compensation = some c)
    (h : Undoing persistent specs W₀ events₀ all W events) :
    Decided persistent specs (.ok (), { W with status := W.finalStatus }) events := by
  have hpassed (j : ℕ) : Passed persistent j events ↔ W₀.stepStatus j = .completed :=
    (h.passed j).trans (h₀.passed_iff j)
  have hnot : ¬ Passed persistent i events := by
    rw [hpassed, hfailed]
    decide
  have hterminal : W.finalStatus ∈
      [SagaStatus.completed, .compensated, .partiallyCompensated, .failed] := by
    unfold finalStatus
    split <;> decide
  have hfinal : W.finalStatus ≠ .completed := by
    unfold finalStatus
    split <;> decide
  have hreached {j : ℕ} : Reached persistent specs events j ↔ j < i + 1 := by
    constructor
    · intro hreached
      by_contra hge
      exact hnot (hreached i (by omega) spec hspec hoptional)
    · intro hj k hk spec' hspec' hoptional'
      exact (hpassed k).mpr (hbefore k (by omega) spec' hspec' hoptional')
  have hstarted (j : ℕ) : W.stepStatus j ≠ .pending ↔ j < i + 1 := by
    rw [h.stepStatus]
    exact h₀.started_iff j
  constructor
  · intro hlawful
    exact {
      smooth := h.smooth.mpr hlawful.noRecall
      named := by
        intro j spec' hspec' hoptional' hname' hj
        rcases Nat.lt_succ_iff_lt_or_eq.mp (hreached.mp hj) with hlt | rfl
        · exact (hpassed j).mpr (hbefore j hlt spec' hspec' hoptional')
        · rw [hspec] at hspec'
          cases hspec'
          exact absurd hname' hname
      retried := by
        intro j spec' c hspec' hc hretries hj
        have hattempted := hlawful.attempted hfinal j spec' hspec' (by rw [hc]; rfl)
          ((hstarted j).mpr (hreached.mp hj))
        rw [h.attempted j c ((hall j c).mpr ⟨hreached.mp hj, spec', hspec', hc⟩)] at hattempted
        omega }
  · intro hregular
    exact {
      terminal := ⟨rfl, hterminal⟩
      completed := by
        refine iff_of_false hfinal fun hcompleted => ?_
        have hcompleted := hcompleted i spec hspec hoptional
        rw [h.stepStatus, hfailed] at hcompleted
        cases hcompleted
      quiet := fun hcompleted => absurd hcompleted hfinal
      attempted := by
        intro _ j spec' hspec' hsome hpending
        obtain ⟨c, hc⟩ := Option.isSome_iff_exists.mp hsome
        have hj := (hstarted j).mp hpending
        rw [h.attempted j c ((hall j c).mpr ⟨hj, spec', hspec', hc⟩)]
        by_contra hretries
        exact hnot (hregular.retried j spec' c hspec' hc (by omega) (hreached.mpr hj) i spec hspec
          hoptional)
      inReverse := h.inReverse
      notAgain := h.notAgain
      truthful := by
        intro hcompensated j spec' hspec' hsome hpending
        obtain ⟨c, hc⟩ := Option.isSome_iff_exists.mp hsome
        have hnone : W.failedCompensations = [] := by
          by_contra hne
          have heq : W.finalStatus = .partiallyCompensated := if_neg hne
          rw [heq] at hcompensated
          cases hcompensated
        exact h.succeeded.mp hnone j c
          ((hall j c).mpr ⟨(hstarted j).mp hpending, spec', hspec', hc⟩)
      noRecall := h.smooth.mp hregular.smooth }

theorem decided_of_not_smooth {ended : Ended Ask Answer Unit} (hsmooth : ¬ Smooth specs events)
    (hended : ended.1 ≠ .ok () ∨ ended.2.status = .compensating) :
    Decided persistent specs ended events := by
  refine iff_of_false (fun hlawful => ?_) fun hregular => hsmooth hregular.smooth
  rcases hended with hraised | hstatus
  · exact hraised hlawful.terminal.1
  · have hterminal := hlawful.terminal.2
    rw [hstatus] at hterminal
    exact absurd hterminal (by decide)

theorem ends_lastSave (hW : W.saveState = provider persistent)
    (hhead : persistent = true → ∀ j k, events.head? ≠ some (.returned j k))
    (hsaved : persistent = true → Decided persistent specs (.ok (), W) (.saved :: events))
    (hunsaved : persistent = false → Decided persistent specs (.ok (), W) events) :
    Ends (W.saveCurrentState >>= fun saved => pure (saved, W)) events
      (BodyEnded persistent specs) := by
  rw [ends_bind, ends_save hW]
  rcases persistent with _ | _
  · exact hunsaved rfl
  · exact ⟨hsaved rfl, fun e => not_smooth_unsaved (hhead rfl) _⟩

theorem ends_conclude {events₀ : List Event} {W₀ : SagaWorkflow Ask Answer}
    (h : StepsEnded persistent specs (.ok (), W₀) events₀) :
    Ends W₀.conclude events₀ (BodyEnded persistent specs) := by
  rcases h with ⟨hunderway, hcompleted⟩ | ⟨i, spec, W, hspec, hoptional, hunderway, hfailed, hbefore,
    hW₀⟩
  · have hnone : W₀.hasFailed = false := by
      rw [hasFailed, hunderway.failedStep]
      rfl
    rw [conclude, if_neg (by rw [hnone]; decide)]
    refine ends_lastSave hunderway.saveState hunderway.head (fun hpersistent => ?_) fun _ => ?_
    · exact decided_completed (hunderway.save hpersistent) hcompleted
    · exact decided_completed hunderway hcompleted
  · obtain rfl : W₀ = { W with failedStep := some spec.name } := hW₀
    by_cases hname : spec.name = ""
    · have hunseen : ({ W with failedStep := some spec.name } : SagaWorkflow Ask Answer).hasFailed =
          false := by
        simp [hasFailed, hname]
      rw [conclude, if_neg (by rw [hunseen]; decide)]
      refine ends_lastSave hunderway.saveState hunderway.head (fun hpersistent => ?_) fun _ => ?_
      · exact decided_unnamed (hunderway.save hpersistent) hspec hoptional hname hfailed hbefore
      · exact decided_unnamed hunderway hspec hoptional hname hfailed hbefore
    · have hseen : ({ W with failedStep := some spec.name } : SagaWorkflow Ask Answer).hasFailed =
          true := by
        simp [hasFailed, hname]
      obtain ⟨l, hcompensations, hsorted, hmem⟩ := hunderway.registered
      rw [conclude, if_pos hseen, ends_bind, runCompensations]
      have hreverse : W.compensations.reverse =
          l.reverse.map fun c => c.2.toCompensation c.1 := by
        rw [hcompensations, List.map_reverse]
      have hdescending : ([] ++ l.reverse).Pairwise
          fun (c c' : ℕ × CompensationSpec) => c'.1 < c.1 := by
        rw [List.nil_append, List.pairwise_reverse]
        exact hsorted
      have hundoing : Undoing persistent specs W events₀ []
          { W with failedStep := some spec.name, status := .compensating } events₀ := {
        saveState := hunderway.saveState
        status := rfl
        stepStatus := rfl
        passed := fun _ => Iff.rfl
        smooth := hunderway.smooth
        inReverse := inReverse_of_quiet hunderway.quiet
        notAgain := notAgain_of_quiet hunderway.quiet
        head := hunderway.head
        own := by
          intro e he j hj
          rw [hunderway.quiet e he] at hj
          cases hj
        attempted := fun _ _ hj => absurd hj List.not_mem_nil
        succeeded := iff_of_true hunderway.failedCompensations
          fun _ _ hj => absurd hj List.not_mem_nil }
      have hloop := ends_compensateAll hdescending hundoing
      rw [← hreverse, List.nil_append] at hloop
      have hall : ∀ j c, (j, c) ∈ l.reverse ↔
          j < i + 1 ∧ ∃ spec, specs[j]? = some spec ∧ spec.compensation = some c := by
        intro j c
        rw [List.mem_reverse, hmem]
      refine Ends.mono hloop ?_
      rintro ⟨result, W'⟩ events hended
      rcases result with e | _
      · exact hended
      · refine ends_lastSave hended.saveState hended.head (fun hpersistent => ?_) fun _ => ?_
        · exact decided_compensated hunderway hspec hoptional hname hfailed hbefore hall
            (hended.save hpersistent)
        · exact decided_compensated hunderway hspec hoptional hname hfailed hbefore hall hended

theorem underway_zero (hW : W.saveState = provider persistent)
    (hcompensations : W.compensations = []) (hfailedStep : W.failedStep = none)
    (hfailed : W.failedCompensations = []) (hstatus : W.stepStatus = fun _ => .pending)
    (hevents : events = [] ∨ events = [.saved]) : Underway persistent specs 0 W events where
  saveState := hW
  registered := hcompensations ▸ registered_zero
  failedStep := hfailedStep
  failedCompensations := hfailed
  done := fun j hj => absurd hj (Nat.not_lt_zero j)
  waiting := by
    intro j _
    rcases hevents with rfl | rfl
    · exact ⟨by rw [hstatus], id, fun _ => List.not_mem_nil⟩
    · exact ⟨by rw [hstatus], by simp [Passed], fun _ => by simp⟩
  quiet := by
    intro e he
    rcases hevents with rfl | rfl
    · cases he
    · rw [List.mem_singleton.mp he]
      rfl
  head := by
    rintro - j k
    rcases hevents with rfl | rfl <;> rintro ⟨⟩
  smooth := by
    rcases hevents with rfl | rfl
    · exact Iff.rfl
    · exact iff_of_true ⟨trivial, trivial⟩ ⟨(fun _ hk => by cases hk), trivial⟩

theorem ends_execute (sagaId : String) (persistent : Bool) (specs : List StepSpec)
    (context context' : SagaContext) :
    Ends ((workflow sagaId persistent specs context).execute context') []
      (Decided persistent specs) := by
  have hsteps : (workflow sagaId persistent specs context).steps =
      specs.mapIdx fun j spec => spec.toStep (0 + j) := by
    simp only [workflow, Nat.zero_add]
  generalize hW₁ : { workflow sagaId persistent specs context with
    status := .executing, context := context' } = W₁
  have hbody {events : List Event} (hevents : events = [] ∨ events = [.saved]) :
      Ends W₁.executeBody events (BodyEnded persistent specs) := by
    have hunderway : Underway persistent specs 0 W₁ events := by
      rw [← hW₁]
      exact underway_zero rfl rfl rfl rfl rfl hevents
    have hloop := ends_executeSteps (Nat.zero_le _) rfl hunderway
      fun j hj => absurd hj (Nat.not_lt_zero j)
    have hsteps₁ : W₁.steps = specs.mapIdx fun j spec => spec.toStep (0 + j) := by
      rw [← hW₁]
      exact hsteps
    rw [List.drop_zero, ← hsteps₁] at hloop
    rw [executeBody, ends_bind]
    refine Ends.mono hloop ?_
    rintro ⟨result, W⟩ events' hended
    rcases result with e | _
    · exact hended.2
    · exact ends_conclude hended
  have hrest {events : List Event} (hevents : events = [] ∨ events = [.saved]) :
      Ends (W₁.executeBody >>= fun ended => match ended.1 with
        | .ok () => pure (.ok (), ended.2)
        | .error e =>
          if e.escapes then pure (.error e, ended.2)
          else { ended.2.addError e.message with status := .failed }.runCompensations)
        events (Decided persistent specs) := by
    rw [ends_bind]
    refine (hbody hevents).mono ?_
    rintro ⟨result, W⟩ events' hended
    cases result with
    | ok _ => exact hended
    | error e =>
      show Ends (if e.escapes then _ else _) _ _
      split
      · exact decided_of_not_smooth hended (.inl (by rintro ⟨⟩))
      · refine (kept_compensateAll specs _ _ events').mono fun ended events'' hkept => ?_
        exact decided_of_not_smooth (fun hsmooth => hended (hkept.2 hsmooth)) (.inr hkept.1)
  have hsaveState : W₁.saveState = provider persistent := by
    rw [← hW₁]
    rfl
  rw [execute, hW₁, ends_bind, ends_save hsaveState]
  rcases persistent with _ | _
  · exact hrest (.inl rfl)
  · refine ⟨hrest (.inr rfl), fun e => ?_⟩
    exact decided_of_not_smooth (not_smooth_unsaved (by rintro j k ⟨⟩) _) (.inl (by rintro ⟨⟩))

/-- **The compensation law** holds of an execution exactly when its answers are regular. -/
theorem lawful_iff_regular (sagaId : String) (persistent : Bool) (specs : List StepSpec)
    (context context' : SagaContext) {result : Except Failure Unit} {W : SagaWorkflow Ask Answer}
    {events : List Event}
    (hrun : Exec anyAnswer ((workflow sagaId persistent specs context).execute context') []
      (.returned (result, W)) events) :
    Lawful specs result W events ↔ Regular persistent specs events :=
  hrun.returned (ends_execute sagaId persistent specs context context')

/-! ## A save that fails -/

/-- Every function returns and every save goes through, but for the one after the first call. -/
def oneLostSave (events : List Event) : (o : Ask) → Answer o
  | .step _ _ => .ok .null
  | .compensate _ _ => .ok true
  | .save _ => if events.head? = some (.returned 0 1) then .error (.operation "disk full") else .ok ()

def charge : SagaWorkflow Ask Answer :=
  workflow "order-7" true [{ name := "charge" }] { constitutionalHash := "608508a9bd224290" }

theorem charge_run : ∃ W, Exec anyAnswer (charge.execute { constitutionalHash := "608508a9bd224290" })
    [] (.returned (.ok (), W))
    [.saved, .saved, .returned 0 2, .unsaved false, .returned 0 1, .saved] :=
  ⟨_, Exec.of_run (fun events o =>
    (oneLostSave events o, observe o (oneLostSave events o) :: events)) (fun _ _ => rfl) _ _⟩

theorem lawful_iff_regular_charge : ∃ W, Lawful [{ name := "charge" }] (.ok ()) W
      [.saved, .saved, .returned 0 2, .unsaved false, .returned 0 1, .saved] ↔
    Regular true [{ name := "charge" }]
      [.saved, .saved, .returned 0 2, .unsaved false, .returned 0 1, .saved] := by
  obtain ⟨W, hrun⟩ := charge_run
  exact ⟨W, lawful_iff_regular _ _ _ _ _ hrun⟩

/-- The step has returned, and is called again. -/
theorem not_lawful_charge : ∃ W events,
    Exec anyAnswer (charge.execute { constitutionalHash := "608508a9bd224290" }) []
      (.returned (.ok (), W)) events ∧ ¬ Lawful [{ name := "charge" }] (.ok ()) W events := by
  obtain ⟨W, hrun⟩ := charge_run
  refine ⟨W, _, hrun, fun hlawful => ?_⟩
  have hrecall := hlawful.noRecall.2.2.1
  exact hrecall 0 rfl 1 (by decide)

end EnhancedAgentBus.Workflows
