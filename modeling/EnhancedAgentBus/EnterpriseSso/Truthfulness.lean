import EnhancedAgentBus.EnterpriseSso.SagaOrchestration
import Mathlib.Data.List.Nodup

/-!
# What `COMPENSATED` says of a migration

For any definition whose steps have distinct names, any answers of actions, compensations and saves,
and any calls of the three entry points one after the other, each of them possibly stopped: where
the saga is stored as `COMPENSATED`, no step is owed a compensation, and a recovery pass takes up
what is left (`Kept`).

An execution only compensates what it has completed itself, and does not know of an action whose
save fails; a cancellation only compensates what is stored as completed, and does not look at what
came of it; a recovery pass always raises.  `Careful` says of each answer what has to be the case
for this not to matter, and `kept_of_careful` that nothing else goes wrong.
-/

namespace EnhancedAgentBus.EnterpriseSso

open Async

abbrev SagaDefinition.Distinct (definition : SagaDefinition) : Prop :=
  (definition.steps.map fun step => step.name).Nodup

/-- An entry that no entry of a kind has come after. -/
def Since (hit : Entry) (ends : Entry → Prop) (log : List Entry) : Prop :=
  ∃ later earlier, log = later ++ hit :: earlier ∧ ∀ e ∈ later, ¬ ends e

/-- The step was compensated, or stored as `SKIPPED` under `CompensationStrategy.SKIP`. -/
def Entry.Settles (step : SagaStepDefinition) : Entry → Prop
  | .compensated step' success => step' = step ∧ success = true
  | .saved saga => step.compensationStrategy = .skip ∧
      ∃ execution ∈ saga.steps, execution.stepName = step.name ∧ execution.status = .skipped
  | .loaded | .called _ _ => False

instance Entry.Settles.decidable (step : SagaStepDefinition) : DecidablePred (Entry.Settles step)
  | .compensated _ _ => inferInstanceAs (Decidable (_ ∧ _))
  | .saved _ => inferInstanceAs (Decidable (_ ∧ _))
  | .loaded | .called _ _ => .isFalse id

/-- The action of the step reported success, and nothing has settled this afterwards. -/
def Owed (step : SagaStepDefinition) (log : List Entry) : Prop :=
  Since (.called step true) (Entry.Settles step) log

/-- The action of the step reported success since the saga was loaded last. -/
def SucceededHere (step : SagaStepDefinition) (log : List Entry) : Prop :=
  Since (.called step true) (fun e => e = .loaded) log

/-! ## What is promised -/

/-- Where the saga is stored as `COMPENSATED`, no step is owed a compensation. -/
def Truthful (definition : SagaDefinition) (w : World) : Prop :=
  w.stored.status = .compensated → ∀ step ∈ definition.steps, ¬ Owed step w.log

/-- The saga is to be taken up by a recovery pass. -/
def Saga.IsPending (saga : Saga) : Prop :=
  saga.status = .compensating ∨ saga.status = .partiallyCompensated

/-- A recovery pass that has ended took up what was left: it returned, and the compensations that it
called are those of the steps that were owed one. -/
def TakenUp (definition : SagaDefinition) (w : World)
    (out : Outcome Empty (Except Failure Unit)) (w' : World) : Prop :=
  w.stored.IsPending → out.ended = true → out = .returned (.ok ()) ∧
    ∃ later, w'.log = later ++ w.log ∧ ∀ step ∈ definition.steps,
      (∃ success, .compensated step success ∈ later) ↔ Owed step w.log

/-- **What is promised** of a call. -/
structure Kept (definition : SagaDefinition) (c : Call) (w : World)
    (out : Outcome Empty (Except Failure Unit)) (w' : World) : Prop where
  truthful : Truthful definition w'
  takenUp : c = .recover → TakenUp definition w out w'

/-! ## What is asked of the answers -/

/-- The answers that leave `COMPENSATED` truthful.

* Where an execution turns to compensations, each step that is owed one has succeeded since the saga
  was loaded; and a save after a successful action does not raise an operation error.
* Where a cancellation loads a saga that it takes up, each step that is owed a compensation is
  stored as completed, and has an attempt or the strategy `SKIP`; and where the last attempt of the
  compensation of such a step fails, the strategy is `SKIP`. -/
def Careful (definition : SagaDefinition) (c : Call) (w : World) : (o : Op) → Resp o → Prop
  | .save saga, r => c = .execute →
      (saga.status = .compensating →
        ∀ step ∈ definition.steps, Owed step w.log → SucceededHere step w.log) ∧
      (r = .error .operation → ∀ step, w.log.head? ≠ some (.called step true))
  | .get, saga => c = .cancelSaga → saga.status = .pending ∨ saga.status = .running →
      ∀ step ∈ definition.steps, Owed step w.log → step.name ∈ saga.completedSteps ∧
        (definition.maxCompensationRetries < 0 → step.compensationStrategy = .skip)
  | .compensation step attempt, r => c = .cancelSaga →
      r = .ok false ∨ r = .error .operation → (attempt : ℤ) = definition.maxCompensationRetries →
      Owed step w.log → step.compensationStrategy = .skip
  | .action _ _, _ => True

def CarefulAnswer (definition : SagaDefinition) (c : Call) (w : World) (o : Op) (r : Resp o)
    (w' : World) : Prop :=
  w.Answers o r w' ∧ Careful definition c w o r

/-- One call with careful answers; and no recovery pass is due. -/
def CarefulRun (definition : SagaDefinition) (c : Call) (w : World)
    (out : Outcome Empty (Except Failure Unit)) (w' : World) : Prop :=
  (c = .recover → ¬ w.stored.IsPending) ∧
    Exec (CarefulAnswer definition c) (c.program definition) w out w'

/-! ## Books -/

section Books

variable {hit e : Entry} {ends : Entry → Prop} {log : List Entry} {step step' : SagaStepDefinition}
  {w w' : World} {saga : Saga}

theorem since_cons : Since hit ends (e :: log) ↔ e = hit ∨ ¬ ends e ∧ Since hit ends log := by
  constructor
  · rintro ⟨later, earlier, hlog, hends⟩
    rcases later with _ | ⟨e', later⟩
    · exact .inl (List.cons_eq_cons.mp hlog).1
    · obtain ⟨rfl, htail⟩ := List.cons_eq_cons.mp hlog
      exact .inr ⟨hends _ List.mem_cons_self, later, earlier, htail,
        fun e' he' => hends e' (List.mem_cons_of_mem _ he')⟩
  · rintro (rfl | ⟨hnot, later, earlier, hlog, hends⟩)
    · exact ⟨[], log, rfl, fun _ h => absurd h List.not_mem_nil⟩
    · refine ⟨e :: later, earlier, by rw [hlog]; rfl, fun e' he' => ?_⟩
      rcases List.mem_cons.mp he' with rfl | he'
      · exact hnot
      · exact hends e' he'

instance Since.decidable [DecidablePred ends] :
    (log : List Entry) → Decidable (Since hit ends log)
  | [] => .isFalse fun ⟨_, _, hlog, _⟩ => by simp at hlog
  | e :: log =>
    have : Decidable (Since hit ends log) := Since.decidable log
    decidable_of_iff' _ since_cons

theorem owed_cons :
    Owed step (e :: log) ↔ e = .called step true ∨ ¬ e.Settles step ∧ Owed step log := since_cons

instance Owed.decidable (step : SagaStepDefinition) : DecidablePred (Owed step) :=
  fun log => inferInstanceAs (Decidable (Since _ _ log))

theorem succeededHere_cons : SucceededHere step (e :: log) ↔
    e = .called step true ∨ e ≠ .loaded ∧ SucceededHere step log := since_cons

def Shrinks (w w' : World) : Prop := ∀ step, Owed step w'.log → Owed step w.log

theorem Shrinks.refl (w : World) : Shrinks w w := fun _ => id

theorem Shrinks.trans {w'' : World} (h : Shrinks w w') (h' : Shrinks w' w'') : Shrinks w w'' :=
  fun step howed => h step (h' step howed)

theorem shrinks_cons (hlog : w'.log = e :: w.log)
    (he : ∀ step, e ≠ .called step true) : Shrinks w w' := by
  intro step howed
  rw [hlog, owed_cons] at howed
  exact (howed.resolve_left (he step)).2

theorem shrinks_write (w : World) (saga : Saga) : Shrinks w (w.write saga) :=
  shrinks_cons rfl fun _ => by rintro ⟨⟩

theorem shrinks_answers {r : Resp (.save saga)} (h : w.Answers (.save saga) r w') :
    Shrinks w w' := by
  cases r with
  | ok _ =>
    obtain rfl : w' = _ := h
    exact shrinks_write w saga
  | error e =>
    obtain rfl | rfl := h
    · exact .refl _
    · exact shrinks_write _ saga

theorem not_owed_compensated : ¬ Owed step (.compensated step true :: log) := by
  rw [owed_cons]
  rintro (⟨⟨⟩⟩ | ⟨hnot, -⟩)
  exact hnot ⟨rfl, rfl⟩

end Books

section Truthfulness

variable {definition : SagaDefinition} {c : Call} {w w' : World}

/-- What an operation has to find, for what is stored to stay truthful. -/
def Allowed (definition : SagaDefinition) (w : World) : Op → Prop
  | .save saga => saga.status = .compensated → ∀ step ∈ definition.steps, ¬ Owed step w.log
  | .action _ _ => w.stored.status ≠ .compensated
  | .get | .compensation _ _ => True

theorem Truthful.write (saga : Saga) (h : Allowed definition w (.save saga)) :
    Truthful definition (w.write saga) :=
  fun hstatus step hstep howed => h hstatus step hstep (shrinks_write w saga step howed)

/-- **One operation** keeps what is stored truthful. -/
theorem Truthful.answers (h : Truthful definition w) {o : Op} (ho : Allowed definition w o)
    {r : Resp o} (hanswers : w.Answers o r w') : Truthful definition w' := by
  cases o with
  | get =>
    obtain ⟨-, rfl⟩ := hanswers
    exact fun hstatus step hstep howed => h hstatus step hstep
      (shrinks_cons (w := w) rfl (fun _ => by rintro ⟨⟩) step howed)
  | save saga =>
    cases r with
    | ok _ =>
      obtain rfl : w' = _ := hanswers
      exact .write saga ho
    | error e =>
      obtain rfl | rfl := hanswers
      · exact h
      · exact .write saga ho
  | action step attempt =>
    obtain rfl : w' = _ := hanswers
    exact fun hstatus => absurd hstatus ho
  | compensation step attempt =>
    obtain rfl : w' = _ := hanswers
    exact fun hstatus step hstep howed => h hstatus step hstep
      (shrinks_cons (w := w) rfl (fun _ => by rintro ⟨⟩) step howed)

/-! ## What is awaited, one by one -/

/-- What holds when a method has ended, its answers being careful. -/
abbrev Ends {α : Type} (definition : SagaDefinition) (c : Call) (p : Prog Op Resp Empty α)
    (w : World) (Q : α → World → Prop) : Prop :=
  Safe (CarefulAnswer definition c) (Allowed definition) p w Q fun e _ => e.elim

theorem Ends.mono {α : Type} {p : Prog Op Resp Empty α} {Q Q' : α → World → Prop}
    (h : Ends definition c p w Q) (hQ : ∀ a w', Q a w' → Q' a w') : Ends definition c p w Q' :=
  Safe.mono h hQ fun e _ => e.elim

theorem ends_bind {α β : Type} (p : Prog Op Resp Empty α) (f : α → Prog Op Resp Empty β)
    (Q : β → World → Prop) :
    Ends definition c (p >>= f) w Q ↔
      Ends definition c p w fun a w' => Ends definition c (f a) w' Q :=
  safe_bind p f

theorem ends_get {Q : Saga → World → Prop}
    (h : Careful definition c w .get w.stored → Q w.stored (w.note .loaded)) :
    Ends definition c get w Q := by
  refine ⟨trivial, fun saga w' hanswer => ?_⟩
  obtain ⟨⟨rfl, rfl⟩, hcareful⟩ := hanswer
  exact h hcareful

theorem ends_save {saga : Saga} {Q : Except Failure Unit → World → Prop}
    (hallowed : Allowed definition w (.save saga))
    (hok : Careful definition c w (.save saga) (.ok ()) → Q (.ok ()) (w.write saga))
    (herror : ∀ e w', Careful definition c w (.save saga) (.error e) →
      w' = w ∨ w' = w.write saga → Q (.error e) w') :
    Ends definition c (save saga) w Q := by
  refine ⟨hallowed, fun r w' hanswer => ?_⟩
  obtain ⟨hanswers, hcareful⟩ := hanswer
  cases r with
  | ok _ =>
    obtain rfl : w' = _ := hanswers
    exact hok hcareful
  | error e => exact herror e w' hcareful hanswers

/-! ## Compensations

A compensation is followed among others: what they do meanwhile only settles more. -/

def Compensates (definition : SagaDefinition) (w : World) : Op → Prop
  | .save saga => saga.status = .compensated → ∀ step ∈ definition.steps, ¬ Owed step w.log
  | .compensation _ _ => True
  | .get | .action _ _ => False

theorem Compensates.allowed {o : Op} (h : Compensates definition w o) : Allowed definition w o := by
  cases o with
  | save saga => exact h
  | compensation step attempt => trivial
  | get => trivial
  | action step attempt => exact h.elim

/-- What holds when a method has ended, others having settled steps meanwhile. -/
abbrev EndsAmid {α : Type} (definition : SagaDefinition) (c : Call) (p : Prog Op Resp Empty α)
    (w : World) (Q : α → World → Prop) : Prop :=
  Safe (Amid Shrinks (CarefulAnswer definition c)) (Compensates definition) p w Q fun e _ => e.elim

theorem EndsAmid.mono {α : Type} {p : Prog Op Resp Empty α} {Q Q' : α → World → Prop}
    (h : EndsAmid definition c p w Q) (hQ : ∀ a w', Q a w' → Q' a w') :
    EndsAmid definition c p w Q' :=
  Safe.mono h hQ fun e _ => e.elim

theorem endsAmid_bind {α β : Type} (p : Prog Op Resp Empty α) (f : α → Prog Op Resp Empty β)
    (Q : β → World → Prop) :
    EndsAmid definition c (p >>= f) w Q ↔
      EndsAmid definition c p w fun a w' => EndsAmid definition c (f a) w' Q :=
  safe_bind p f

theorem EndsAmid.ends {α : Type} {p : Prog Op Resp Empty α} {Q : α → World → Prop}
    (h : EndsAmid definition c p w Q) : Ends definition c p w Q :=
  Safe.weaken h (fun w _ _ _ hanswer => ⟨w, .refl w, hanswer⟩) fun _ _ => Compensates.allowed

theorem endsAmid_save {saga : Saga} {Q : Except Failure Unit → World → Prop}
    (hallowed : Compensates definition w (.save saga))
    (hok : ∀ w₁, Shrinks w w₁ → Q (.ok ()) (w₁.write saga))
    (herror : ∀ e w', Shrinks w w' → Q (.error e) w') :
    EndsAmid definition c (save saga) w Q := by
  refine ⟨hallowed, fun r w' hanswer => ?_⟩
  obtain ⟨w₁, hshrinks, hanswers, -⟩ := hanswer
  cases r with
  | ok _ =>
    obtain rfl : w' = _ := hanswers
    exact hok w₁ hshrinks
  | error e => exact herror e w' (hshrinks.trans (shrinks_answers hanswers))

theorem endsAmid_retryCompensation (step : SagaStepDefinition) (n attempt : ℕ)
    (hcount : attempt + n = (definition.maxCompensationRetries + 1).toNat)
    (hnone : c = .cancelSaga → n = 0 → Owed step w.log → step.compensationStrategy = .skip) :
    EndsAmid definition c (runWithRetries (compensation step) n attempt) w fun r w' =>
      Shrinks w w' ∧ (r = .ok true → ¬ Owed step w'.log) ∧
        (c = .cancelSaga → r = .ok false → Owed step w'.log →
          step.compensationStrategy = .skip) := by
  induction n generalizing attempt w with
  | zero => exact ⟨.refl w, by rintro ⟨⟩, fun hc _ => hnone hc rfl⟩
  | succ n ih =>
    rw [runWithRetries, endsAmid_bind]
    refine ⟨trivial, fun r w' hanswer => ?_⟩
    obtain ⟨w₁, hw₁, rfl, hcareful⟩ := hanswer
    have hshrinks (success : Bool) : Shrinks w (w₁.note (.compensated step success)) :=
      hw₁.trans (shrinks_cons rfl fun _ => by rintro ⟨⟩)
    -- after a failure the attempts go on
    have hrest (hfails : r = .ok false ∨ r = .error .operation) :
        EndsAmid definition c (runWithRetries (compensation step) n (attempt + 1))
          (w₁.note (.compensated step false)) fun r w' => Shrinks w w' ∧
            (r = .ok true → ¬ Owed step w'.log) ∧ (c = .cancelSaga → r = .ok false →
              Owed step w'.log → step.compensationStrategy = .skip) := by
      refine EndsAmid.mono (ih (attempt + 1) (by omega) fun hc hn howed => ?_) fun r w' h =>
        ⟨(hshrinks false).trans h.1, h.2⟩
      have hbefore : Shrinks w₁ (w₁.note (.compensated step false)) :=
        shrinks_cons rfl fun _ => by rintro ⟨⟩
      exact hcareful hc hfails (by omega) (hbefore step howed)
    rcases r with (_ | _) | (_ | _)
    · exact hrest (.inr rfl)
    · exact ⟨hshrinks false, by rintro ⟨⟩, by rintro - ⟨⟩⟩
    · exact hrest (.inl rfl)
    · exact ⟨hshrinks true, fun _ => not_owed_compensated, by rintro - ⟨⟩⟩

def Saga.names (saga : Saga) : List String := saga.steps.map fun execution => execution.stepName

@[simp] theorem Saga.names_setStatus (saga : Saga) (i : ℕ) (status : SagaStepStatus) :
    (saga.setStatus i status).names = saga.names := by
  refine List.ext_getElem? fun j => ?_
  simp only [names, setStatus, List.getElem?_map, List.getElem?_modify]
  by_cases hij : i = j
  · cases saga.steps[j]? <;> simp [hij]
  · simp [hij]

theorem not_owed_skipped {saga : Saga} {step : SagaStepDefinition} {i : ℕ} (log : List Entry)
    (hi : saga.names[i]? = some step.name) (hskip : step.compensationStrategy = .skip) :
    ¬ Owed step (.saved (saga.setStatus i .skipped) :: log) := by
  rw [owed_cons]
  rintro (⟨⟨⟩⟩ | ⟨hnot, -⟩)
  rw [Saga.names, List.getElem?_map, Option.map_eq_some_iff] at hi
  obtain ⟨execution, hexecution, hname⟩ := hi
  refine hnot ⟨hskip, { execution with status := .skipped }, ?_, hname, rfl⟩
  refine List.mem_of_getElem? (i := i) ?_
  simp [Saga.setStatus, hexecution]

/-- What a cancellation has to know of the steps that are owed a compensation, where there are no
attempts. -/
def NoAttempts (definition : SagaDefinition) (w : World) : Prop :=
  definition.maxCompensationRetries < 0 →
    ∀ step ∈ definition.steps, Owed step w.log → step.compensationStrategy = .skip

theorem NoAttempts.shrinks (h : NoAttempts definition w) (hw : Shrinks w w') :
    NoAttempts definition w' :=
  fun hneg step hstep howed => h hneg step hstep (hw step howed)

/-- What holds when the compensation of a step has ended. -/
structure StepUndone (c : Call) (w : World) (saga : Saga) (step : SagaStepDefinition)
    (result : Except Failure Bool) (saga' : Saga) (w' : World) : Prop where
  status : saga'.status = saga.status
  names : saga'.names = saga.names
  shrinks : Shrinks w w'
  succeeded : result = .ok true → ¬ Owed step w'.log
  failed : c = .cancelSaga → result = .ok false → ¬ Owed step w'.log

theorem allowed_of_compensating {saga : Saga} (hstatus : saga.status = .compensating) :
    Allowed definition w (.save saga) := by
  intro h
  rw [hstatus] at h
  cases h

theorem endsAmid_compensateStep {saga : Saga} {step : SagaStepDefinition} {i : ℕ}
    (hstatus : saga.status = .compensating) (hstep : step ∈ definition.steps)
    (hi : saga.names[i]? = some step.name)
    (hnone : c = .cancelSaga → NoAttempts definition w) :
    EndsAmid definition c (compensateStep saga step i definition.maxCompensationRetries) w
      fun ended w' => StepUndone c w saga step ended.1 ended.2 w' := by
  rw [compensateStep, endsAmid_bind]
  refine endsAmid_save (allowed_of_compensating hstatus) (fun w₁ hw₁ => ?_) fun e w₁ hw₁ => ?_
  · have hwrite := hw₁.trans (shrinks_write w₁ (saga.setStatus i .compensating))
    rw [endsAmid_bind]
    refine EndsAmid.mono (endsAmid_retryCompensation step _ 0 (Nat.zero_add _) fun hc hn howed =>
      hnone hc (by omega) step hstep (hwrite step howed)) ?_
    rintro (e | success) w₂ ⟨hw₂, htrue, hfalse⟩
    · exact ⟨rfl, Saga.names_setStatus .., hwrite.trans hw₂, by rintro ⟨⟩, by rintro - ⟨⟩⟩
    · have hboth := hwrite.trans hw₂
      rw [endsAmid_bind]
      refine endsAmid_save (allowed_of_compensating hstatus) (fun w₃ hw₃ => ?_) fun e w₃ hw₃ => ?_
      · have hlast := hw₃.trans (shrinks_write w₃ ((saga.setStatus i .compensating).setStatus i
          (if success then .compensated
            else if step.compensationStrategy = .skip then .skipped else .compensationFailed)))
        refine ⟨rfl, by simp only [Saga.names_setStatus], hboth.trans hlast, ?_, ?_⟩
        · intro hresult howed
          cases success with
          | true => exact htrue rfl (hlast step howed)
          | false =>
            have hskip : step.compensationStrategy = .skip := by simpa using hresult
            revert howed
            rw [if_neg Bool.false_ne_true, if_pos hskip]
            exact not_owed_skipped _ (by rw [Saga.names_setStatus]; exact hi) hskip
        · intro hc hresult howed
          cases success with
          | true => simp at hresult
          | false =>
            have hskip := hfalse hc rfl (hlast step howed)
            simp [hskip] at hresult
      · exact ⟨rfl, by simp only [Saga.names_setStatus], hboth.trans hw₃, by rintro ⟨⟩,
          by rintro - ⟨⟩⟩
  · exact ⟨rfl, Saga.names_setStatus .., hw₁, by rintro ⟨⟩, by rintro - ⟨⟩⟩

/-- What holds when the compensations of steps with some names have ended: either all of them were
successful, or they are fewer. -/
structure Undone (definition : SagaDefinition) (c : Call) (w : World) (stepNames : List String)
    (compensated : List String) (result : Except Failure (List String)) (saga' : Saga)
    (w' : World) : Prop where
  status : saga'.status = .compensating
  shrinks : Shrinks w w'
  length : ∀ compensated', result = .ok compensated' →
    compensated'.length ≤ compensated.length + stepNames.length
  settled : ∀ compensated', result = .ok compensated' →
    c = .cancelSaga ∨ compensated'.length = compensated.length + stepNames.length →
    ∀ step ∈ definition.steps, step.name ∈ stepNames → ¬ Owed step w'.log

theorem endsAmid_compensateAll (hdistinct : definition.Distinct)
    (stepNames compensated : List String) {saga : Saga} (hstatus : saga.status = .compensating)
    (hnames : c = .cancelSaga → stepNames ⊆ saga.names)
    (hnone : c = .cancelSaga → NoAttempts definition w) :
    EndsAmid definition c (compensateAll definition stepNames compensated saga) w
      fun ended w' => Undone definition c w stepNames compensated ended.1 ended.2 w' := by
  induction stepNames generalizing compensated saga w with
  | nil =>
    refine ⟨hstatus, .refl w, ?_, ?_⟩
    · rintro _ ⟨⟩
      exact Nat.le_refl _
    · exact fun _ _ _ _ _ hmem => absurd hmem List.not_mem_nil
  | cons stepName rest ih =>
    rw [compensateAll]
    split
    · rename_i step i hfind hindex
      have hstep := List.mem_of_find?_eq_some hfind
      have hname : step.name = stepName := by simpa using List.find?_some hfind
      have hi : saga.names[i]? = some step.name := by
        obtain ⟨hlt, hat, -⟩ := List.findIdx?_eq_some_iff_getElem.mp hindex
        rw [Saga.names, List.getElem?_map, List.getElem?_eq_getElem hlt, hname]
        simpa using hat
      -- the step with that name
      have hunique : ∀ step' ∈ definition.steps, step'.name = stepName → step' = step :=
        fun step' hstep' hname' =>
          List.inj_on_of_nodup_map hdistinct hstep' hstep (hname'.trans hname.symm)
      rw [endsAmid_bind]
      refine EndsAmid.mono (endsAmid_compensateStep hstatus hstep hi hnone) ?_
      rintro ⟨result, saga₁⟩ w₁ hundone
      have hnames₁ (hc : c = .cancelSaga) : rest ⊆ saga₁.names := by
        rw [hundone.names]
        exact fun x hx => hnames hc (List.mem_cons_of_mem _ hx)
      have hnone₁ (hc : c = .cancelSaga) : NoAttempts definition w₁ :=
        (hnone hc).shrinks hundone.shrinks
      have hstatus₁ : saga₁.status = .compensating := hundone.status.trans hstatus
      rcases result with e | (_ | _)
      · exact ⟨hstatus₁, hundone.shrinks, by rintro _ ⟨⟩, by rintro _ ⟨⟩⟩
      · refine EndsAmid.mono (ih compensated hstatus₁ hnames₁ hnone₁) ?_
        rintro ⟨result, saga₂⟩ w₂ hrest
        refine ⟨hrest.status, hundone.shrinks.trans hrest.shrinks, ?_, ?_⟩
        · intro compensated' hresult
          have hlength := hrest.length compensated' hresult
          rw [List.length_cons]
          omega
        · intro compensated' hresult hall step' hstep' hmem
          have hlength := hrest.length compensated' hresult
          have hc : c = .cancelSaga := hall.resolve_right fun heq => by
            rw [List.length_cons] at heq
            omega
          rcases List.mem_cons.mp hmem with hhead | htail
          · obtain rfl := hunique step' hstep' hhead
            exact fun howed => hundone.failed hc rfl (hrest.shrinks _ howed)
          · exact hrest.settled compensated' hresult (.inl hc) step' hstep' htail
      · refine EndsAmid.mono (ih (compensated ++ [stepName]) hstatus₁ hnames₁ hnone₁) ?_
        rintro ⟨result, saga₂⟩ w₂ hrest
        refine ⟨hrest.status, hundone.shrinks.trans hrest.shrinks, ?_, ?_⟩
        · intro compensated' hresult
          have hlength := hrest.length compensated' hresult
          rw [List.length_append, List.length_singleton] at hlength
          rw [List.length_cons]
          omega
        · intro compensated' hresult hall step' hstep' hmem
          rcases List.mem_cons.mp hmem with hhead | htail
          · obtain rfl := hunique step' hstep' hhead
            exact fun howed => hundone.succeeded rfl (hrest.shrinks _ howed)
          · refine hrest.settled compensated' hresult (hall.imp_right fun heq => ?_) step'
              hstep' htail
            rw [List.length_cons] at heq
            rw [List.length_append, List.length_singleton]
            omega
    · rename_i hfound
      refine EndsAmid.mono (ih compensated hstatus
        (fun hc x hx => hnames hc (List.mem_cons_of_mem _ hx)) hnone) ?_
      rintro ⟨result, saga₁⟩ w₁ hrest
      refine ⟨hrest.status, hrest.shrinks, ?_, ?_⟩
      · intro compensated' hresult
        have hlength := hrest.length compensated' hresult
        rw [List.length_cons]
        omega
      · intro compensated' hresult hall step hstep hmem
        have hlength := hrest.length compensated' hresult
        have hc : c = .cancelSaga := hall.resolve_right fun heq => by
          rw [List.length_cons] at heq
          omega
        rcases List.mem_cons.mp hmem with hhead | htail
        · -- it would have been found
          exfalso
          obtain ⟨execution, hexecution, hname⟩ :=
            List.mem_map.mp (hnames hc (List.mem_cons_self (a := stepName)))
          cases hstepFound : definition.steps.find? fun step => step.name = stepName with
          | none =>
            have hnone := List.find?_eq_none.mp hstepFound step hstep
            simp [hhead] at hnone
          | some step' =>
            cases hindex : saga.steps.findIdx? fun execution =>
                execution.stepName = stepName with
            | none =>
              have hnone := List.findIdx?_eq_none_iff.mp hindex execution hexecution
              simp [hname] at hnone
            | some i => exact hfound step' i hstepFound hindex
        · exact hrest.settled compensated' hresult (.inl hc) step hstep htail

/-! ## The entry points -/

theorem ends_lastSave {saga : Saga} (hallowed : Allowed definition w (.save saga)) :
    Ends definition c (save saga) w fun _ _ => True :=
  ends_save hallowed (fun _ => trivial) fun _ _ _ _ => trivial

theorem ends_handleSagaFailure (hdistinct : definition.Distinct)
    {saga : Saga} {completed : List String}
    (hcompleted : ∀ step, SucceededHere step w.log → step.name ∈ completed) :
    Ends definition .execute (handleSagaFailure definition saga completed) w fun _ _ => True := by
  rw [handleSagaFailure, ends_bind]
  refine ends_save (allowed_of_compensating rfl) (fun hcareful => ?_) fun _ _ _ _ => trivial
  rw [ends_bind]
  refine Ends.mono (endsAmid_compensateAll hdistinct completed.reverse [] rfl (by rintro ⟨⟩)
    (by rintro ⟨⟩)).ends ?_
  rintro ⟨e | compensated, saga'⟩ w' hundone
  · trivial
  · refine ends_lastSave fun hstatus step hstep howed => ?_
    have hall : compensated.length = completed.length := by
      by_contra hne
      simp [hne] at hstatus
    have hbefore := shrinks_write _ _ step (hundone.shrinks step howed)
    have hmem := hcompleted step ((hcareful rfl).1 rfl step hstep hbefore)
    refine hundone.settled compensated rfl (.inr ?_) step hstep (List.mem_reverse.mpr hmem) howed
    rw [List.length_nil, Nat.zero_add, List.length_reverse, hall]

theorem endsAmid_compensate (hdistinct : definition.Distinct) (saga : Saga)
    {completed : List String} (hstatus : saga.status = .compensating)
    (hnames : completed ⊆ saga.names) (hnone : NoAttempts definition w)
    (hknown : ∀ step ∈ definition.steps, Owed step w.log → step.name ∈ completed) :
    EndsAmid definition .cancelSaga (compensate definition saga completed) w fun ended w' =>
      ∀ compensated, ended.1 = .ok compensated → ∀ step ∈ definition.steps, ¬ Owed step w'.log := by
  refine EndsAmid.mono (endsAmid_compensateAll hdistinct completed.reverse [] hstatus
    (fun _ name hname => hnames (List.mem_reverse.mp hname)) fun _ => hnone) ?_
  rintro ⟨result, saga'⟩ w' hundone compensated hresult step hstep howed
  have hmem := hknown step hstep (hundone.shrinks step howed)
  exact hundone.settled compensated hresult (.inl rfl) step hstep (List.mem_reverse.mpr hmem) howed

theorem Saga.completedSteps_subset (saga : Saga) : saga.completedSteps ⊆ saga.names := by
  intro name hname
  obtain ⟨execution, hexecution, rfl⟩ := List.mem_map.mp hname
  exact List.mem_map.mpr ⟨execution, (List.mem_filter.mp hexecution).1, rfl⟩

theorem ends_cancelSaga (hdistinct : definition.Distinct) :
    Ends definition .cancelSaga (cancelSaga definition) w fun _ _ => True := by
  rw [cancelSaga, ends_bind]
  refine ends_get fun hcareful => ?_
  split
  · rename_i hstatus
    have hloaded := hcareful rfl hstatus
    have hshrinks : Shrinks w (w.note .loaded) := shrinks_cons rfl fun _ => by rintro ⟨⟩
    rw [ends_bind]
    refine ends_save (allowed_of_compensating rfl) (fun _ => ?_) fun _ _ _ _ => trivial
    rw [ends_bind]
    have hwritten := hshrinks.trans (shrinks_write (w.note .loaded)
      { w.stored with status := .compensating })
    refine Ends.mono (endsAmid_compensate hdistinct { w.stored with status := .compensating } rfl
      (fun _ hname => w.stored.completedSteps_subset hname)
      (fun hneg step hstep howed => (hloaded step hstep (hwritten step howed)).2 hneg)
      fun step hstep howed => (hloaded step hstep (hwritten step howed)).1).ends ?_
    rintro ⟨e | compensated, saga'⟩ w' hsettled
    · trivial
    · exact ends_lastSave fun _ => hsettled compensated rfl
  · trivial

/-! ## Executions -/

/-- The saga is stored as it was not compensated. -/
def Uncompensated (w : World) : Prop := w.stored.status ≠ .compensated

theorem uncompensated_of_save {saga : Saga} (hw : Uncompensated w)
    (hw' : w' = w ∨ w' = w.write saga) (hstatus : saga.status = .running) : Uncompensated w' := by
  rcases hw' with rfl | rfl
  · exact hw
  · intro hcompensated
    have hrunning : (w.write saga).stored.status = .running := hstatus
    rw [hrunning] at hcompensated
    cases hcompensated

theorem succeededHere_of_save {saga : Saga} {step : SagaStepDefinition}
    (hw' : w' = w ∨ w' = w.write saga) (h : SucceededHere step w'.log) :
    SucceededHere step w.log := by
  rcases hw' with rfl | rfl
  · exact h
  · exact ((succeededHere_cons.mp h).resolve_left (by rintro ⟨⟩)).2

theorem ends_retryAction (step : SagaStepDefinition) (n attempt : ℕ) (hw : Uncompensated w) :
    Ends definition c (runWithRetries (action step) n attempt) w fun r w' =>
      Uncompensated w' ∧
      (∀ step', SucceededHere step' w'.log →
        SucceededHere step' w.log ∨ r = .ok true ∧ step' = step) ∧
      (r = .ok true → w'.log.head? = some (.called step true)) := by
  induction n generalizing attempt w with
  | zero => exact ⟨hw, fun _ => .inl, by rintro ⟨⟩⟩
  | succ n ih =>
    rw [runWithRetries, ends_bind]
    refine ⟨hw, fun r w' hanswer => ?_⟩
    obtain ⟨rfl, -⟩ := hanswer
    have hfails (step' : SagaStepDefinition)
        (h : SucceededHere step' (w.note (.called step false)).log) :
        SucceededHere step' w.log := ((succeededHere_cons.mp h).resolve_left (by rintro ⟨⟩)).2
    have hrest : Ends definition c (runWithRetries (action step) n (attempt + 1))
        (w.note (.called step false)) fun r w' => Uncompensated w' ∧
          (∀ step', SucceededHere step' w'.log →
            SucceededHere step' w.log ∨ r = .ok true ∧ step' = step) ∧
          (r = .ok true → w'.log.head? = some (.called step true)) :=
      Ends.mono (ih (attempt + 1) hw) fun r w' h =>
        ⟨h.1, fun step' h' => (h.2.1 step' h').imp_left (hfails step'), h.2.2⟩
    rcases r with (_ | _) | (_ | _)
    · exact hrest
    · exact ⟨hw, fun step' h => .inl (hfails step' h), by rintro ⟨⟩⟩
    · exact hrest
    · refine ⟨hw, fun step' h => ?_, fun _ => rfl⟩
      rcases succeededHere_cons.mp h with heq | ⟨-, h⟩
      · cases heq
        exact .inr ⟨rfl, rfl⟩
      · exact .inl h

/-- What holds when a step has been executed: what has succeeded here, where an execution goes on
from it. -/
structure StepDone (w : World) (saga : Saga) (step : SagaStepDefinition)
    (result : Except Failure Bool) (saga' : Saga) (w' : World) : Prop where
  status : saga'.status = saga.status
  uncompensated : Uncompensated w'
  succeeded : result ≠ .error .other → ∀ step', SucceededHere step' w'.log →
    SucceededHere step' w.log ∨ result = .ok true ∧ step' = step

theorem ends_executeStep {saga : Saga} (step : SagaStepDefinition) (i : ℕ)
    (hstatus : saga.status = .running) (hw : Uncompensated w) :
    Ends definition .execute (executeStep saga i step) w
      fun ended w' => StepDone w saga step ended.1 ended.2 w' := by
  have hallowed {w : World} {saga : Saga} (hstatus : saga.status = .running) :
      Allowed definition w (.save saga) := by
    intro h
    rw [hstatus] at h
    cases h
  rw [executeStep, ends_bind]
  refine ends_save (hallowed hstatus) (fun _ => ?_) fun e w₁ _ hw₁ => ?_
  · have hw₁ : Uncompensated (w.write (saga.setStatus i .executing)) :=
      uncompensated_of_save hw (.inr rfl) hstatus
    have hbefore : ∀ step', SucceededHere step' (w.write (saga.setStatus i .executing)).log →
        SucceededHere step' w.log := fun _ => succeededHere_of_save (.inr rfl)
    rw [ends_bind]
    refine Ends.mono (ends_retryAction step _ 0 hw₁) ?_
    rintro (e | success) w₂ ⟨hw₂, hafter, hhead⟩
    · exact ⟨rfl, hw₂, fun _ step' h => (hafter step' h).imp (hbefore step') id⟩
    · have hsucceeded {saga' : Saga} {w' : World} (hw' : w' = w₂ ∨ w' = w₂.write saga')
          (step' : SagaStepDefinition) (h : SucceededHere step' w'.log) :
          SucceededHere step' w.log ∨ success = true ∧ step' = step :=
        (hafter step' (succeededHere_of_save hw' h)).imp (hbefore step')
          fun heq => ⟨by simpa using heq.1, heq.2⟩
      rw [ends_bind]
      refine ends_save (hallowed hstatus) (fun _ => ?_) fun e w₃ hcareful hw₃ => ?_
      · refine ⟨rfl, uncompensated_of_save hw₂ (.inr rfl) hstatus, fun _ step' h => ?_⟩
        exact (hsucceeded (.inr rfl) step' h).imp_right fun heq => ⟨by rw [heq.1], heq.2⟩
      · refine ⟨rfl, uncompensated_of_save hw₂ hw₃ hstatus, fun hne step' h => ?_⟩
        refine .inl ((hsucceeded hw₃ step' h).resolve_right ?_)
        -- the save after a success does not raise an operation error
        rintro ⟨rfl, -⟩
        cases e with
        | operation => exact (hcareful rfl).2 rfl step (hhead rfl)
        | other => exact hne rfl
  · refine ⟨rfl, uncompensated_of_save hw hw₁ hstatus, fun _ step' h => ?_⟩
    exact .inl (succeededHere_of_save hw₁ h)

/-- What holds when the `try` block has ended: the completed steps are those that have succeeded
here. -/
def BodyDone {α : Type} (ended : Except Failure α × List String × Saga) (w : World) : Prop :=
  ended.1 ≠ .error .other → ∀ step, SucceededHere step w.log → step.name ∈ ended.2.1

theorem ends_executeSteps (steps : List SagaStepDefinition) (i : ℕ) {completed : List String}
    {saga : Saga} (hstatus : saga.status = .running) (hw : Uncompensated w)
    (hcompleted : ∀ step, SucceededHere step w.log → step.name ∈ completed) :
    Ends definition .execute (executeSteps steps i completed saga) w fun ended w' =>
      BodyDone ended w' := by
  induction steps generalizing i completed saga w with
  | nil => exact fun _ => hcompleted
  | cons step rest ih =>
    rw [executeSteps]
    split
    · rw [ends_bind]
      refine Ends.mono (ends_executeStep step i hstatus hw) ?_
      rintro ⟨result, saga'⟩ w' hdone
      have hsucceeded (hne : result ≠ .error .other) (hfalse : result ≠ .ok true)
          (step' : SagaStepDefinition) (h : SucceededHere step' w'.log) :
          step'.name ∈ completed :=
        hcompleted step' ((hdone.succeeded hne step' h).resolve_right fun heq => hfalse heq.1)
      rcases result with e | (_ | _)
      · exact fun hne => hsucceeded (fun heq => hne (by cases heq; rfl)) (by rintro ⟨⟩)
      · exact fun _ => hsucceeded (by rintro ⟨⟩) (by rintro ⟨⟩)
      · refine ih (i + 1) (hdone.status.trans hstatus) hdone.uncompensated fun step' h => ?_
        rcases hdone.succeeded (by rintro ⟨⟩) step' h with h | ⟨-, rfl⟩
        · exact List.mem_append_left _ (hcompleted step' h)
        · exact List.mem_append_right _ (List.mem_singleton.mpr rfl)
    · exact fun _ => hcompleted

theorem ends_executeBody {saga : Saga} (hstatus : saga.status = .running) (hw : Uncompensated w)
    (hnone : ∀ step, ¬ SucceededHere step w.log) :
    Ends definition .execute (executeBody definition saga) w fun ended w' => BodyDone ended w' := by
  rw [executeBody, ends_bind]
  refine Ends.mono (ends_executeSteps definition.steps 0 hstatus hw fun step h =>
    absurd h (hnone step)) ?_
  rintro ⟨e | failedStep, completed, saga'⟩ w' hdone
  · exact fun hne => hdone fun heq => hne (by cases heq; rfl)
  · have hcompleted := hdone (by rintro ⟨⟩)
    show Ends _ _ (if _ then _ else _) _ _
    split
    · exact fun _ => hcompleted
    · rw [ends_bind]
      refine ends_save (by rintro ⟨⟩) (fun _ => ?_) fun e w'' _ hw'' => ?_
      · exact fun _ step h => hcompleted step (succeededHere_of_save (.inr rfl) h)
      · exact fun _ step h => hcompleted step (succeededHere_of_save hw'' h)

theorem ends_execute (hdistinct : definition.Distinct) :
    Ends definition .execute (execute definition) w fun _ _ => True := by
  rw [execute, ends_bind]
  refine ends_get fun _ => ?_
  rw [ends_bind]
  refine ends_save (by rintro ⟨⟩) (fun _ => ?_) fun _ _ _ _ => trivial
  rw [ends_bind]
  refine Ends.mono (ends_executeBody rfl (by rintro ⟨⟩) fun step h => ?_) ?_
  · have hloaded := succeededHere_of_save (w := w.note .loaded) (.inr rfl) h
    rcases succeededHere_cons.mp hloaded with heq | ⟨hne, -⟩
    · cases heq
    · exact hne rfl
  · rintro ⟨result, completed, saga'⟩ w' hdone
    rcases result with (_ | _) | (_ | _)
    · exact ends_handleSagaFailure hdistinct (hdone (by rintro ⟨⟩))
    · trivial
    · exact ends_handleSagaFailure hdistinct (hdone (by rintro ⟨⟩))
    · trivial

/-! ## Whole runs -/

theorem ends_program (hdistinct : definition.Distinct) :
    Ends definition c (c.program definition) w fun _ _ => True := by
  cases c with
  | execute => exact ends_execute hdistinct
  | cancelSaga => exact ends_cancelSaga hdistinct
  | recover => trivial

theorem Truthful.run (h : Truthful definition w)
    (hdistinct : definition.Distinct)
    {out : Outcome Empty (Except Failure Unit)} (hrun : CarefulRun definition c w out w') :
    Truthful definition w' :=
  hrun.2.invariant (fun _ _ _ _ hw ho hanswer => hw.answers ho hanswer.1) h
    (ends_program hdistinct)

theorem truthful_of_reached (hdistinct : definition.Distinct)
    (hreached : Reached definition (CarefulRun definition) w) : Truthful definition w := by
  induction hreached with
  | created => rintro ⟨⟩
  | call _ hrun ih => exact Truthful.run ih hdistinct hrun

/-- **Every call of a careful run keeps what is promised.** -/
theorem kept_of_careful (definition : SagaDefinition)
    (hdistinct : definition.Distinct) {w : World}
    (hreached : Reached definition (CarefulRun definition) w) {c : Call} {w' : World}
    {out : Outcome Empty (Except Failure Unit)} (hrun : CarefulRun definition c w out w') :
    Kept definition c w out w' where
  truthful := (truthful_of_reached hdistinct hreached).run hdistinct hrun
  takenUp := fun hc hpending => absurd hpending (hrun.1 hc)

end Truthfulness

/-! ## A migration that is cancelled -/

def exportPolicies : SagaStepDefinition := { name := "export_policies", maxRetries := 0 }

def policyMigration : SagaDefinition where
  steps := [exportPolicies]
  maxCompensationRetries := 0

/-- The last save of the execution raises, and the compensation fails. -/
def unreliable (w : World) : (o : Op) → Resp o × World
  | .get => (w.stored, w.note .loaded)
  | .save saga =>
    if saga.status = .completed then (.error .other, w) else (.ok (), w.write saga)
  | .action step _ => (.ok true, w.note (.called step true))
  | .compensation step _ => (.ok false, w.note (.compensated step false))

theorem answers_unreliable (w : World) (o : Op) :
    w.Answers o (unreliable w o).1 (unreliable w o).2 := by
  cases o with
  | get => exact ⟨rfl, rfl⟩
  | save saga =>
    by_cases hstatus : saga.status = .completed
    · simp [unreliable, World.Answers, hstatus]
    · simp [unreliable, World.Answers, hstatus]
  | action step attempt => rfl
  | compensation step attempt => rfl

/-- The policies were exported, and the last save of the execution raised. -/
def exported : World :=
  (((Call.execute.program policyMigration).run unreliable) (.created policyMigration)).2

section Witness

variable {definition : SagaDefinition} {c : Call} {w w' : World}
  {out : Outcome Empty (Except Failure Unit)}

theorem exec_save {saga : Saga} {k : Except Failure Unit → Prog Op Resp Empty (Except Failure Unit)}
    (hcareful : Careful definition c w (.save saga) (.ok ()))
    (hrest : Exec (CarefulAnswer definition c) (k (.ok ())) (w.write saga) out w') :
    Exec (CarefulAnswer definition c) (.await (.save saga) k) w out w' :=
  have hanswer : CarefulAnswer definition c w (.save saga) (.ok ()) (w.write saga) :=
    ⟨rfl, hcareful⟩
  .await hanswer hrest

theorem exec_action {step : SagaStepDefinition} {attempt : ℕ}
    {k : Except Failure Bool → Prog Op Resp Empty (Except Failure Unit)}
    (hrest : Exec (CarefulAnswer definition c) (k (.ok true)) (w.note (.called step true)) out w') :
    Exec (CarefulAnswer definition c) (.await (.action step attempt) k) w out w' :=
  have hanswer : CarefulAnswer definition c w (.action step attempt) (.ok true)
    (w.note (.called step true)) := ⟨rfl, trivial⟩
  .await hanswer hrest

theorem exec_compensation {step : SagaStepDefinition} {attempt : ℕ}
    {k : Except Failure Bool → Prog Op Resp Empty (Except Failure Unit)}
    (hrest : Exec (CarefulAnswer definition c) (k (.ok true)) (w.note (.compensated step true)) out
      w') :
    Exec (CarefulAnswer definition c) (.await (.compensation step attempt) k) w out w' :=
  have hanswer : CarefulAnswer definition c w (.compensation step attempt) (.ok true)
    (w.note (.compensated step true)) := ⟨rfl, fun _ => by rintro (⟨⟨⟩⟩ | ⟨⟨⟩⟩)⟩
  .await hanswer hrest

end Witness

theorem carefulRun_exported :
    CarefulRun policyMigration .execute (.created policyMigration) .stopped exported := by
  refine ⟨by rintro ⟨⟩, ?_⟩
  refine .await ⟨⟨rfl, rfl⟩, by rintro ⟨⟩⟩ ?_
  refine exec_save (fun _ => ⟨by rintro ⟨⟩, by rintro ⟨⟩⟩) ?_
  refine exec_save (fun _ => ⟨by rintro ⟨⟩, by rintro ⟨⟩⟩) ?_
  refine exec_action ?_
  refine exec_save (fun _ => ⟨by rintro ⟨⟩, by rintro ⟨⟩⟩) ?_
  exact .stop _ _

def reliable (w : World) : (o : Op) → Resp o × World
  | .get => (w.stored, w.note .loaded)
  | .save saga => (.ok (), w.write saga)
  | .action step _ => (.ok true, w.note (.called step true))
  | .compensation step _ => (.ok true, w.note (.compensated step true))

/-- The cancellation compensates the step. -/
theorem kept_of_careful_policyMigration :
    (((Call.cancelSaga.program policyMigration).run reliable) exported).2.stored.status =
      .compensated ∧
    Kept policyMigration .cancelSaga exported (.returned (.ok ()))
      (((Call.cancelSaga.program policyMigration).run reliable) exported).2 := by
  refine ⟨rfl, kept_of_careful policyMigration (by decide) (.call .created carefulRun_exported)
    ⟨by rintro ⟨⟩, ?_⟩⟩
  refine .await ⟨⟨rfl, rfl⟩, fun _ _ step hstep _ => ?_⟩ ?_
  · obtain rfl := List.mem_singleton.mp hstep
    exact ⟨by decide, by rintro ⟨⟩⟩
  refine exec_save (by rintro ⟨⟩) ?_
  refine exec_save (by rintro ⟨⟩) ?_
  refine exec_compensation ?_
  refine exec_save (by rintro ⟨⟩) ?_
  refine exec_save (by rintro ⟨⟩) ?_
  exact .done _ _

theorem runs_exported :
    ∃ out, Runs policyMigration .execute (.created policyMigration) out exported :=
  ⟨_, Exec.of_run unreliable answers_unreliable _ _⟩

/-- The execution ends with an exception; the cancellation then stores `COMPENSATED`, although the
compensation has failed. -/
theorem not_kept_policyMigration : ∃ definition : SagaDefinition,
    definition.Distinct ∧ ∃ w, Reached definition (Runs definition) w ∧
      ∃ c out w', Runs definition c w out w' ∧ ¬ Kept definition c w out w' := by
  obtain ⟨out, hexported⟩ := runs_exported
  refine ⟨policyMigration, by decide, exported, .call .created hexported, .cancelSaga, _, _,
    Exec.of_run unreliable answers_unreliable _ _, fun hkept => ?_⟩
  exact hkept.truthful rfl exportPolicies List.mem_cons_self (by decide)

end EnhancedAgentBus.EnterpriseSso
