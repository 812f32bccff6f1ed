import EnhancedAgentBus.Verification.SagaCoordinator
import Mathlib.Data.List.Nodup

/-!
# Atomicity of a saga

What a transaction promises (`Atomic`), for any steps, either strategy, and any order of the events
of the two calls.  The check for dependencies holds nothing up, and an execution does not notice that
its saga is aborted: it goes on calling functions of steps, compensates what the abort is going to
compensate too, or completes the saga.  `Orderly` says of each event what has to be the case for
this not to happen, and `atomic_of_orderly` that nothing else goes wrong.
-/

namespace EnhancedAgentBus.Verification.SagaCoordinator

namespace Entry

def compensation : Entry → Option ℕ
  | compensates i => some i
  | _ => none

end Entry

namespace Saga

def compensations (S : Saga) : List ℕ := S.log.filterMap Entry.compensation

def Ended (S : Saga) : Prop :=
  (S.executor = .ready ∨ S.executor = .raised ∨ ∃ result, S.executor = .returned result) ∧
    S.aborter ≠ .compensating

end Saga

def HasCompensation (steps : List SagaStep) (i : ℕ) : Prop :=
  (steps[i]?.any fun step => step.hasCompensation) = true

/-- **What a transaction promises.** -/
structure Atomic (steps : List SagaStep) (S : Saga) : Prop where
  /-- A step is called when its dependencies are completed. -/
  dependencies : ∀ i states step, .called i states ∈ S.log → steps[i]? = some step →
    ∀ stepId ∈ step.dependencies, ∃ j, Saga.findStep steps stepId = some j ∧ states j = .completed
  /-- Where the execution returns true, all steps are completed and none was compensated. -/
  committed : S.executor = .returned true →
    ∀ i < steps.length, S.stepStates i = .completed ∧ .compensates i ∉ S.log
  /-- Where it returns false or the abort returns true, all that was completed is compensated, once
  each. -/
  rolledBack : S.Ended → S.executor = .returned false ∨ S.aborter = .returned true →
    (∀ i, .completed i ∈ S.log → HasCompensation steps i →
      S.stepStates i = .compensated ∧ S.compensations.count i = 1) ∧
    (S.state = .compensated ∨ S.state = .aborted)

/-! ## What is asked of the events -/

section Conditions

variable (steps : List SagaStep) (S : Saga)

def Aborting : Prop := S.aborter ≠ .ready ∧ S.aborter ≠ .returned false

/-- The execution may come to an attempt of the step at place `i`: its dependencies are steps before
it that no abort has taken up, or, if it has no attempt left, no step waits for its compensation in
an abort; and it may come to the end of the steps without an abort. -/
def MayProceed (i attempt : ℕ) : Prop :=
  match steps[i]? with
  | none => ¬ Aborting S
  | some step =>
    if (attempt : ℤ) < step.maxRetries + 1 then
      ∀ stepId ∈ step.dependencies, ∃ j < i, Saga.findStep steps stepId = some j ∧
        S.stepStates j ≠ .compensating ∧ S.stepStates j ≠ .compensated
    else (S.rollback .aborter).waiting = []

/-- **The events under which a saga is atomic**, in the state that they find. -/
def Orderly : Event → Prop
  | .execute => S.executor = .ready → S.state = .initialized → MayProceed steps S 0 0
  | .stepEnds .returned => ∀ i attempt, S.executor = .calling i attempt →
      MayProceed steps S (i + 1) 0
  | .stepEnds .failed => ∀ i attempt step, S.executor = .calling i attempt →
      steps[i]? = some step → (attempt : ℤ) = step.maxRetries →
      (S.rollback .aborter).waiting = []
  | .stepEnds .escaped => ∀ i attempt, S.executor = .calling i attempt → Aborting S →
      ∀ j, S.stepStates j = .completed → HasCompensation steps j →
        j ∈ (S.rollback .aborter).waiting
  | .sleepEnds => ∀ i attempt, S.executor = .sleeping i attempt →
      MayProceed steps S i (attempt + 1)
  | .compensationEnds p i outcome => i ∈ (S.rollback p).running → outcome = .returned
  | .abort | .taskStarts _ | .gathered _ => True

end Conditions

/-! ## The books of the two calls -/

def StepState.isDone : StepState → Bool
  | completed | compensating | compensated => true
  | _ => false

/-- What the two calls have to compensate and are compensating, and what was compensated. -/
structure Books (S : Saga) : Prop where
  fresh : ∀ i, (S.stepStates i).isDone = false → .completed i ∉ S.log ∧ i ∉ S.compensations
  untouched : ∀ i, S.stepStates i = .completed → i ∉ S.compensations
  once : ∀ i, S.stepStates i = .compensating ∨ S.stepStates i = .compensated →
    S.compensations.count i = 1
  waiting : ∀ p, ∀ i ∈ (S.rollback p).waiting, S.stepStates i = .completed
  waitingOnce : ∀ p, (S.rollback p).waiting.Nodup
  waitingApart : ∀ p p' i, i ∈ (S.rollback p).waiting → i ∈ (S.rollback p').waiting → p = p'
  running : ∀ p, ∀ i ∈ (S.rollback p).running, S.stepStates i = .compensating
  runs : ∀ i, S.stepStates i = .compensating → ∃ p, i ∈ (S.rollback p).running
  runningOnce : ∀ p, (S.rollback p).running.Nodup
  runningApart : ∀ p p' i, i ∈ (S.rollback p).running → i ∈ (S.rollback p').running → p = p'

namespace Books

variable {S : Saga} {p : Party} {i : ℕ} {rest : List ℕ}

theorem setStep (h : Books S) (hi : (S.stepStates i).isDone = false) {state : StepState}
    (hstate : state.isDone = false) : Books (S.setStep i state) := by
  have hne : ∀ j state', state'.isDone = true → S.stepStates j = state' → j ≠ i := by
    rintro j state' hdone hj rfl
    rw [hj, hdone] at hi
    cases hi
  have hold : ∀ j, j ≠ i → (S.setStep i state).stepStates j = S.stepStates j := fun j hj =>
    S.setStep_of_ne hj state
  have hback : ∀ j state', state'.isDone = true → (S.setStep i state).stepStates j = state' →
      S.stepStates j = state' := by
    intro j state' hdone hj
    by_cases hji : j = i
    · subst hji
      rw [Saga.setStep_self] at hj
      rw [hj, hdone] at hstate
      cases hstate
    · rwa [hold j hji] at hj
  refine ⟨fun j hj => ?_, fun j hj => h.untouched j (hback j _ rfl hj), ?_, ?_, h.waitingOnce,
    h.waitingApart, ?_, fun j hj => h.runs j (hback j _ rfl hj), h.runningOnce, h.runningApart⟩
  · by_cases hji : j = i
    · subst hji
      exact h.fresh j hi
    · rw [hold j hji] at hj
      exact h.fresh j hj
  · rintro j (hj | hj)
    · exact h.once j (.inl (hback j _ rfl hj))
    · exact h.once j (.inr (hback j _ rfl hj))
  · intro p j hj
    rw [hold j (hne j _ rfl (h.waiting p j hj))]
    exact h.waiting p j hj
  · intro p j hj
    rw [hold j (hne j _ rfl (h.running p j hj))]
    exact h.running p j hj

theorem complete (h : Books S) (hi : (S.stepStates i).isDone = false) :
    Books { S.setStep i .completed with log := .completed i :: S.log } := by
  have hne : ∀ j, (S.stepStates j).isDone = true → j ≠ i := by
    rintro j hj rfl
    rw [hj] at hi
    cases hi
  have hold : ∀ j, j ≠ i → (S.setStep i .completed).stepStates j = S.stepStates j := fun j hj =>
    S.setStep_of_ne hj .completed
  have hnew : (S.setStep i .completed).stepStates i = .completed := S.setStep_self i .completed
  have hback : ∀ j state, state ≠ .completed → (S.setStep i .completed).stepStates j = state →
      S.stepStates j = state := by
    intro j state hstate hj
    by_cases hji : j = i
    · subst hji
      exact absurd (hj.symm.trans hnew) hstate
    · rwa [hold j hji] at hj
  refine ⟨fun j hj => ?_, fun j hj => ?_, ?_, ?_, h.waitingOnce, h.waitingApart, ?_,
    fun j hj => h.runs j (hback j _ (by decide) hj), h.runningOnce, h.runningApart⟩
  · by_cases hji : j = i
    · subst hji
      rw [hnew] at hj
      cases hj
    · rw [hold j hji] at hj
      refine ⟨fun hmem => ?_, (h.fresh j hj).2⟩
      rcases List.mem_cons.mp hmem with heq | hmem
      · cases heq
        exact hji rfl
      · exact (h.fresh j hj).1 hmem
  · by_cases hji : j = i
    · subst hji
      exact (h.fresh j hi).2
    · rw [hold j hji] at hj
      exact h.untouched j hj
  · rintro j (hj | hj)
    · exact h.once j (.inl (hback j _ (by decide) hj))
    · exact h.once j (.inr (hback j _ (by decide) hj))
  · intro p j hj
    have hdone := h.waiting p j hj
    rw [hold j (hne j (by rw [hdone]; rfl))]
    exact hdone
  · intro p j hj
    have hdone := h.running p j hj
    rw [hold j (hne j (by rw [hdone]; rfl))]
    exact hdone

theorem called (h : Books S) (states : ℕ → StepState) :
    Books { S with log := .called i states :: S.log } := by
  refine ⟨fun j hj => ⟨fun hmem => ?_, (h.fresh j hj).2⟩, h.untouched, h.once, h.waiting,
    h.waitingOnce, h.waitingApart, h.running, h.runs, h.runningOnce, h.runningApart⟩
  rcases List.mem_cons.mp hmem with heq | hmem
  · cases heq
  · exact (h.fresh j hj).1 hmem

theorem enter (h : Books S) (hp : (S.rollback p).running = [])
    (hother : ∀ p', p' ≠ p → (S.rollback p').waiting = []) {l : List ℕ} (hl : l.Nodup)
    (hcompleted : ∀ i ∈ l, S.stepStates i = .completed) :
    Books ((S.enter p).setRollback p ⟨l, []⟩) := by
  have hrollback : ((S.enter p).setRollback p ⟨l, []⟩).rollback =
      Function.update S.rollback p ⟨l, []⟩ := by
    cases p <;> rfl
  have hstates : ((S.enter p).setRollback p ⟨l, []⟩).stepStates = S.stepStates := by
    cases p <;> rfl
  have hlog : ((S.enter p).setRollback p ⟨l, []⟩).log = S.log := by
    cases p <;> rfl
  have hwaiting : ∀ p', (Function.update S.rollback p ⟨l, []⟩ p').waiting =
      if p' = p then l else [] := by
    intro p'
    split
    · next heq => rw [heq, Function.update_self]
    · next hne => rw [Function.update_of_ne hne, hother p' hne]
  have hrunning : ∀ p', (Function.update S.rollback p ⟨l, []⟩ p').running =
      (S.rollback p').running := by
    intro p'
    by_cases heq : p' = p
    · rw [heq, Function.update_self, hp]
    · rw [Function.update_of_ne heq]
  constructor
  all_goals simp only [Saga.compensations, hrollback, hstates, hlog, hrunning, hwaiting]
  · exact h.fresh
  · exact h.untouched
  · exact h.once
  · intro p' i hi
    split at hi
    · exact hcompleted i hi
    · cases hi
  · intro p'
    split
    · exact hl
    · exact .nil
  · intro p' p'' i hi hi'
    split at hi
    · rename_i heq
      split at hi'
      · next heq' => rw [heq, heq']
      · cases hi'
    · cases hi
  · exact h.running
  · exact h.runs
  · exact h.runningOnce
  · exact h.runningApart

theorem begin (h : Books S) (hwaiting : (S.rollback p).waiting = i :: rest) :
    Books (S.begin p i rest) := by
  have hi : S.stepStates i = .completed :=
    h.waiting p i (hwaiting ▸ List.mem_cons_self)
  obtain ⟨hirest, hrest⟩ : i ∉ rest ∧ rest.Nodup := by
    simpa [hwaiting] using h.waitingOnce p
  have hfree : ∀ p', i ∉ (S.rollback p').running := by
    intro p' hmem
    rw [h.running p' i hmem] at hi
    cases hi
  have hself : (S.begin p i rest).stepStates i = .compensating := S.setStep_self i .compensating
  have hold : ∀ j, j ≠ i → (S.begin p i rest).stepStates j = S.stepStates j := fun j hj =>
    S.setStep_of_ne hj .compensating
  have hcompensations : (S.begin p i rest).compensations = i :: S.compensations := rfl
  have hmine : (S.begin p i rest).rollback p = ⟨rest, i :: (S.rollback p).running⟩ :=
    Function.update_self _ _ _
  have hother : ∀ p', p' ≠ p → (S.begin p i rest).rollback p' = S.rollback p' := fun p' hp =>
    Function.update_of_ne hp _ _
  have hwait : ∀ p' j, j ∈ ((S.begin p i rest).rollback p').waiting →
      j ∈ (S.rollback p').waiting ∧ j ≠ i := by
    intro p' j hj
    by_cases hp : p' = p
    · subst hp
      rw [hmine] at hj
      refine ⟨hwaiting ▸ List.mem_cons_of_mem i hj, ?_⟩
      rintro rfl
      exact hirest hj
    · rw [hother p' hp] at hj
      refine ⟨hj, ?_⟩
      rintro rfl
      exact hp (h.waitingApart p' p j hj (hwaiting ▸ List.mem_cons_self))
  have hrun : ∀ p' j, j ∈ ((S.begin p i rest).rollback p').running →
      p' = p ∧ j = i ∨ j ≠ i ∧ j ∈ (S.rollback p').running := by
    intro p' j hj
    by_cases hp : p' = p
    · subst hp
      rw [hmine] at hj
      rcases List.mem_cons.mp hj with rfl | hmem
      · exact .inl ⟨rfl, rfl⟩
      · refine .inr ⟨?_, hmem⟩
        rintro rfl
        exact hfree p' hmem
    · rw [hother p' hp] at hj
      refine .inr ⟨?_, hj⟩
      rintro rfl
      exact hfree p' hj
  constructor
  · intro j hj
    have hji : j ≠ i := by
      rintro rfl
      rw [hself] at hj
      cases hj
    rw [hold j hji] at hj
    refine ⟨fun hmem => ?_, fun hmem => ?_⟩
    · rcases List.mem_cons.mp hmem with heq | hmem
      · cases heq
      · exact (h.fresh j hj).1 hmem
    · rw [hcompensations] at hmem
      rcases List.mem_cons.mp hmem with heq | hmem
      · exact hji heq
      · exact (h.fresh j hj).2 hmem
  · intro j hj
    have hji : j ≠ i := by
      rintro rfl
      rw [hself] at hj
      cases hj
    rw [hold j hji] at hj
    rw [hcompensations, List.mem_cons, not_or]
    exact ⟨hji, h.untouched j hj⟩
  · intro j hj
    by_cases hji : j = i
    · subst hji
      rw [hcompensations, List.count_cons_self, List.count_eq_zero.mpr (h.untouched j hi)]
    · rw [hold j hji] at hj
      rw [hcompensations, List.count_cons_of_ne (Ne.symm hji)]
      exact h.once j hj
  · intro p' j hj
    obtain ⟨hmem, hji⟩ := hwait p' j hj
    rw [hold j hji]
    exact h.waiting p' j hmem
  · intro p'
    by_cases hp : p' = p
    · subst hp
      rw [hmine]
      exact hrest
    · rw [hother p' hp]
      exact h.waitingOnce p'
  · exact fun p' p'' j hj hj' => h.waitingApart p' p'' j (hwait p' j hj).1 (hwait p'' j hj').1
  · intro p' j hj
    rcases hrun p' j hj with ⟨-, rfl⟩ | ⟨hji, hmem⟩
    · exact hself
    · rw [hold j hji]
      exact h.running p' j hmem
  · intro j hj
    by_cases hji : j = i
    · subst hji
      exact ⟨p, by rw [hmine]; exact List.mem_cons_self⟩
    · rw [hold j hji] at hj
      obtain ⟨p', hmem⟩ := h.runs j hj
      refine ⟨p', ?_⟩
      by_cases hp : p' = p
      · subst hp
        rw [hmine]
        exact List.mem_cons_of_mem i hmem
      · rw [hother p' hp]
        exact hmem
  · intro p'
    by_cases hp : p' = p
    · subst hp
      rw [hmine]
      exact List.nodup_cons.mpr ⟨hfree p', h.runningOnce p'⟩
    · rw [hother p' hp]
      exact h.runningOnce p'
  · intro p' p'' j hj hj'
    rcases hrun p' j hj with ⟨hp, rfl⟩ | ⟨hji, hmem⟩
    · rcases hrun p'' j hj' with ⟨hp', -⟩ | ⟨hji, -⟩
      · rw [hp, hp']
      · exact absurd rfl hji
    · rcases hrun p'' j hj' with ⟨-, heq⟩ | ⟨-, hmem'⟩
      · exact absurd heq hji
      · exact h.runningApart p' p'' j hmem hmem'

theorem compensated (h : Books S) (hi : i ∈ (S.rollback p).running) :
    Books ((S.setRollback p { S.rollback p with
      running := (S.rollback p).running.erase i }).setStep i .compensated) := by
  have hcompensating := h.running p i hi
  generalize hT : (S.setRollback p { S.rollback p with
    running := (S.rollback p).running.erase i }).setStep i .compensated = T
  have hself : T.stepStates i = .compensated := hT ▸ Saga.setStep_self _ i .compensated
  have hold : ∀ j, j ≠ i → T.stepStates j = S.stepStates j := fun j hj =>
    hT ▸ Saga.setStep_of_ne _ hj .compensated
  have hmine : T.rollback p = { S.rollback p with running := (S.rollback p).running.erase i } :=
    hT ▸ Function.update_self _ _ _
  have hother : ∀ p', p' ≠ p → T.rollback p' = S.rollback p' := fun p' hp =>
    hT ▸ Function.update_of_ne hp _ _
  have hlog : T.log = S.log := hT ▸ rfl
  have hcompensations : T.compensations = S.compensations := hT ▸ rfl
  have hwaiting : ∀ p', (T.rollback p').waiting = (S.rollback p').waiting := by
    intro p'
    by_cases hp : p' = p
    · rw [hp, hmine]
    · rw [hother p' hp]
  have hrun : ∀ p' j, j ∈ (T.rollback p').running ↔ j ≠ i ∧ j ∈ (S.rollback p').running := by
    intro p' j
    by_cases hp : p' = p
    · subst hp
      rw [hmine]
      exact (h.runningOnce p').mem_erase_iff
    · rw [hother p' hp, and_iff_right_of_imp]
      rintro hj rfl
      exact hp (h.runningApart p' p j hj hi)
  have hback : ∀ j state, state ≠ .compensated → T.stepStates j = state →
      j ≠ i ∧ S.stepStates j = state := by
    intro j state hstate hj
    have hji : j ≠ i := by
      rintro rfl
      exact hstate (hj.symm.trans hself)
    rw [hold j hji] at hj
    exact ⟨hji, hj⟩
  constructor
  · intro j hj
    have hji : j ≠ i := by
      rintro rfl
      rw [hself] at hj
      cases hj
    rw [hold j hji] at hj
    rw [hlog, hcompensations]
    exact h.fresh j hj
  · intro j hj
    rw [hcompensations]
    exact h.untouched j (hback j _ (by decide) hj).2
  · intro j hj
    rw [hcompensations]
    by_cases hji : j = i
    · subst hji
      exact h.once j (.inl hcompensating)
    · rw [hold j hji] at hj
      exact h.once j hj
  · intro p' j hj
    rw [hwaiting] at hj
    have hdone := h.waiting p' j hj
    rw [hold j (by rintro rfl; rw [hcompensating] at hdone; cases hdone)]
    exact hdone
  · intro p'
    rw [hwaiting]
    exact h.waitingOnce p'
  · intro p' p'' j hj hj'
    rw [hwaiting] at hj hj'
    exact h.waitingApart p' p'' j hj hj'
  · intro p' j hj
    obtain ⟨hji, hmem⟩ := (hrun p' j).mp hj
    rw [hold j hji]
    exact h.running p' j hmem
  · intro j hj
    obtain ⟨hji, hj⟩ := hback j _ (by decide) hj
    obtain ⟨p', hmem⟩ := h.runs j hj
    exact ⟨p', (hrun p' j).mpr ⟨hji, hmem⟩⟩
  · intro p'
    by_cases hp : p' = p
    · subst hp
      rw [hmine]
      exact (h.runningOnce p').erase i
    · rw [hother p' hp]
      exact h.runningOnce p'
  · exact fun p' p'' j hj hj' =>
      h.runningApart p' p'' j ((hrun p' j).mp hj).2 ((hrun p'' j).mp hj').2

end Books

/-! ## Where the two calls are -/

section Phases

variable (steps : List SagaStep) (S : Saga)

/-- The functions of the steps before a place have returned, and no others. -/
def Reached (i : ℕ) : Prop := ∀ j, (S.stepStates j).isDone = true ↔ j < i

/-- Every step that is completed and has a compensation waits for it in a call. -/
def Covered (p : Party) : Prop :=
  ∀ i, S.stepStates i = .completed → HasCompensation steps i → i ∈ (S.rollback p).waiting

/-- Either nothing was aborted and nothing compensated, or the abort is what the saga shows. -/
def Going (state : SagaState) : Prop :=
  ¬ Aborting S ∧ S.state = state ∧ S.compensations = [] ∨ Aborting S ∧ S.state = .aborted

/-- What is the case where the execution is somewhere. -/
def Phase : Executor → Prop
  | .ready => Reached S 0 ∧ Going S .initialized
  | .calling i _ | .sleeping i _ => Reached S i ∧ i < steps.length ∧ Going S .running
  | .compensating => Covered steps S .executor ∧ (S.rollback .aborter).waiting = [] ∧
      (S.state = .compensating ∨ S.state = .compensated)
  | .returned false => Covered steps S .executor ∧ (S.rollback .aborter).waiting = [] ∧
      S.state = .compensated
  | .returned true => (∀ i < steps.length, S.stepStates i = .completed) ∧ S.compensations = [] ∧
      ¬ Aborting S ∧ S.state = .completed
  | .raised => ¬ Aborting S ∧ S.state = .running ∨
      Aborting S ∧ S.state = .aborted ∧ Covered steps S .aborter

/-- What holds in every state of an orderly run, also between two events. -/
structure Steady (strategy : CompensationStrategy) : Prop where
  books : Books S
  oneByOne : strategy = .lifo → ∀ p, (S.rollback p).running.length ≤ 1
  idle : ∀ p, S.isCompensating p = false → S.rollback p = {}
  dependencies : ∀ i states step, .called i states ∈ S.log → steps[i]? = some step →
    ∀ stepId ∈ step.dependencies,
      ∃ j, Saga.findStep steps stepId = some j ∧ states j = .completed

/-- What holds in every state of an orderly run. -/
structure Sound (strategy : CompensationStrategy) : Prop extends Steady steps S strategy where
  phase : Phase steps S S.executor

end Phases

variable {steps : List SagaStep} {strategy : CompensationStrategy} {S S' : Saga} {p : Party}
  {i : ℕ} {rest : List ℕ}

theorem aborting_of_compensating (h : S.isCompensating .aborter = true) : Aborting S := by
  have haborter : S.aborter = .compensating := by simpa [Saga.isCompensating] using h
  constructor <;> (rw [haborter]; decide)

theorem executor_of_compensating (h : S.isCompensating .executor = true) :
    S.executor = .compensating := by
  simpa [Saga.isCompensating] using h

theorem Phase.abort {e : Executor} (h : Phase steps S e) (hS : Aborting S) (hS' : Aborting S')
    (hdone : ∀ j, (S'.stepStates j).isDone = (S.stepStates j).isDone)
    (hcovered : ∀ p, Covered steps S p → Covered steps S' p)
    (hwaiting : (S.rollback .aborter).waiting = [] → (S'.rollback .aborter).waiting = [])
    (hstate : S'.state = S.state ∨ S.state ≠ .aborted ∧ S'.state = .compensated) :
    Phase steps S' e := by
  have hreached : ∀ i, Reached S i → Reached S' i := fun i hi j => by rw [hdone, hi]
  have hstays : S.state = .aborted → S'.state = .aborted := by
    intro haborted
    rcases hstate with hstate | ⟨hne, -⟩
    · rw [hstate, haborted]
    · exact absurd haborted hne
  have hgoing : ∀ state, Going S state → Going S' state := by
    rintro state (⟨hnot, -⟩ | ⟨-, haborted⟩)
    · exact absurd hS hnot
    · exact .inr ⟨hS', hstays haborted⟩
  cases e with
  | ready => exact ⟨hreached 0 h.1, hgoing _ h.2⟩
  | calling i attempt => exact ⟨hreached i h.1, h.2.1, hgoing _ h.2.2⟩
  | sleeping i attempt => exact ⟨hreached i h.1, h.2.1, hgoing _ h.2.2⟩
  | compensating =>
    refine ⟨hcovered _ h.1, hwaiting h.2.1, ?_⟩
    rcases hstate with hstate | ⟨-, hstate⟩
    · rw [hstate]
      exact h.2.2
    · exact .inr hstate
  | returned result =>
    rcases result with _ | _
    · refine ⟨hcovered _ h.1, hwaiting h.2.1, ?_⟩
      rcases hstate with hstate | ⟨-, hstate⟩
      · rw [hstate]
        exact h.2.2
      · exact hstate
    · exact absurd hS h.2.2.1
  | raised =>
    rcases h with ⟨hnot, -⟩ | ⟨-, haborted, hcov⟩
    · exact absurd hS hnot
    · exact .inr ⟨hS', hstays haborted, hcovered _ hcov⟩

theorem Steady.isCompensating (h : Steady steps S strategy)
    (hp : (S.rollback p).waiting ≠ [] ∨ (S.rollback p).running ≠ []) :
    S.isCompensating p = true := by
  by_contra hnot
  rw [h.idle p (by simpa using hnot)] at hp
  rcases hp with hp | hp <;> exact hp rfl

theorem Sound.begin (h : Sound steps S strategy) (hwaiting : (S.rollback p).waiting = i :: rest)
    (hlifo : strategy = .lifo → (S.rollback p).running = []) :
    Sound steps (S.begin p i rest) strategy := by
  have hi : S.stepStates i = .completed := h.books.waiting p i (hwaiting ▸ List.mem_cons_self)
  have hcompensating : S.isCompensating p = true :=
    h.isCompensating (.inl (by rw [hwaiting]; exact List.cons_ne_nil _ _))
  have hmine : (S.begin p i rest).rollback p = ⟨rest, i :: (S.rollback p).running⟩ :=
    Function.update_self _ _ _
  have hother : ∀ p', p' ≠ p → (S.begin p i rest).rollback p' = S.rollback p' := fun p' hp =>
    Function.update_of_ne hp _ _
  have hself : (S.begin p i rest).stepStates i = .compensating := S.setStep_self i .compensating
  have hold : ∀ j, j ≠ i → (S.begin p i rest).stepStates j = S.stepStates j := fun j hj =>
    S.setStep_of_ne hj .compensating
  have hcovered : ∀ p', Covered steps S p' → Covered steps (S.begin p i rest) p' := by
    intro p' hcov j hj hcomp
    have hji : j ≠ i := by
      rintro rfl
      rw [hself] at hj
      cases hj
    rw [hold j hji] at hj
    have hmem := hcov j hj hcomp
    by_cases hp : p' = p
    · subst hp
      rw [hwaiting] at hmem
      rw [hmine]
      exact (List.mem_cons.mp hmem).resolve_left hji
    · rw [hother p' hp]
      exact hmem
  have hempty : (S.rollback .aborter).waiting = [] →
      ((S.begin p i rest).rollback .aborter).waiting = [] := by
    intro hnone
    by_cases hp : Party.aborter = p
    · subst hp
      rw [hwaiting] at hnone
      cases hnone
    · rw [hother _ hp, hnone]
  refine ⟨⟨h.books.begin hwaiting, fun hstrategy p' => ?_, fun p' hp' => ?_, ?_⟩, ?_⟩
  · by_cases hp : p' = p
    · subst hp
      rw [hmine, hlifo hstrategy]
      exact le_refl 1
    · rw [hother p' hp]
      exact h.oneByOne hstrategy p'
  · have hp : p' ≠ p := by
      rintro rfl
      have hsame : (S.begin p' i rest).isCompensating p' = S.isCompensating p' := by cases p' <;> rfl
      rw [hsame, hcompensating] at hp'
      cases hp'
    rw [hother p' hp]
    refine h.idle p' ?_
    cases p' <;> exact hp'
  · intro j states step hmem
    rcases List.mem_cons.mp hmem with heq | hmem
    · cases heq
    · exact h.dependencies j states step hmem
  · show Phase steps _ S.executor
    cases p with
    | executor =>
      have hphase := h.phase
      rw [executor_of_compensating hcompensating] at hphase ⊢
      exact ⟨hcovered _ hphase.1, hempty hphase.2.1, hphase.2.2⟩
    | aborter =>
      have habort := aborting_of_compensating hcompensating
      refine h.phase.abort habort habort (fun j => ?_) hcovered hempty (.inl rfl)
      by_cases hji : j = i
      · rw [hji, hself, hi]
        rfl
      · rw [hold j hji]

theorem Books.congr {T : Saga} (h : Books S) (hstates : T.stepStates = S.stepStates)
    (hlog : T.log = S.log) (hrollback : T.rollback = S.rollback) : Books T := by
  obtain ⟨state, stepStates, active, executor, aborter, rollback, log⟩ := T
  obtain rfl : stepStates = _ := hstates
  obtain rfl : log = _ := hlog
  obtain rfl : rollback = _ := hrollback
  exact ⟨h.fresh, h.untouched, h.once, h.waiting, h.waitingOnce, h.waitingApart, h.running, h.runs,
    h.runningOnce, h.runningApart⟩

theorem finish_rollback (S : Saga) (p : Party) : (S.finish p).rollback = S.rollback := by
  cases p <;> (unfold Saga.finish; split <;> rfl)

theorem finish_stepStates (S : Saga) (p : Party) : (S.finish p).stepStates = S.stepStates := by
  cases p <;> (unfold Saga.finish; split <;> rfl)

theorem finish_log (S : Saga) (p : Party) : (S.finish p).log = S.log := by
  cases p <;> (unfold Saga.finish; split <;> rfl)

theorem finish_state (S : Saga) (p : Party) :
    S.state = .aborted ∧ (S.finish p).state = .aborted ∨
      S.state ≠ .aborted ∧ (S.finish p).state = .compensated := by
  unfold Saga.finish
  by_cases haborted : S.state = .aborted
  · left
    refine ⟨haborted, ?_⟩
    rw [if_pos haborted]
    cases p <;> exact haborted
  · right
    refine ⟨haborted, ?_⟩
    rw [if_neg haborted]
    cases p <;> rfl

theorem Sound.finish (h : Sound steps S strategy) (hcompensating : S.isCompensating p = true)
    (hrollback : S.rollback p = {}) : Sound steps (S.finish p) strategy := by
  have hsteady : Steady steps (S.finish p) strategy := by
    refine ⟨h.books.congr (finish_stepStates S p) (finish_log S p) (finish_rollback S p),
      fun hstrategy p' => ?_, fun p' hp' => ?_, fun j states step hmem => ?_⟩
    · rw [finish_rollback]
      exact h.oneByOne hstrategy p'
    · rw [finish_rollback]
      by_cases hp : p' = p
      · rw [hp, hrollback]
      · refine h.idle p' ?_
        rw [← hp']
        unfold Saga.finish
        cases p <;> cases p' <;> first | exact absurd rfl hp | (split <;> rfl)
    · rw [finish_log] at hmem
      exact h.dependencies j states step hmem
  refine ⟨hsteady, ?_⟩
  cases p with
  | executor =>
    have hphase := h.phase
    rw [executor_of_compensating hcompensating] at hphase
    have hexecutor : (S.finish .executor).executor = .returned false := by
      unfold Saga.finish
      split <;> rfl
    rw [hexecutor]
    refine ⟨fun j hj hcomp => ?_, ?_, ?_⟩
    · rw [finish_stepStates] at hj
      rw [finish_rollback]
      exact hphase.1 j hj hcomp
    · rw [finish_rollback]
      exact hphase.2.1
    · rcases finish_state S .executor with ⟨haborted, -⟩ | ⟨-, hstate⟩
      · rcases hphase.2.2 with hstate | hstate <;> (rw [haborted] at hstate; cases hstate)
      · exact hstate
  | aborter =>
    have hexecutor : (S.finish .aborter).executor = S.executor := by
      unfold Saga.finish
      split <;> rfl
    have haborter : (S.finish .aborter).aborter = .returned true := by
      unfold Saga.finish
      split <;> rfl
    rw [hexecutor]
    refine h.phase.abort (aborting_of_compensating hcompensating) ?_ (fun j => ?_)
      (fun p' hcov j hj hcomp => ?_) (fun hnone => ?_) ?_
    · constructor <;> (rw [haborter]; decide)
    · rw [finish_stepStates]
    · rw [finish_stepStates] at hj
      rw [finish_rollback]
      exact hcov j hj hcomp
    · rw [finish_rollback]
      exact hnone
    · rcases finish_state S .aborter with ⟨haborted, hstate⟩ | ⟨hne, hstate⟩
      · exact .inl (hstate.trans haborted.symm)
      · exact .inr ⟨hne, hstate⟩

theorem Sound.compensated (h : Sound steps S strategy) (hi : i ∈ (S.rollback p).running) :
    Sound steps ((S.setRollback p { S.rollback p with
      running := (S.rollback p).running.erase i }).setStep i .compensated) strategy := by
  have hcompensating : S.isCompensating p = true := by
    refine h.isCompensating (.inr fun hnone => ?_)
    rw [hnone] at hi
    cases hi
  have hrunning := h.books.running p i hi
  have hbooks := h.books.compensated hi
  generalize hT : (S.setRollback p { S.rollback p with
    running := (S.rollback p).running.erase i }).setStep i .compensated = T at hbooks ⊢
  have hself : T.stepStates i = .compensated := hT ▸ Saga.setStep_self _ i .compensated
  have hold : ∀ j, j ≠ i → T.stepStates j = S.stepStates j := fun j hj =>
    hT ▸ Saga.setStep_of_ne _ hj .compensated
  have hmine : T.rollback p = { S.rollback p with running := (S.rollback p).running.erase i } :=
    hT ▸ Function.update_self _ _ _
  have hother : ∀ p', p' ≠ p → T.rollback p' = S.rollback p' := fun p' hp =>
    hT ▸ Function.update_of_ne hp _ _
  have hexecutor : T.executor = S.executor := hT ▸ rfl
  have haborter : T.aborter = S.aborter := hT ▸ rfl
  have hstate : T.state = S.state := hT ▸ rfl
  have hlog : T.log = S.log := hT ▸ rfl
  have hwaiting : ∀ p', (T.rollback p').waiting = (S.rollback p').waiting := by
    intro p'
    by_cases hp : p' = p
    · rw [hp, hmine]
    · rw [hother p' hp]
  have hsame : ∀ p', T.isCompensating p' = S.isCompensating p' := by
    intro p'
    cases p' <;> simp only [Saga.isCompensating, hexecutor, haborter]
  have hcovered : ∀ p', Covered steps S p' → Covered steps T p' := by
    intro p' hcov j hj hcomp
    rw [hwaiting]
    refine hcov j ?_ hcomp
    rw [← hold j (by rintro rfl; rw [hself] at hj; cases hj), hj]
  refine ⟨⟨hbooks, fun hstrategy p' => ?_, fun p' hp' => ?_, fun j states step hmem => ?_⟩, ?_⟩
  · by_cases hp : p' = p
    · rw [hp, hmine]
      exact (List.length_erase_le).trans (h.oneByOne hstrategy p)
    · rw [hother p' hp]
      exact h.oneByOne hstrategy p'
  · rw [hsame] at hp'
    rw [hother p' (by rintro rfl; rw [hcompensating] at hp'; cases hp')]
    exact h.idle p' hp'
  · rw [hlog] at hmem
    exact h.dependencies j states step hmem
  · rw [hexecutor]
    cases p with
    | executor =>
      have hphase := h.phase
      rw [executor_of_compensating hcompensating] at hphase ⊢
      exact ⟨hcovered _ hphase.1, by rw [hwaiting]; exact hphase.2.1, by
        rw [hstate]; exact hphase.2.2⟩
    | aborter =>
      have habort := aborting_of_compensating hcompensating
      have habort' : Aborting T := by
        unfold Aborting
        rwa [haborter]
      refine h.phase.abort habort habort' (fun j => ?_) hcovered
        (fun hnone => by rw [hwaiting, hnone]) (.inl hstate)
      by_cases hji : j = i
      · rw [hji, hself, hrunning]
        rfl
      · rw [hold j hji]

theorem Sound.next (h : Sound steps S strategy) (hcompensating : S.isCompensating p = true)
    (hrunning : (S.rollback p).running = []) : Sound steps (S.next p) strategy := by
  unfold Saga.next
  rcases hwaiting : (S.rollback p).waiting with _ | ⟨i, rest⟩
  · refine h.finish hcompensating ?_
    generalize S.rollback p = r at hwaiting hrunning
    obtain ⟨waiting, running⟩ := r
    obtain rfl : waiting = [] := hwaiting
    obtain rfl : running = [] := hrunning
    rfl
  · exact h.begin hwaiting fun _ => hrunning

theorem mem_completedSteps (steps : List SagaStep) (S : Saga) (i : ℕ) :
    i ∈ S.completedSteps steps ↔ S.stepStates i = .completed ∧ HasCompensation steps i := by
  unfold Saga.completedSteps HasCompensation
  rw [List.mem_filter, List.mem_range, decide_eq_true_iff, and_iff_right_of_imp]
  rintro ⟨-, hcomp⟩
  by_contra hlen
  rw [List.getElem?_eq_none (Nat.le_of_not_lt hlen)] at hcomp
  cases hcomp

theorem nodup_completedSteps (steps : List SagaStep) (S : Saga) :
    (S.completedSteps steps).Nodup := List.nodup_range.filter _

theorem Sound.compensateSaga (hidle : S.rollback p = {})
    (h : ∀ l : List ℕ, l.Nodup →
      (∀ i, i ∈ l ↔ S.stepStates i = .completed ∧ HasCompensation steps i) →
      Sound steps ((S.enter p).setRollback p ⟨l, []⟩) strategy) :
    Sound steps (S.compensateSaga steps strategy p) strategy := by
  have hcompensating : ∀ l, ((S.enter p).setRollback p ⟨l, []⟩).isCompensating p = true := by
    intro l
    cases p <;> rfl
  have hrollback : ∀ l, ((S.enter p).setRollback p ⟨l, []⟩).rollback p = ⟨l, []⟩ := fun l =>
    Function.update_self _ _ _
  unfold Saga.compensateSaga
  cases strategy with
  | lifo =>
    refine (h _ (List.nodup_reverse.mpr (nodup_completedSteps steps S)) fun i => ?_).next
      (hcompensating _) (by rw [hrollback])
    rw [List.mem_reverse, mem_completedSteps]
  | parallel =>
    have hall := h _ (nodup_completedSteps steps S) (mem_completedSteps steps S)
    show Sound steps (if _ then _ else _) _
    split
    · rename_i hnone
      rw [hnone] at hall
      have hfinish := hall.finish (hcompensating _) (hrollback _)
      have hrollback : Function.update S.rollback p {} = S.rollback := by
        rw [← hidle, Function.update_eq_self]
      have heq : ((S.enter p).setRollback p ⟨[], []⟩).finish p = S.finish p := by
        unfold Saga.finish Saga.setRollback Saga.enter
        cases p <;> (simp only [hrollback]; split <;> rfl)
      rwa [heq] at hfinish
    · exact hall

theorem Steady.compensateFailure (h : Steady steps S strategy)
    (hexecutor : S.isCompensating .executor = false)
    (hwaiting : (S.rollback .aborter).waiting = []) :
    Sound steps (S.compensateFailure steps strategy) strategy := by
  have hidle := h.idle _ hexecutor
  refine Sound.compensateSaga (S := { S with state := .compensating }) hidle
    fun l hl hmem => ?_
  refine ⟨⟨?_, fun hstrategy p' => ?_, fun p' hp' => ?_, h.dependencies⟩, ?_⟩
  · refine (h.books.congr (T := { S with state := .compensating }) rfl rfl rfl).enter
      (by rw [hidle]) (fun p' hp' => ?_) hl fun i hi => ((hmem i).mp hi).1
    cases p' with
    | executor => exact absurd rfl hp'
    | aborter => exact hwaiting
  · cases p' with
    | executor => exact Nat.zero_le 1
    | aborter => exact h.oneByOne hstrategy .aborter
  · cases p' with
    | executor => cases hp'
    | aborter => exact h.idle .aborter hp'
  · exact ⟨fun i hi hcomp => (hmem i).mpr ⟨hi, hcomp⟩, hwaiting, .inl rfl⟩

theorem Going.of_eq {state : SagaState} (h : Going S state) (haborter : S'.aborter = S.aborter)
    (hstate : S'.state = S.state) (hcompensations : S'.compensations = S.compensations) :
    Going S' state := by
  unfold Going Aborting
  rw [haborter, hstate, hcompensations]
  exact h

theorem Steady.setStep (h : Steady steps S strategy) (hi : (S.stepStates i).isDone = false)
    {state : StepState} (hstate : state.isDone = false) :
    Steady steps (S.setStep i state) strategy :=
  ⟨h.books.setStep hi hstate, h.oneByOne, fun p hp => h.idle p (by cases p <;> exact hp),
    h.dependencies⟩

theorem Steady.complete (h : Steady steps S strategy) (hi : (S.stepStates i).isDone = false) :
    Steady steps { S.setStep i .completed with log := .completed i :: S.log } strategy := by
  refine ⟨h.books.complete hi, h.oneByOne, fun p hp => h.idle p (by cases p <;> exact hp), ?_⟩
  intro j states step hmem
  rcases List.mem_cons.mp hmem with heq | hmem
  · cases heq
  · exact h.dependencies j states step hmem

theorem checkDependencies_cases (steps : List SagaStep) (S : Saga) (i : ℕ) (step : SagaStep) :
    S.checkDependencies steps i step = S ∨
      S.checkDependencies steps i step = S.setStep i .skipped := by
  unfold Saga.checkDependencies
  generalize step.dependencies = dependencies
  suffices hfold : ∀ S', S' = S ∨ S' = S.setStep i .skipped →
      dependencies.foldl (Saga.checkDependency steps i) S' = S ∨
      dependencies.foldl (Saga.checkDependency steps i) S' = S.setStep i .skipped from
    hfold S (.inl rfl)
  induction dependencies with
  | nil => exact fun S' hS' => hS'
  | cons stepId rest ih =>
    intro S' hS'
    refine ih _ ?_
    unfold Saga.checkDependency
    rcases Saga.findStep steps stepId with _ | j
    · exact hS'
    · show (if _ then _ else _) = _ ∨ (if _ then _ else _) = _
      split
      · exact hS'
      · right
        rcases hS' with rfl | rfl
        · rfl
        · unfold Saga.setStep
          simp only [Function.update_idem]

/-- What holds where the execution may come to an attempt. -/
structure Proceeding (steps : List SagaStep) (strategy : CompensationStrategy) (S : Saga)
    (i : ℕ) : Prop where
  steady : Steady steps S strategy
  reached : Reached S i
  going : Going S .running
  executing : S.isCompensating .executor = false

theorem Proceeding.isDone (h : Proceeding steps strategy S i) : (S.stepStates i).isDone = false := by
  rw [← Bool.not_eq_true, h.reached]
  exact lt_irrefl i

theorem Proceeding.setStep (h : Proceeding steps strategy S i) (state : StepState)
    (hstate : state.isDone = false) : Proceeding steps strategy (S.setStep i state) i := by
  refine ⟨h.steady.setStep h.isDone hstate, fun j => ?_, h.going.of_eq rfl rfl rfl, h.executing⟩
  by_cases hji : j = i
  · rw [hji, S.setStep_self, hstate]
    exact iff_of_false Bool.false_ne_true (lt_irrefl i)
  · rw [S.setStep_of_ne hji]
    exact h.reached j

theorem Proceeding.attemptStep (h : Proceeding steps strategy S i) {step : SagaStep}
    (hstep : steps[i]? = some step) {attempt : ℕ} (hmay : MayProceed steps S i attempt) :
    Sound steps (S.attemptStep steps strategy i step attempt) strategy := by
  unfold MayProceed at hmay
  simp only [hstep] at hmay
  unfold Saga.attemptStep
  split at hmay
  · rename_i hattempt
    rw [if_pos hattempt]
    obtain ⟨hsteady, hreached, hgoing, -⟩ := h.setStep .running rfl
    obtain ⟨hlen, -⟩ := List.getElem?_eq_some_iff.mp hstep
    have hcalled := hsteady.books.called (i := i) (S.setStep i .running).stepStates
    refine ⟨⟨hcalled.congr rfl rfl rfl, hsteady.oneByOne, fun p hp => ?_, ?_⟩, hreached, hlen,
      hgoing.of_eq rfl rfl rfl⟩
    · cases p with
      | executor => exact h.steady.idle _ h.executing
      | aborter => exact h.steady.idle _ hp
    · intro i' states step' hmem hstep' stepId hid
      rcases List.mem_cons.mp hmem with heq | hmem
      · obtain ⟨rfl, rfl⟩ := Entry.called.inj heq
        rw [hstep] at hstep'
        obtain rfl := Option.some.inj hstep'
        obtain ⟨j, hj, hfind, hne, hne'⟩ := hmay stepId hid
        refine ⟨j, hfind, ?_⟩
        rw [S.setStep_of_ne (Nat.ne_of_lt hj)]
        have hdone := (h.reached j).mpr hj
        cases hstate : S.stepStates j <;> simp_all [StepState.isDone]
      · exact hsteady.dependencies i' states step' hmem hstep' stepId hid
  · rename_i hattempt
    rw [if_neg hattempt]
    exact h.steady.compensateFailure h.executing hmay

theorem Proceeding.executeFrom (h : Proceeding steps strategy S i) (hi : i ≤ steps.length)
    (hmay : MayProceed steps S i 0) :
    Sound steps (S.executeFrom steps strategy i) strategy := by
  unfold Saga.executeFrom
  cases hstep : steps[i]? with
  | some step =>
    have hnext : Proceeding steps strategy (S.checkDependencies steps i step) i ∧
        MayProceed steps (S.checkDependencies steps i step) i 0 := by
      rcases checkDependencies_cases steps S i step with heq | heq <;> rw [heq]
      · exact ⟨h, hmay⟩
      · refine ⟨h.setStep _ rfl, ?_⟩
        unfold MayProceed at hmay ⊢
        simp only [hstep] at hmay ⊢
        split
        · rename_i hattempt
          rw [if_pos hattempt] at hmay
          intro stepId hid
          obtain ⟨j, hj, hfind, hne⟩ := hmay stepId hid
          refine ⟨j, hj, hfind, ?_⟩
          rwa [S.setStep_of_ne (Nat.ne_of_lt hj)]
        · rename_i hattempt
          rwa [if_neg hattempt] at hmay
    exact hnext.1.attemptStep hstep hnext.2
  | none =>
    have hlen : i = steps.length := le_antisymm hi (List.getElem?_eq_none_iff.mp hstep)
    have hnot : ¬ Aborting S := by
      unfold MayProceed at hmay
      simpa only [hstep] using hmay
    obtain ⟨-, -, hnone⟩ := h.going.resolve_right fun habort => hnot habort.1
    refine ⟨⟨h.steady.books.congr rfl rfl rfl, h.steady.oneByOne, fun p hp => ?_,
      h.steady.dependencies⟩, fun j hj => ?_, hnone, hnot, rfl⟩
    · cases p with
      | executor => exact h.steady.idle _ h.executing
      | aborter => exact h.steady.idle _ hp
    · have hdone := (h.reached j).mpr (hlen ▸ hj)
      have honce : S.stepStates j ≠ .compensating ∧ S.stepStates j ≠ .compensated := by
        constructor
        all_goals
          intro hstate
          have hcount := h.steady.books.once j (by rw [hstate]; simp)
          rw [hnone] at hcount
          cases hcount
      show S.stepStates j = .completed
      cases hstate : S.stepStates j <;> simp_all [StepState.isDone]

/-! ## One event -/

theorem Sound.execute (h : Sound steps S strategy) (hexecutor : S.executor = .ready)
    (hmay : S.state = .initialized → MayProceed steps S 0 0) :
    Sound steps (S.startExecution steps strategy) strategy := by
  obtain ⟨hreached, hgoing⟩ : Reached S 0 ∧ Going S .initialized := by
    have hphase := h.phase
    rwa [hexecutor] at hphase
  have hidle : S.isCompensating .executor = false := by simp [Saga.isCompensating, hexecutor]
  unfold Saga.startExecution
  split
  · rename_i hstate
    have hproceeding : Proceeding steps strategy { S with state := .running } 0 := by
      refine ⟨⟨h.books.congr rfl rfl rfl, h.oneByOne, fun p hp => h.idle p ?_, h.dependencies⟩,
        hreached, ?_, hidle⟩
      · cases p <;> exact hp
      · rcases hgoing with ⟨hnot, -, hnone⟩ | ⟨-, haborted⟩
        · exact .inl ⟨hnot, rfl, hnone⟩
        · rw [hstate] at haborted
          cases haborted
    exact hproceeding.executeFrom (Nat.zero_le _) (hmay hstate)
  · rename_i hstate
    refine ⟨⟨h.books.congr rfl rfl rfl, h.oneByOne, fun p hp => ?_, h.dependencies⟩, .inr ?_⟩
    · cases p with
      | executor => exact h.idle _ hidle
      | aborter => exact h.idle _ hp
    · rcases hgoing with ⟨-, hinitialized, -⟩ | ⟨habort, haborted⟩
      · exact absurd hinitialized hstate
      · refine ⟨habort, haborted, fun i hi _ => ?_⟩
        have hdone := hreached i
        rw [show S.stepStates i = .completed from hi] at hdone
        exact absurd (hdone.mp rfl) (Nat.not_lt_zero i)

theorem Sound.stepReturns (h : Sound steps S strategy) {attempt : ℕ}
    (hexecutor : S.executor = .calling i attempt) (hmay : MayProceed steps S (i + 1) 0)
    (step : SagaStep) :
    Sound steps (S.stepEnds steps strategy i step attempt .returned) strategy := by
  obtain ⟨hreached, hlen, hgoing⟩ : Reached S i ∧ i < steps.length ∧ Going S .running := by
    have hphase := h.phase
    rwa [hexecutor] at hphase
  have hdone : (S.stepStates i).isDone = false := by
    rw [← Bool.not_eq_true, hreached]
    exact lt_irrefl i
  have hproceeding : Proceeding steps strategy
      { S.setStep i .completed with log := .completed i :: S.log } (i + 1) := by
    refine ⟨h.complete hdone, fun j => ?_, hgoing.of_eq rfl rfl rfl, ?_⟩
    · show ((S.setStep i .completed).stepStates j).isDone = true ↔ j < i + 1
      by_cases hji : j = i
      · rw [hji, S.setStep_self]
        exact iff_of_true rfl (Nat.lt_succ_self i)
      · rw [S.setStep_of_ne hji, hreached]
        omega
    · show decide (S.executor = .compensating) = false
      rw [hexecutor]
      rfl
  refine hproceeding.executeFrom hlen ?_
  unfold MayProceed at hmay ⊢
  rcases hstep : steps[i + 1]? with _ | step'
  · simp only [hstep] at hmay ⊢
    exact hmay
  · simp only [hstep] at hmay ⊢
    split
    · rename_i hattempt
      rw [if_pos hattempt] at hmay
      intro stepId hid
      obtain ⟨j, hj, hfind, hne⟩ := hmay stepId hid
      refine ⟨j, hj, hfind, ?_⟩
      show (S.setStep i .completed).stepStates j ≠ _ ∧ (S.setStep i .completed).stepStates j ≠ _
      by_cases hji : j = i
      · rw [hji, S.setStep_self]
        exact ⟨by decide, by decide⟩
      · rwa [S.setStep_of_ne hji]
    · rename_i hattempt
      rwa [if_neg hattempt] at hmay

theorem Sound.stepFails (h : Sound steps S strategy) {attempt : ℕ}
    (hexecutor : S.executor = .calling i attempt) {step : SagaStep}
    (hwaiting : (attempt : ℤ) = step.maxRetries → (S.rollback .aborter).waiting = []) :
    Sound steps (S.stepEnds steps strategy i step attempt .failed) strategy := by
  obtain ⟨hreached, hlen, hgoing⟩ : Reached S i ∧ i < steps.length ∧ Going S .running := by
    have hphase := h.phase
    rwa [hexecutor] at hphase
  have hidle : S.isCompensating .executor = false := by simp [Saga.isCompensating, hexecutor]
  show Sound steps (if _ then _ else _) _
  split
  · rename_i hattempt
    have hdone : (S.stepStates i).isDone = false := by
      rw [← Bool.not_eq_true, hreached]
      exact lt_irrefl i
    exact (h.setStep hdone rfl).compensateFailure hidle (hwaiting hattempt)
  · refine ⟨⟨h.books.congr rfl rfl rfl, h.oneByOne, fun p hp => ?_, h.dependencies⟩,
      hreached, hlen, hgoing.of_eq rfl rfl rfl⟩
    cases p with
    | executor => exact h.idle _ hidle
    | aborter => exact h.idle _ hp

theorem Sound.stepEscapes (h : Sound steps S strategy) {attempt : ℕ}
    (hexecutor : S.executor = .calling i attempt)
    (hcovered : Aborting S → Covered steps S .aborter) (step : SagaStep) :
    Sound steps (S.stepEnds steps strategy i step attempt .escaped) strategy := by
  obtain ⟨hreached, hlen, hgoing⟩ : Reached S i ∧ i < steps.length ∧ Going S .running := by
    have hphase := h.phase
    rwa [hexecutor] at hphase
  have hidle : S.isCompensating .executor = false := by simp [Saga.isCompensating, hexecutor]
  refine ⟨⟨h.books.congr rfl rfl rfl, h.oneByOne, fun p hp => ?_, h.dependencies⟩, ?_⟩
  · cases p with
    | executor => exact h.idle _ hidle
    | aborter => exact h.idle _ hp
  · rcases hgoing with ⟨hnot, hstate, -⟩ | ⟨habort, hstate⟩
    · exact .inl ⟨hnot, hstate⟩
    · exact .inr ⟨habort, hstate, hcovered habort⟩

theorem Sound.startAbort (h : Sound steps S strategy) (haborter : S.aborter = .ready) :
    Sound steps (S.startAbort steps strategy) strategy := by
  have hnot : ¬ Aborting S := fun habort => habort.1 haborter
  have hidle : S.rollback .aborter = {} := h.idle _ (by simp [Saga.isCompensating, haborter])
  unfold Saga.startAbort
  split
  · rename_i hstart
    obtain ⟨-, hstate⟩ := hstart
    have hexecuting : S.isCompensating .executor = false := by
      refine Bool.eq_false_iff.mpr fun hcompensating => ?_
      have hphase := h.phase
      rw [executor_of_compensating hcompensating] at hphase
      rcases hphase.2.2 with hstate' | hstate' <;> rw [hstate'] at hstate <;>
        rcases hstate with hstate | hstate <;> cases hstate
    refine Sound.compensateSaga (S := { S with state := .aborted }) hidle fun l hl hmem => ?_
    have habort : Aborting (({ S with state := .aborted }.enter .aborter).setRollback .aborter
        ⟨l, []⟩) := ⟨by rintro ⟨⟩, by rintro ⟨⟩⟩
    refine ⟨⟨?_, fun hstrategy p => ?_, fun p hp => ?_, h.dependencies⟩, ?_⟩
    · refine (h.books.congr (T := { S with state := .aborted }) rfl rfl rfl).enter
        (by rw [hidle]) (fun p hp => ?_) hl fun i hi => ((hmem i).mp hi).1
      cases p with
      | executor => rw [h.idle _ hexecuting]
      | aborter => exact absurd rfl hp
    · cases p with
      | executor => exact h.oneByOne hstrategy .executor
      | aborter => exact Nat.zero_le 1
    · cases p with
      | executor => exact h.idle _ hexecuting
      | aborter => cases hp
    · show Phase steps _ S.executor
      have hphase := h.phase
      cases hexecutor : S.executor with
      | ready =>
        rw [hexecutor] at hphase
        exact ⟨hphase.1, .inr ⟨habort, rfl⟩⟩
      | calling i attempt =>
        rw [hexecutor] at hphase
        exact ⟨hphase.1, hphase.2.1, .inr ⟨habort, rfl⟩⟩
      | sleeping i attempt =>
        rw [hexecutor] at hphase
        exact ⟨hphase.1, hphase.2.1, .inr ⟨habort, rfl⟩⟩
      | compensating => simp [Saga.isCompensating, hexecutor] at hexecuting
      | returned result =>
        rw [hexecutor] at hphase
        rcases result with _ | _
        · rw [hphase.2.2] at hstate
          rcases hstate with hstate | hstate <;> cases hstate
        · rw [hphase.2.2.2] at hstate
          rcases hstate with hstate | hstate <;> cases hstate
      | raised => exact .inr ⟨habort, rfl, fun i hi hcomp => (hmem i).mpr ⟨hi, hcomp⟩⟩
  · have hnot' : ¬ Aborting { S with aborter := .returned false } := fun habort => habort.2 rfl
    refine ⟨⟨h.books.congr rfl rfl rfl, h.oneByOne, fun p hp => ?_, h.dependencies⟩, ?_⟩
    · cases p with
      | executor => exact h.idle _ hp
      | aborter => exact hidle
    · show Phase steps _ S.executor
      have hphase := h.phase
      have hgoing : ∀ state, Going S state → Going { S with aborter := .returned false } state := by
        rintro state (⟨-, hgoing⟩ | ⟨habort, -⟩)
        · exact .inl ⟨hnot', hgoing⟩
        · exact absurd habort hnot
      cases hexecutor : S.executor with
      | ready =>
        rw [hexecutor] at hphase
        exact ⟨hphase.1, hgoing _ hphase.2⟩
      | calling i attempt =>
        rw [hexecutor] at hphase
        exact ⟨hphase.1, hphase.2.1, hgoing _ hphase.2.2⟩
      | sleeping i attempt =>
        rw [hexecutor] at hphase
        exact ⟨hphase.1, hphase.2.1, hgoing _ hphase.2.2⟩
      | compensating =>
        rw [hexecutor] at hphase
        exact hphase
      | returned result =>
        rw [hexecutor] at hphase
        rcases result with _ | _
        · exact hphase
        · exact ⟨hphase.1, hphase.2.1, hnot', hphase.2.2.2⟩
      | raised =>
        rw [hexecutor] at hphase
        rcases hphase with ⟨-, hstate⟩ | ⟨habort, -⟩
        · exact .inl ⟨hnot', hstate⟩
        · exact absurd habort hnot

theorem Sound.compensationEnds (h : Sound steps S strategy)
    (hi : i ∈ (S.rollback p).running) :
    Sound steps (S.compensationEnds strategy p i .returned) strategy := by
  have hcompensating : S.isCompensating p = true := by
    refine h.isCompensating (.inr fun hnone => ?_)
    rw [hnone] at hi
    cases hi
  have hcompensated := h.compensated hi
  unfold Saga.compensationEnds
  cases strategy with
  | lifo =>
    refine hcompensated.next ?_ ?_
    · cases p <;> exact hcompensating
    · have hone := h.oneByOne rfl p
      have hmine : ((S.setRollback p { S.rollback p with
          running := (S.rollback p).running.erase i }).setStep i .compensated).rollback p =
          { S.rollback p with running := (S.rollback p).running.erase i } :=
        Function.update_self _ _ _
      rw [hmine]
      refine List.length_eq_zero_iff.mp ?_
      show ((S.rollback p).running.erase i).length = 0
      rw [List.length_erase_of_mem hi]
      omega
  | parallel => exact hcompensated

/-- **One event** that is orderly. -/
theorem Sound.step (h : Sound steps S strategy) (e : Event) (he : Orderly steps S e) :
    Sound steps (S.step steps strategy e) strategy := by
  cases e with
  | execute =>
    show Sound steps (if _ then _ else _) _
    split
    · next hexecutor => exact h.execute hexecutor (he hexecutor)
    · exact h
  | stepEnds outcome =>
    unfold Saga.step
    cases hexecutor : S.executor with
    | calling i attempt =>
      rcases hstep : steps[i]? with _ | step
      · simpa only [hstep] using h
      · simp only [hstep]
        cases outcome with
        | returned => exact h.stepReturns hexecutor (he i attempt hexecutor) step
        | failed => exact h.stepFails hexecutor (he i attempt step hexecutor hstep)
        | escaped => exact h.stepEscapes hexecutor (he i attempt hexecutor) step
    | ready | sleeping _ _ | compensating | returned _ | raised => exact h
  | sleepEnds =>
    unfold Saga.step
    cases hexecutor : S.executor with
    | sleeping i attempt =>
      rcases hstep : steps[i]? with _ | step
      · simpa only [hstep] using h
      · have hphase := h.phase
        rw [hexecutor] at hphase
        have hproceeding : Proceeding steps strategy S i :=
          ⟨h.toSteady, hphase.1, hphase.2.2, by simp [Saga.isCompensating, hexecutor]⟩
        simp only [hstep]
        exact hproceeding.attemptStep hstep (he i attempt hexecutor)
    | ready | calling _ _ | compensating | returned _ | raised => exact h
  | abort =>
    show Sound steps (if _ then _ else _) _
    split
    · next haborter => exact h.startAbort haborter
    · exact h
  | taskStarts p =>
    cases strategy with
    | lifo => exact h
    | parallel =>
      rcases hwaiting : (S.rollback p).waiting with _ | ⟨i, rest⟩
      · simpa only [Saga.step, hwaiting] using h
      · simp only [Saga.step, hwaiting]
        exact h.begin hwaiting (by rintro ⟨⟩)
  | compensationEnds p i outcome =>
    show Sound steps (if _ then _ else _) _
    split
    · rename_i hi
      obtain rfl := he hi
      exact h.compensationEnds hi
    · exact h
  | gathered p =>
    show Sound steps (if _ then _ else _) _
    split
    · rename_i hall
      obtain ⟨-, hcompensating, hwaiting, hrunning⟩ := hall
      refine h.finish hcompensating ?_
      generalize S.rollback p = r at hwaiting hrunning
      obtain ⟨waiting, running⟩ := r
      obtain rfl : waiting = [] := hwaiting
      obtain rfl : running = [] := hrunning
      rfl
    · exact h

/-! ## Whole runs -/

theorem sound_init (steps : List SagaStep) (strategy : CompensationStrategy) :
    Sound steps {} strategy := by
  have hnot : ¬ Aborting {} := fun habort => habort.1 rfl
  refine ⟨⟨⟨?_, ?_, ?_, ?_, ?_, ?_, ?_, ?_, ?_, ?_⟩, ?_, fun _ _ => rfl, ?_⟩, ?_, .inl ⟨hnot, rfl, rfl⟩⟩
  · exact fun i _ => ⟨List.not_mem_nil, List.not_mem_nil⟩
  · rintro i ⟨⟩
  · rintro i (⟨⟨⟩⟩ | ⟨⟨⟩⟩)
  · exact fun p i hi => absurd hi List.not_mem_nil
  · exact fun p => List.nodup_nil
  · exact fun p p' i hi => absurd hi List.not_mem_nil
  · exact fun p i hi => absurd hi List.not_mem_nil
  · rintro i ⟨⟩
  · exact fun p => List.nodup_nil
  · exact fun p p' i hi => absurd hi List.not_mem_nil
  · exact fun _ p => Nat.zero_le 1
  · exact fun i states step hmem => absurd hmem List.not_mem_nil
  · exact fun j => iff_of_false Bool.false_ne_true (Nat.not_lt_zero j)

theorem Sound.atomic (h : Sound steps S strategy) : Atomic steps S := by
  refine ⟨h.dependencies, fun hreturned i hi => ?_, fun hended hundone => ?_⟩
  · have hphase := h.phase
    rw [hreturned] at hphase
    refine ⟨hphase.1 i hi, fun hmem => ?_⟩
    have hcompensated : i ∈ S.compensations := List.mem_filterMap.mpr ⟨_, hmem, rfl⟩
    rw [hphase.2.1] at hcompensated
    cases hcompensated
  · have hexecutor : S.rollback .executor = {} := by
      refine h.idle _ (Bool.eq_false_iff.mpr fun hcompensating => ?_)
      have heq := executor_of_compensating hcompensating
      rcases hended.1 with hready | hraised | ⟨result, hreturned⟩
      · rw [heq] at hready
        cases hready
      · rw [heq] at hraised
        cases hraised
      · rw [heq] at hreturned
        cases hreturned
    have haborter : S.rollback .aborter = {} := by
      refine h.idle _ (Bool.eq_false_iff.mpr fun hcompensating => hended.2 ?_)
      simpa [Saga.isCompensating] using hcompensating
    -- nothing is left that is completed and has a compensation
    have hleft : (∀ i, S.stepStates i = .completed → ¬ HasCompensation steps i) ∧
        (S.state = .compensated ∨ S.state = .aborted) := by
      have habort : S.aborter = .returned true → Aborting S := fun habort => by
        constructor <;> (rw [habort]; decide)
      have hnone : ∀ p, Covered steps S p →
          ∀ i, S.stepStates i = .completed → ¬ HasCompensation steps i := by
        intro p hcov i hi hcomp
        have hmem := hcov i hi hcomp
        cases p with
        | executor =>
          rw [hexecutor] at hmem
          cases hmem
        | aborter =>
          rw [haborter] at hmem
          cases hmem
      have hphase := h.phase
      rcases hended.1 with hexec | hexec | ⟨result, hexec⟩ <;> rw [hexec] at hphase hundone
      · have haborted := hundone.resolve_left (by rintro ⟨⟩)
        refine ⟨fun i hi => ?_, .inr ?_⟩
        · have hdone := hphase.1 i
          rw [hi] at hdone
          exact absurd (hdone.mp rfl) (Nat.not_lt_zero i)
        · exact (hphase.2.resolve_left fun hgoing => hgoing.1 (habort haborted)).2
      · have haborted := hundone.resolve_left (by rintro ⟨⟩)
        obtain ⟨-, hstate, hcov⟩ := hphase.resolve_left fun hnot => hnot.1 (habort haborted)
        exact ⟨hnone _ hcov, .inr hstate⟩
      · rcases result with _ | _
        · exact ⟨hnone _ hphase.1, .inl hphase.2.2⟩
        · have haborted := hundone.resolve_left (by rintro ⟨⟩)
          exact absurd (habort haborted) hphase.2.2.1
    refine ⟨fun i hmem hcomp => ?_, hleft.2⟩
    have hcompensated : S.stepStates i = .compensated := by
      cases hstate : S.stepStates i with
      | compensated => rfl
      | completed => exact absurd hcomp (hleft.1 i hstate)
      | compensating =>
        obtain ⟨p, hrunning⟩ := h.books.runs i hstate
        cases p with
        | executor =>
          rw [hexecutor] at hrunning
          cases hrunning
        | aborter =>
          rw [haborter] at hrunning
          cases hrunning
      | pending | running | failed | skipped =>
        exact absurd hmem (h.books.fresh i (by rw [hstate]; rfl)).1
    exact ⟨hcompensated, h.books.once i (.inr hcompensated)⟩

/-- **A saga is atomic along every orderly run**: whatever its steps, its strategy, and the order in
which the two calls go on. -/
theorem atomic_of_orderly (steps : List SagaStep) (strategy : CompensationStrategy)
    (events : List Event)
    (h : Machine.Along (Saga.step steps strategy) (Orderly steps) {} events) :
    Atomic steps (Saga.run steps strategy events) :=
  (h.invariant (fun S => Sound steps S strategy) (sound_init steps strategy)
    fun _ e hS he => hS.step e he).atomic

/-! ## A booking that is aborted -/

def booking : List SagaStep :=
  [{ stepId := "reserve", hasCompensation := true },
    { stepId := "pay", dependencies := ["reserve"], maxRetries := 0 }]

/-- The payment fails while the reservation is compensated. -/
theorem atomic_of_orderly_booking : Atomic booking (Saga.run booking .lifo
    [.execute, .stepEnds .returned, .abort, .stepEnds .failed,
      .compensationEnds .aborter 0 .returned]) := by
  refine atomic_of_orderly booking .lifo _ ⟨?_, ?_, trivial, ?_, fun _ => rfl, trivial⟩
  · intro _ _ stepId hid
    cases hid
  · intro i attempt hcalling
    cases hcalling
    intro stepId hid
    obtain rfl := List.mem_singleton.mp hid
    exact ⟨0, Nat.zero_lt_one, by decide, by decide, by decide⟩
  · intro i attempt step hcalling hstep hattempt
    rfl

/-- The payment returns after the reservation was compensated, and the execution returns true. -/
theorem not_atomic_booking : ∃ events, ¬ Atomic booking (Saga.run booking .lifo events) := by
  refine ⟨[.execute, .stepEnds .returned, .abort, .compensationEnds .aborter 0 .returned,
    .stepEnds .returned], fun hatomic => ?_⟩
  have hcompleted := (hatomic.committed (by decide) 0 (by decide)).1
  revert hcompleted
  decide

end EnhancedAgentBus.Verification.SagaCoordinator
