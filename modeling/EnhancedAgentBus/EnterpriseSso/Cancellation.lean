import EnhancedAgentBus.EnterpriseSso.Truthfulness
import Mathlib.Data.List.Sigma

/-!
# Whether a cancelled saga stays so

Any number of `execute` and `cancel_saga` calls on one saga, interleaved at all that they await: the
store, and the attempts of actions and compensations, which count from where they start.  Each call
works on the copy that it has loaded, saves it as a whole, and never looks at what is stored again;
and an execution does not ask what it has loaded.

So a cancelled saga does not stay so (`not_cancelStands`).  It does in every run in which an
execution that has not failed finds the saga neither finished nor withdrawn whenever it saves or
starts an action, and a cancellation knows of what there is to undo (`cancelStands_of_heeds`).
-/

namespace EnhancedAgentBus.EnterpriseSso

open Async

/-! ## The calls -/

/-- `cancel_saga` from its first save on. -/
def cancelTaken (definition : SagaDefinition) (completed : List String) (saga : Saga) :
    Prog Op Resp Empty (Except Failure Bool) := do
  let (result, saga) ← compensate definition saga completed
  match result with
  | .error e => pure (.error e)
  | .ok _ =>
    match ← save { saga with status := .compensated } with
    | .error e => pure (.error e)
    | .ok () => pure (.ok true)

/-- `cancel_saga` from its load on. -/
def cancelLoaded (definition : SagaDefinition) (saga : Saga) :
    Prog Op Resp Empty (Except Failure Bool) :=
  if saga.status = .pending ∨ saga.status = .running then do
    let completed := saga.completedSteps
    let saga := { saga with status := .compensating }
    match ← save saga with
    | .error e => pure (.error e)
    | .ok () => cancelTaken definition completed saga
  else pure (.ok false)

/-- `cancel_saga`, with what it returns. -/
def cancelSagaReturning (definition : SagaDefinition) :
    Prog Op Resp Empty (Except Failure Bool) := do
  let saga ← get
  cancelLoaded definition saga

theorem cancelSaga_eq (definition : SagaDefinition) :
    cancelSaga definition =
      cancelSagaReturning definition >>= fun result => pure (result.map fun _ => ()) := by
  refine congrArg (Prog.await _) (funext fun (saga : Saga) => ?_)
  by_cases hstatus : saga.status = .pending ∨ saga.status = .running
  · refine (if_pos hstatus).trans ?_
    show _ = (cancelLoaded definition saga).bind _
    rw [cancelLoaded, if_pos hstatus]
    refine congrArg (Prog.await _) (funext fun r => ?_)
    rcases r with e | _
    · rfl
    · show (compensate definition _ _).bind _ = (cancelTaken definition _ _).bind _
      refine Eq.trans ?_ (Prog.bind_assoc (compensate definition _ _) _ _).symm
      refine congrArg (Prog.bind _) (funext fun ⟨result, saga⟩ => ?_)
      rcases result with e | _
      · rfl
      · refine congrArg (Prog.await _) (funext fun r => ?_)
        rcases r with e | _
        · rfl
        · rfl
  · refine (if_neg hstatus).trans ?_
    show _ = (cancelLoaded definition saga).bind _
    rw [cancelLoaded, if_neg hstatus]
    rfl

/-- What is called on the saga at the same time. -/
inductive Request where
  | execute
  | cancelSaga
  deriving DecidableEq

/-- Only a cancellation has something to return. -/
def Request.program (definition : SagaDefinition) :
    Request → Prog Op Resp Empty (Except Failure Bool)
  | .execute => do
    let result ← EnterpriseSso.execute definition
    pure (result.map fun _ => false)
  | .cancelSaga => cancelSagaReturning definition

abbrev Label : Type := ℕ × Request

abbrev Calls : Type := Pool Label Op Resp Empty (Except Failure Bool) World

abbrev Performed : Type := Label × Async.Entry World Op Resp

def callsOf (definition : SagaDefinition) (requests : List Request) :
    List (Label × Prog Op Resp Empty (Except Failure Bool)) :=
  requests.zipIdx.map fun (request, n) => ((n, request), request.program definition)

/-- What is reached from the creation of the saga by calls at the same time.  A call that has not
begun may begin at any time. -/
abbrev Interleaved (definition : SagaDefinition) (requests : List Request) (P : Calls) : Prop :=
  Pool.Reach World.Answers (fun _ _ _ => False) (callsOf definition requests) (.created definition)
    P

/-! ## What is promised -/

def Saga.Finished (saga : Saga) : Prop :=
  saga.status = .completed ∨ saga.status = .compensated ∨ saga.status = .compensating ∨
    saga.status = .partiallyCompensated

def Saga.Withdrawn (saga : Saga) : Prop :=
  saga.status = .compensated ∨ saga.status = .compensating ∨ saga.status = .partiallyCompensated

theorem Saga.Withdrawn.finished {saga : Saga} (h : saga.Withdrawn) : saga.Finished := .inr h

def Performed.IsAction : Performed → Prop
  | (_, ⟨_, .action _ _, _⟩) => True
  | _ => False

/-- A call of `cancel_saga` has returned `True`. -/
def Cancelled (P : Calls) : Prop := ∃ n, ((n, .cancelSaga), .done (.ok true)) ∈ P.threads

/-- **A cancelled or finished saga stays so**, in a run up to `P`. -/
structure CancelStands (definition : SagaDefinition) (requests : List Request) (P : Calls) :
    Prop where
  /-- No action starts after `cancel_saga` has returned `True`. -/
  noAction : ∀ Q later, Interleaved definition requests Q → Cancelled Q →
    Pool.Reach World.Answers (fun _ _ _ => False) Q.threads Q.state ⟨P.threads, P.state, later⟩ →
      P.log = later ++ Q.log → ∀ e ∈ later, ¬ Performed.IsAction e
  /-- No step whose action was successful is left uncompensated. -/
  compensated : Cancelled P → ∀ step ∈ definition.steps, ¬ Owed step P.state.log
  /-- The saga is not stored as `RUNNING` or `COMPLETED` again. -/
  status : Cancelled P →
    P.state.stored.status ≠ .running ∧ P.state.stored.status ≠ .completed
  /-- An execution of a finished saga runs no action. -/
  finished : ∀ later n w saga earlier,
    P.log = later ++ ((n, .execute), ⟨w, .get, saga⟩) :: earlier → saga.Finished →
      ∀ e ∈ later, e.1 = (n, .execute) → ¬ Performed.IsAction e

/-! ## What is asked of a run -/

def Performed.IsSave : Performed → Prop
  | (_, ⟨_, .save _, _⟩) => True
  | _ => False

/-- What each thing that a call performs has to find.

* An execution that has not failed finds the saga neither finished nor withdrawn, when it starts an
  attempt of an action, and at each of its saves that takes effect.
* At the first save of a cancellation, each step that is owed a compensation is completed in its
  copy, and has an attempt of its compensation or the strategy `SKIP`.
* Where the last attempt of a compensation in a cancellation fails, and the step is owed one, the
  strategy is `SKIP`. -/
def Heeds (definition : SagaDefinition) (before : List Performed) : Performed → World → Prop
  | (_, ⟨_, .get, _⟩), _ => True
  | (_, ⟨w, .action _ _, _⟩), _ => ¬ w.stored.Finished
  | (l, ⟨w, .save saga, r⟩), w' =>
    (¬ saga.Withdrawn → w' ≠ w → ¬ w.stored.Finished) ∧
    (l.2 = .cancelSaga → r = .ok () → (∀ e ∈ before, e.1 = l → ¬ Performed.IsSave e) →
      ∀ step ∈ definition.steps, Owed step w.log → step.name ∈ saga.completedSteps ∧
        (definition.maxCompensationRetries < 0 → step.compensationStrategy = .skip))
  | (l, ⟨w, .compensation step attempt, r⟩), _ => l.2 = .cancelSaga →
      r = .ok false ∨ r = .error .operation → (attempt : ℤ) = definition.maxCompensationRetries →
        Owed step w.log → step.compensationStrategy = .skip

def Performed.Takes : Performed → Prop
  | ((_, .cancelSaga), ⟨_, .save _, .ok ()⟩) => True
  | _ => False

def Performed.LoadsFinished : Performed → Prop
  | (_, ⟨_, .get, saga⟩) => Saga.Finished saga
  | _ => False

/-- What is stored, in view of what was performed. -/
structure Held (w : World) (log : List Performed) : Prop where
  withdrawn : ∀ e ∈ log, Performed.Takes e → w.stored.Withdrawn
  finished : ∀ e ∈ log, Performed.LoadsFinished e → w.stored.Finished

/-- Where a call stands that may return `True`: it has not saved yet; or it has, and goes on to undo
what is owed; or it has ended otherwise. -/
def Stands (definition : SagaDefinition) (w : World) (log : List Performed) (l : Label)
    (p : Prog Op Resp Empty (Except Failure Bool)) : Prop :=
  l.2 = .cancelSaga →
    (∀ e ∈ log, e.1 = l → ¬ Performed.IsSave e) ∧
        (p = cancelSagaReturning definition ∨ ∃ saga, p = cancelLoaded definition saga) ∨
      (∃ e ∈ log, Performed.Takes e) ∧
        EndsAmid definition .cancelSaga p w (fun r w' =>
          r = .ok true → ∀ step ∈ definition.steps, ¬ Owed step w'.log) ∨
      ∃ r, p = .done r ∧ r ≠ .ok true

/-! ## One operation -/

section Steps

variable {definition : SagaDefinition} {w w' : World} {log : List Performed} {l : Label}

theorem World.write_ne (w : World) (saga : Saga) : w.write saga ≠ w := fun h =>
  List.cons_ne_self _ _ (congrArg World.log h)

theorem Heeds.shrinks {o : Op} {r : Resp o} (hheeds : Heeds definition log (l, ⟨w, o, r⟩) w')
    (hanswer : w.Answers o r w') (hw : w.stored.Finished) : Shrinks w w' := by
  cases o with
  | get =>
    obtain ⟨-, rfl⟩ := hanswer
    exact shrinks_cons rfl fun _ => by rintro ⟨⟩
  | save saga => exact shrinks_answers hanswer
  | action step attempt => exact absurd hw hheeds
  | compensation step attempt =>
    obtain rfl : w' = _ := hanswer
    exact shrinks_cons rfl fun _ => by rintro ⟨⟩

theorem Heeds.stored {o : Op} {r : Resp o} (hheeds : Heeds definition log (l, ⟨w, o, r⟩) w')
    (hanswer : w.Answers o r w') (hw : w.stored.Finished) :
    w'.stored = w.stored ∨ w'.stored.Withdrawn := by
  cases o with
  | get =>
    obtain ⟨-, rfl⟩ := hanswer
    exact .inl rfl
  | save saga =>
    have hwithdrawn (hw' : w' = w.write saga) : w'.stored.Withdrawn := by
      by_contra hnot
      rw [hw'] at hnot hheeds
      exact hheeds.1 hnot (w.write_ne saga) hw
    cases r with
    | ok _ => exact .inr (hwithdrawn hanswer)
    | error e =>
      rcases hanswer with rfl | hw'
      · exact .inl rfl
      · exact .inr (hwithdrawn hw')
  | action step attempt =>
    obtain rfl : w' = _ := hanswer
    exact .inl rfl
  | compensation step attempt =>
    obtain rfl : w' = _ := hanswer
    exact .inl rfl

theorem Heeds.withdrawn {o : Op} {r : Resp o} (hheeds : Heeds definition log (l, ⟨w, o, r⟩) w')
    (hanswer : w.Answers o r w') (hw : w.stored.Withdrawn) : w'.stored.Withdrawn := by
  rcases hheeds.stored hanswer hw.finished with h | h
  · rwa [h]
  · exact h

theorem Heeds.finished {o : Op} {r : Resp o} (hheeds : Heeds definition log (l, ⟨w, o, r⟩) w')
    (hanswer : w.Answers o r w') (hw : w.stored.Finished) : w'.stored.Finished := by
  rcases hheeds.stored hanswer hw with h | h
  · rwa [h]
  · exact h.finished

theorem Held.step {o : Op} {r : Resp o} (hheld : Held w log)
    (hheeds : Heeds definition log (l, ⟨w, o, r⟩) w') (hanswer : w.Answers o r w')
    (htakes : Performed.Takes (l, ⟨w, o, r⟩) → w'.stored.Withdrawn) :
    Held w' ((l, ⟨w, o, r⟩) :: log) := by
  constructor
  · intro e he hkind
    rcases List.mem_cons.mp he with rfl | he
    · exact htakes hkind
    · exact hheeds.withdrawn hanswer (hheld.withdrawn e he hkind)
  · intro e he hkind
    rcases List.mem_cons.mp he with rfl | he
    · cases o with
      | get =>
        obtain ⟨rfl, rfl⟩ := hanswer
        exact hkind
      | save saga => exact hkind.elim
      | action step attempt => exact hkind.elim
      | compensation step attempt => exact hkind.elim
    · exact hheeds.finished hanswer (hheld.finished e he hkind)

theorem cancelSagaReturning_eq (definition : SagaDefinition) :
    cancelSagaReturning definition = .await .get (cancelLoaded definition) := rfl

theorem cancelLoaded_eq {saga : Saga} (h : saga.status = .pending ∨ saga.status = .running) :
    cancelLoaded definition saga = .await (.save { saga with status := .compensating }) fun r =>
      match r with
      | .error e => .done (.error e)
      | .ok () =>
        cancelTaken definition saga.completedSteps { saga with status := .compensating } := by
  rw [cancelLoaded, if_pos h]
  refine congrArg (Prog.await _) (funext fun r => ?_)
  cases r with
  | ok _ => rfl
  | error e => rfl

theorem Stands.other {o : Op} {r : Resp o} {l' : Label}
    {p : Prog Op Resp Empty (Except Failure Bool)} (hheld : Held w log)
    (hheeds : Heeds definition log (l, ⟨w, o, r⟩) w') (hanswer : w.Answers o r w') (hne : l ≠ l')
    (hstands : Stands definition w log l' p) :
    Stands definition w' ((l, ⟨w, o, r⟩) :: log) l' p := by
  intro hcancel
  rcases hstands hcancel with ⟨hnone, hp⟩ | ⟨⟨e, he, htakes⟩, hends⟩ | hended
  · refine .inl ⟨fun e he hown => ?_, hp⟩
    rcases List.mem_cons.mp he with rfl | he
    · exact absurd hown hne
    · exact hnone e he hown
  · have hwithdrawn := hheld.withdrawn e he htakes
    have hshrinks := hheeds.shrinks hanswer hwithdrawn.finished
    refine .inr (.inl ⟨⟨e, List.mem_cons_of_mem _ he, htakes⟩, ?_⟩)
    refine Safe.amid (fun _ _ _ => Shrinks.trans) ?_ ?_ (fun e => e.elim) hends hshrinks
    · intro w₁ w₂ o hw h
      cases o with
      | save saga => exact fun hstatus step hstep howed => h hstatus step hstep (hw step howed)
      | compensation step attempt => trivial
      | get => exact h
      | action step attempt => exact h
    · exact fun r w₁ w₂ hw h hr step hstep howed => h hr step hstep (hw step howed)
  · exact .inr (.inr hended)

theorem endsAmid_cancelTaken (hdistinct : definition.Distinct) (saga : Saga)
    {completed : List String} (hstatus : saga.status = .compensating)
    (hnames : completed ⊆ saga.names) (hnone : NoAttempts definition w)
    (hknown : ∀ step ∈ definition.steps, Owed step w.log → step.name ∈ completed) :
    EndsAmid definition .cancelSaga (cancelTaken definition completed saga) w fun r w' =>
      r = .ok true → ∀ step ∈ definition.steps, ¬ Owed step w'.log := by
  rw [cancelTaken, endsAmid_bind]
  refine EndsAmid.mono (endsAmid_compensate hdistinct saga hstatus hnames hnone hknown) ?_
  rintro ⟨e | compensated, saga'⟩ w₁ hsettled
  · rintro ⟨⟩
  · have hnotOwed := hsettled compensated rfl
    rw [endsAmid_bind]
    refine endsAmid_save (fun _ => hnotOwed) (fun w₂ hw₂ => ?_) fun e w₂ hw₂ => ?_
    · intro _ step hstep howed
      exact hnotOwed step hstep (hw₂ step (shrinks_write w₂ _ step howed))
    · rintro ⟨⟩

/-- **One operation of a call** leaves it where it may stand. -/
theorem Stands.own {o : Op} {r : Resp o}
    {k : Resp o → Prog Op Resp Empty (Except Failure Bool)} (hdistinct : definition.Distinct)
    (hheeds : Heeds definition log (l, ⟨w, o, r⟩) w') (hanswer : w.Answers o r w')
    (hstands : Stands definition w log l (.await o k)) :
    Stands definition w' ((l, ⟨w, o, r⟩) :: log) l (k r) := by
  intro hcancel
  rcases hstands hcancel with ⟨hnone, hp⟩ | ⟨⟨e, he, htakes⟩, hends⟩ | ⟨a, hp, -⟩
  · rcases hp with hp | ⟨saga, hp⟩
    · -- it loads the saga
      rw [cancelSagaReturning_eq] at hp
      cases hp
      refine .inl ⟨fun e he hown => ?_, .inr ⟨r, rfl⟩⟩
      rcases List.mem_cons.mp he with rfl | he
      · exact id
      · exact hnone e he hown
    · by_cases hstatus : saga.status = .pending ∨ saga.status = .running
      · -- it saves the saga for the first time
        rw [cancelLoaded_eq hstatus] at hp
        cases hp
        cases r with
        | ok _ =>
          obtain rfl : w' = _ := hanswer
          have hknown := hheeds.2 hcancel rfl hnone
          have hwrite := shrinks_write w { saga with status := .compensating }
          refine .inr (.inl ⟨⟨_, List.mem_cons_self, ?_⟩, ?_⟩)
          · obtain ⟨n, request⟩ := l
            obtain rfl : request = .cancelSaga := hcancel
            trivial
          · exact endsAmid_cancelTaken hdistinct _ rfl
              (fun _ hname => saga.completedSteps_subset hname)
              (fun hneg step hstep howed => (hknown step hstep (hwrite step howed)).2 hneg)
              fun step hstep howed => (hknown step hstep (hwrite step howed)).1
        | error e => exact .inr (.inr ⟨_, rfl, by rintro ⟨⟩⟩)
      · rw [cancelLoaded, if_neg hstatus] at hp
        cases hp
  · refine .inr (.inl ⟨⟨e, List.mem_cons_of_mem _ he, htakes⟩, ?_⟩)
    refine hends.2 r w' ⟨w, .refl w, hanswer, ?_⟩
    cases o with
    | get => exact hends.1.elim
    | save saga => rintro ⟨⟩
    | action step attempt => trivial
    | compensation step attempt => exact fun _ => hheeds hcancel
  · cases hp

theorem Stands.takes {o : Op} {r : Resp o}
    {k : Resp o → Prog Op Resp Empty (Except Failure Bool)} (hheld : Held w log)
    (hheeds : Heeds definition log (l, ⟨w, o, r⟩) w') (hanswer : w.Answers o r w')
    (hstands : Stands definition w log l (.await o k))
    (htakes : Performed.Takes (l, ⟨w, o, r⟩)) : w'.stored.Withdrawn := by
  obtain ⟨n, _ | _⟩ := l
  · exact htakes.elim
  rcases hstands rfl with ⟨-, hp | ⟨saga, hp⟩⟩ | ⟨⟨e, he, he'⟩, -⟩ | ⟨a, hp, -⟩
  · rw [cancelSagaReturning_eq] at hp
    cases hp
    exact htakes.elim
  · by_cases hstatus : saga.status = .pending ∨ saga.status = .running
    · rw [cancelLoaded_eq hstatus] at hp
      cases hp
      cases r with
      | ok _ =>
        obtain rfl : w' = _ := hanswer
        exact .inr (.inl rfl)
      | error e => exact htakes.elim
    · rw [cancelLoaded, if_neg hstatus] at hp
      cases hp
  · exact hheeds.withdrawn hanswer (hheld.withdrawn e he he')
  · cases hp

end Steps

/-! ## Runs -/

section Runs

variable {definition : SagaDefinition} {requests : List Request} {P : Calls}

theorem callsOf_pairwise (definition : SagaDefinition) (requests : List Request) :
    (callsOf definition requests).Pairwise fun t t' => t.1 ≠ t'.1 := by
  have hnumbers : (requests.zipIdx.map Prod.snd).Nodup := List.nodup_zipIdx_map_snd requests
  refine List.pairwise_map.mpr ((List.pairwise_map.mp hnumbers).imp fun hne heq => ?_)
  exact hne (congrArg Prod.fst heq)

theorem stands_start (definition : SagaDefinition) (requests : List Request) :
    ∀ t ∈ callsOf definition requests, Stands definition (.created definition) [] t.1 t.2 := by
  intro t ht hcancel
  obtain ⟨⟨request, n⟩, -, rfl⟩ := List.mem_map.mp ht
  obtain rfl : request = .cancelSaga := hcancel
  exact .inl ⟨fun e he => absurd he List.not_mem_nil, .inl rfl⟩

/-- **Where a run has come**, what is stored is held and every call stands where it may. -/
theorem held_stands (hdistinct : definition.Distinct) (hreach : Interleaved definition requests P)
    (hheeds : Pool.Along (Heeds definition) P.state P.log) :
    Held P.state P.log ∧ ∀ t ∈ P.threads, Stands definition P.state P.log t.1 t.2 :=
  hreach.invariant_apart_along (fun l l' => l ≠ l') (fun _ _ => Ne.symm) Held (Stands definition)
    (callsOf_pairwise definition requests)
    ⟨fun _ he => absurd he List.not_mem_nil, fun _ he => absurd he List.not_mem_nil⟩
    (stands_start definition requests) (fun _ _ _ => id)
    (fun hheld hstands hanswer hheeds =>
      ⟨hheld.step hheeds hanswer (hstands.takes hheld hheeds hanswer),
        hstands.own hdistinct hheeds hanswer⟩)
    (fun hheld _ hanswer hheeds hne hstands => hstands.other hheld hheeds hanswer hne) hheeds

theorem withdrawn_of_cancelled (hdistinct : definition.Distinct)
    (hreach : Interleaved definition requests P)
    (hheeds : Pool.Along (Heeds definition) P.state P.log) (hcancelled : Cancelled P) :
    P.state.stored.Withdrawn ∧ ∀ step ∈ definition.steps, ¬ Owed step P.state.log := by
  obtain ⟨hheld, hstands⟩ := held_stands hdistinct hreach hheeds
  obtain ⟨n, hreturned⟩ := hcancelled
  rcases hstands _ hreturned rfl with ⟨-, hp | ⟨saga, hp⟩⟩ | ⟨⟨e, he, htakes⟩, hends⟩ | ⟨r, hp, hr⟩
  · rw [cancelSagaReturning_eq] at hp
    cases hp
  · by_cases hstatus : saga.status = .pending ∨ saga.status = .running
    · rw [cancelLoaded_eq hstatus] at hp
      cases hp
    · rw [cancelLoaded, if_neg hstatus] at hp
      cases hp
  · exact ⟨hheld.withdrawn e he htakes, hends rfl⟩
  · cases hp
    exact absurd rfl hr

theorem not_finished_of_action {w : World} {e : Performed} (before : List Performed)
    (haction : Performed.IsAction e) (hheeds : Heeds definition before e w) :
    ¬ e.2.before.stored.Finished := by
  obtain ⟨l, w, o, r⟩ := e
  cases o with
  | action step attempt => exact hheeds
  | get => exact haction.elim
  | save saga => exact haction.elim
  | compensation step attempt => exact haction.elim

/-- **When a cancelled or finished saga stays so.** -/
theorem cancelStands_of_heeds (definition : SagaDefinition) (hdistinct : definition.Distinct)
    (requests : List Request) (P : Calls) (hreach : Interleaved definition requests P)
    (hheeds : Pool.Along (Heeds definition) P.state P.log) :
    CancelStands definition requests P := by
  constructor
  · intro Q later hQ hcancelled hlater hlog e he haction
    -- the run as it was when the action started
    obtain ⟨l₂, l₁, rfl⟩ := List.append_of_mem he
    obtain ⟨l, entry⟩ := e
    obtain ⟨⟨threads, hbefore⟩, -⟩ := hlater.of_suffix (List.suffix_append l₂ _)
    have hsuffix : (l, entry) :: (l₁ ++ Q.log) <:+ P.log := by
      rw [hlog, List.append_assoc]
      exact List.suffix_append l₂ _
    obtain ⟨⟨w', hentry⟩, halong⟩ := hheeds.of_suffix hsuffix
    obtain ⟨n, hreturned⟩ := hcancelled
    have hstill := hbefore.ended hreturned
    obtain ⟨hwithdrawn, -⟩ := withdrawn_of_cancelled hdistinct (hQ.trans hbefore) halong ⟨n, hstill⟩
    exact not_finished_of_action _ haction hentry hwithdrawn.finished
  · intro hcancelled
    exact (withdrawn_of_cancelled hdistinct hreach hheeds hcancelled).2
  · intro hcancelled
    have hwithdrawn := (withdrawn_of_cancelled hdistinct hreach hheeds hcancelled).1
    constructor
    · intro h
      rw [Saga.Withdrawn, h] at hwithdrawn
      exact absurd hwithdrawn (by decide)
    · intro h
      rw [Saga.Withdrawn, h] at hwithdrawn
      exact absurd hwithdrawn (by decide)
  · intro later n w saga earlier hlog hfinished e he hlabel haction
    obtain ⟨l₂, l₁, rfl⟩ := List.append_of_mem he
    obtain ⟨l, entry⟩ := e
    have hsuffix : (l, entry) :: (l₁ ++ ((n, .execute), ⟨w, .get, saga⟩) :: earlier) <:+ P.log := by
      rw [hlog, List.append_assoc]
      exact List.suffix_append l₂ _
    obtain ⟨⟨threads, hbefore⟩, -⟩ := hreach.of_suffix hsuffix
    obtain ⟨⟨w', hentry⟩, halong⟩ := hheeds.of_suffix hsuffix
    obtain ⟨hheld, -⟩ := held_stands hdistinct hbefore halong
    have hstored := hheld.finished ((n, .execute), ⟨w, .get, saga⟩)
      (List.mem_append_right _ List.mem_cons_self) hfinished
    exact not_finished_of_action _ haction hentry hstored

end Runs

/-! ## An execution and a cancellation -/

def World.smoothly (w : World) : (o : Op) → Unit → Option (Resp o × World)
  | .get, _ => some (w.stored, w.note .loaded)
  | .save saga, _ => some (.ok (), w.write saga)
  | .action step _, _ => some (.ok true, w.note (.called step true))
  | .compensation step _, _ => some (.ok true, w.note (.compensated step true))

theorem World.answers_of_smoothly {w w' : World} {o : Op} {r : Resp o}
    (h : ∃ a, w.smoothly o a = some (r, w')) : w.Answers o r w' := by
  obtain ⟨_, h⟩ := h
  cases o with
  | get =>
    obtain ⟨rfl, rfl⟩ := Prod.mk.inj (Option.some_inj.mp h)
    exact ⟨rfl, rfl⟩
  | save saga =>
    obtain ⟨rfl, rfl⟩ := Prod.mk.inj (Option.some_inj.mp h)
    rfl
  | action step attempt =>
    obtain ⟨rfl, rfl⟩ := Prod.mk.inj (Option.some_inj.mp h)
    rfl
  | compensation step attempt =>
    obtain ⟨rfl, rfl⟩ := Prod.mk.inj (Option.some_inj.mp h)
    rfl

def Calls.go (P : Calls) (i n : ℕ) : Calls := P.ticks World.smoothly (fun _ _ _ => some ()) i n

def oneStep : SagaDefinition := { steps := [{ name := "validate" }] }

def racing : List Request := [.execute, .cancelSaga]

abbrev Smooth (P : Calls) : Prop :=
  Pool.Reach (fun w o r w' => ∃ a, World.smoothly w o a = some (r, w')) (fun _ _ _ => False)
    (callsOf oneStep racing) (.created oneStep) P

theorem Smooth.go {P : Calls} (h : Smooth P) (i n : ℕ) : Smooth (P.go i n) := Pool.Reach.ticks n h

theorem Smooth.interleaved {P : Calls} (h : Smooth P) : Interleaved oneStep racing P :=
  Pool.Reach.mono (fun _ _ _ _ => World.answers_of_smoothly) h

/-- The execution has completed the step when the saga is cancelled, and does nothing after that. -/
def interrupted : Calls :=
  Calls.go (Calls.go ⟨callsOf oneStep racing, .created oneStep, []⟩ 0 5) 1 6

/-- The execution is about to run the action when the saga is cancelled, and goes on. -/
def overtaken : Calls :=
  Calls.go (Calls.go (Calls.go ⟨callsOf oneStep racing, .created oneStep, []⟩ 0 3) 1 3) 0 2

theorem interrupted_smooth : Smooth interrupted := Smooth.go (Smooth.go .init 0 5) 1 6

theorem overtaken_smooth : Smooth overtaken :=
  Smooth.go (Smooth.go (Smooth.go .init 0 3) 1 3) 0 2

theorem heeds_laterSave {definition : SagaDefinition} {before : List Performed} {w w' : World}
    {saga : Saga} {l : Label} {e : Performed} (hwithdrawn : saga.Withdrawn) (he : e ∈ before)
    (hl : e.1 = l) (hsave : Performed.IsSave e) :
    Heeds definition before (l, ⟨w, .save saga, .ok ()⟩) w' :=
  ⟨fun hnot => absurd hwithdrawn hnot, fun _ _ hnone => absurd hsave (hnone e he hl)⟩

theorem interrupted_heeds :
    Pool.Along (Heeds oneStep) interrupted.state interrupted.log := by
  have hloop {before : List Performed} {w w' : World} {saga : Saga}
      (hw : w.stored.status = .pending ∨ w.stored.status = .running) :
      Heeds oneStep before ((0, .execute), ⟨w, .save saga, .ok ()⟩) w' := by
    refine ⟨fun _ _ hfinished => ?_, by rintro ⟨⟩⟩
    rw [Saga.Finished] at hfinished
    rcases hw with hw | hw
    · simp [hw] at hfinished
    · simp [hw] at hfinished
  have hexecution : Pool.Along (Heeds oneStep)
      (Calls.go ⟨callsOf oneStep racing, .created oneStep, []⟩ 0 5).state
      (Calls.go ⟨callsOf oneStep racing, .created oneStep, []⟩ 0 5).log :=
    And.intro (hloop (.inr rfl)) (And.intro (by rintro (⟨⟨⟩⟩ | ⟨⟨⟩⟩ | ⟨⟨⟩⟩ | ⟨⟨⟩⟩))
      (And.intro (hloop (.inr rfl)) (And.intro (hloop (.inl rfl)) (And.intro trivial trivial))))
  refine And.intro (heeds_laterSave (.inl rfl) List.mem_cons_self rfl trivial)
    (And.intro (heeds_laterSave (.inr (.inl rfl)) (List.mem_cons_of_mem _ List.mem_cons_self) rfl
      trivial)
    (And.intro (by rintro - (⟨⟨⟩⟩ | ⟨⟨⟩⟩))
    (And.intro (heeds_laterSave (.inr (.inl rfl)) List.mem_cons_self rfl trivial)
    (And.intro ⟨fun hnot => absurd (.inr (.inl rfl)) hnot, fun _ _ _ step hstep _ => ?_⟩
    (And.intro trivial hexecution)))))
  obtain rfl := List.mem_singleton.mp hstep
  exact ⟨by decide +kernel, fun h => absurd h (by decide)⟩

theorem interrupted_stands : Cancelled interrupted ∧ CancelStands oneStep racing interrupted :=
  ⟨⟨1, List.mem_cons_of_mem _ (List.mem_singleton.mpr rfl)⟩,
    cancelStands_of_heeds oneStep (by decide) racing interrupted interrupted_smooth.interleaved
      interrupted_heeds⟩

theorem not_cancelStands : Interleaved oneStep racing overtaken ∧ Cancelled overtaken ∧
    ¬ CancelStands oneStep racing overtaken := by
  have hcancelled : Cancelled overtaken :=
    ⟨1, List.mem_cons_of_mem _ (List.mem_singleton.mpr rfl)⟩
  exact ⟨overtaken_smooth.interleaved, hcancelled, fun h => (h.status hcancelled).1 rfl⟩

end EnhancedAgentBus.EnterpriseSso
