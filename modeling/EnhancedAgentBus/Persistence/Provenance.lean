import EnhancedAgentBus.Persistence.Calls
import EnhancedAgentBus.Persistence.Discipline

/-!
# Where everything stored comes from

`Provenance` says where everything in the world comes from, in terms of what has been performed
so far:

* no instance carries the text of its own identifier as its business id;
* no `WORKFLOW_STARTED` event carries a business id;
* what a completed row or a cache entry holds was given by an activity of the instance that
  stored it.

Every call keeps it, in every interleaving (`Interleaving.provenance`).
-/

namespace EnhancedAgentBus.Persistence

open Async Async.Prog DurableWorkflowExecutor

/-! ## Where a stored result comes from -/

/-- An activity of the instance has given the result, under the key. -/
def Produced (log : List Performed) (i : UUID) (k : String) (d : JSONDict) : Prop :=
  ∃ e ∈ log, Yields e.op e.resp i k d

/-- The instance that last stored a result under a workflow id and a key. -/
def storedBy (workflowId key : String) : List Performed → Option UUID
  | [] => none
  | e :: log =>
    match e.op with
    | .setStepResult caller wid k _ =>
      if wid = workflowId ∧ k = key then some caller else storedBy workflowId key log
    | _ => storedBy workflowId key log

theorem Produced.cons {log : List Performed} {i : UUID} {k : String} {d : JSONDict}
    (h : Produced log i k d) (e : Performed) : Produced (e :: log) i k d :=
  h.imp fun _ he => ⟨List.mem_cons_of_mem _ he.1, he.2⟩

/-- **Where everything stored comes from.** -/
structure Provenance (w : World) (log : List Performed) : Prop where
  fresh : ∀ wf ∈ w.workflows, wf.workflowId ≠ wf.id.str
  started : ∀ i, ∀ e ∈ w.events i, e.eventType = .workflowStarted →
    Json.lookup "workflow_id" e.eventData = none
  rows : ∀ s ∈ w.steps, s.status = .completed →
    ∃ k d, s.idempotencyKey = some k ∧ s.output = .obj d ∧ Produced log s.workflowInstanceId k d
  cached : ∀ wid k d, w.cache wid k = some d →
    ∃ i, storedBy wid k log = some i ∧ Produced log i k d

theorem Provenance.empty : Provenance {} [] :=
  ⟨by simp, by simp, by simp, by simp⟩

def CallAllowed (v : View) : Op → Prop
  | .saveWorkflow saved _ => saved.workflowId ≠ saved.id.str
  | .saveEvent event =>
    event.eventType = .workflowStarted → Json.lookup "workflow_id" event.eventData = none
  | .saveStep step => step.status = .completed →
      ∃ k d, step.idempotencyKey = some k ∧ step.output = .obj d ∧
        v.produced step.workflowInstanceId k d
  | .setStepResult caller _ k d => v.produced caller k d
  | _ => True

/-- Answers a call may rely on: a new identifier's text is new, and a stored instance does
not carry its own. -/
def Genuine : (o : Op) → o.Resp → Prop
  | .uuid4 held, u => u.str ∉ held
  | .getWorkflowByBusinessId _ _, some wf => wf.workflowId ≠ wf.id.str
  | _, _ => True

def CallStep (v : View) (o : Op) (r : o.Resp) (v' : View) : Prop :=
  ViewStep false v o r v' ∧ Genuine o r

/-! ### Every call keeps to it -/

section Calls

variable {E : DurableWorkflowExecutor} {v : View}

abbrev CallSafe (p : Code Unit) (v : View) : Prop :=
  Safe CallStep CallAllowed p v (fun _ _ => True) (fun _ _ => True)

theorem executeWorkflow_callSafe {inst : WorkflowInstance}
    (hinst : inst.workflowId ≠ inst.id.str) (hseen : v.seen = false) :
    Safe CallStep CallAllowed (E.executeWorkflow inst) v (fun _ _ => True) (fun _ _ => True) := by
  refine (executeWorkflow_disciplined (fun h => by cases h) hseen).weaken
    (fun _ _ _ _ h => h.1) (fun v o h => ?_)
  cases o with
  | saveWorkflow saved set =>
    intro heq
    exact hinst (h.1.workflowId ▸ h.1.id ▸ heq)
  | saveEvent event => exact fun hty => absurd hty h.2
  | saveStep step =>
    intro hdone
    obtain ⟨k, d, hk, hd, hp⟩ := h.2 hdone
    exact ⟨k, d, hk, hd, h.1 ▸ hp⟩
  | setStepResult caller wid k d =>
    obtain ⟨rfl, _, hp⟩ := h
    exact hp
  | _ => trivial

theorem orRaise_callSafe {α : Type} (r : Except PyExc α) {Q : α → View → Prop}
    (hQ : ∀ a, Q a v) :
    Safe CallStep CallAllowed (orRaise r) v Q (fun _ _ => True) := by
  cases r with
  | ok a => exact hQ a
  | error e => trivial

theorem startWorkflow_callSafe (ty wid tid : String) (input : Option JSONDict) :
    CallSafe (Call.code E (.start ty wid tid input)) v := by
  simp only [CallSafe, Call.code, startWorkflow, safe_bind]
  split
  · trivial
  simp only [safe_bind, safe_perform]
  refine ⟨trivial, fun existing v₁ h₁ => ?_⟩
  cases existing.filter fun wf => wf.status = .pending ∨ wf.status = .running with
  | some wf => trivial
  | none =>
    simp only [safe_bind, safe_perform, assignAndSave, recordEvent]
    refine ⟨trivial, fun id v₂ h₂ => ?_⟩
    have hfresh : wid ≠ id.str := fun heq => h₂.2 (by simp [heq])
    refine ⟨hfresh, fun r v₃ h₃ => orRaise_callSafe r fun _ => ?_⟩
    refine ⟨trivial, fun n v₄ h₄ => ⟨fun _ => rfl, fun r v₅ h₅ => ?_⟩⟩
    exact orRaise_callSafe r fun _ => trivial

theorem cancelWorkflow_callSafe (wid tid reason : String) :
    CallSafe (Call.code E (.cancel wid tid reason)) v := by
  simp only [CallSafe, Call.code, cancelWorkflow, safe_bind, safe_perform]
  refine ⟨trivial, fun found v₁ h₁ => ?_⟩
  rcases found with _ | wf
  · trivial
  · simp only
    split
    · trivial
    simp only [safe_bind, safe_perform, assignAndSave, recordEvent]
    refine ⟨h₁.2, fun r v₂ h₂ => orRaise_callSafe r fun _ => ?_⟩
    refine ⟨trivial, fun n v₃ h₃ => ⟨fun h => by simp at h, fun r v₄ h₄ => ?_⟩⟩
    exact orRaise_callSafe r fun _ => trivial

theorem resumeWorkflow_callSafe (wid tid : String) (hseen : v.seen = false) :
    CallSafe (Call.code E (.resume wid tid)) v := by
  simp only [CallSafe, Call.code, resumeWorkflow, safe_bind, safe_perform]
  refine ⟨trivial, fun found v₁ h₁ => ?_⟩
  rcases found with _ | wf
  · trivial
  · simp only
    split
    · trivial
    · exact executeWorkflow_callSafe h₁.2 ((h₁.1.le rfl).seen.trans hseen)

/-- **Every call keeps to what any call may do.** -/
theorem Call.safe {w : World} {log : List Performed} (hprov : Provenance w log)
    {c : Call} (hheld : c.Held w) (hseen : v.seen = false) : CallSafe (c.code E) v := by
  cases c with
  | start ty wid tid input => exact startWorkflow_callSafe ty wid tid input
  | execute inst =>
    obtain ⟨stored, hstored, hsame⟩ := hheld
    have hinst : inst.workflowId ≠ inst.id.str := by
      rw [hsame.workflowId, hsame.id]
      exact hprov.fresh stored hstored
    simpa only [CallSafe, Call.code, safe_bind, safe_pure] using
      executeWorkflow_callSafe hinst hseen
  | resume wid tid => exact resumeWorkflow_callSafe wid tid hseen
  | cancel wid tid reason => exact cancelWorkflow_callSafe wid tid reason
  | status wid tid => exact ⟨trivial, fun _ _ _ => trivial⟩

end Calls

/-! ### Every interleaving keeps the provenance -/

/-- The executions in flight know of no result that has not been produced. -/
def Knows (log : List Performed) (v : View) : Prop :=
  v.seen = false ∧ ∀ i k d, v.produced i k d → Produced log i k d

theorem Knows.cons {log : List Performed} {v : View} (h : Knows log v)
    (e : Performed) : Knows (e :: log) v :=
  ⟨h.1, fun i k d hd => (h.2 i k d hd).cons e⟩

section Step

variable {b : Backend} {w w' : World} {log : List Performed} {v : View}

theorem Provenance.found (h : Provenance w log) {i : UUID} {key : String} {row : WorkflowStep}
    (hfind : w.MayFind b i key (some row)) (hdone : row.status = .completed) :
    ∃ d, row.output = .obj d ∧ Produced log i key d := by
  have hmem := hfind.mem
  simp only [World.stepsUnder, List.mem_filter, decide_eq_true_eq] at hmem
  obtain ⟨hrow, rfl, hkey⟩ := hmem
  obtain ⟨k, d, hk, hd, hp⟩ := h.rows row hrow hdone
  obtain rfl : key = k := Option.some_inj.mp (hkey.symm.trans hk)
  exact ⟨d, hd, hp⟩

theorem Provenance.answers {o : Op} {r : o.Resp} (h : Provenance w log)
    (hstep : Step b w o r w') :
    AnswersWell (Produced (⟨w, o, r⟩ :: log)) o r ∧ Genuine o r := by
  cases o with
  | uuid4 held => exact ⟨trivial, (step_uuid4.mp hstep).2.1⟩
  | getWorkflowByBusinessId wid tid =>
    obtain ⟨rfl, _⟩ := step_getWorkflowByBusinessId.mp hstep
    refine ⟨trivial, ?_⟩
    rcases hfound : w.getWorkflowByBusinessId wid tid with _ | wf
    · trivial
    · exact h.fresh wf (List.mem_of_find?_eq_some hfound)
  | saveWorkflow saved set =>
    have hsave := answersWell_of_step hstep
    cases r with
    | ok _ => exact ⟨trivial, trivial⟩
    | error e => exact ⟨hsave, trivial⟩
  | saveEvent event =>
    have hsave := answersWell_of_step hstep
    cases r with
    | ok _ => exact ⟨trivial, trivial⟩
    | error e => exact ⟨hsave, trivial⟩
  | getStepByIdempotencyKey i key =>
    refine ⟨?_, trivial⟩
    obtain ⟨hfind, _⟩ := step_getStepByIdempotencyKey.mp hstep
    rcases r with _ | row
    · trivial
    · intro hdone d hd
      obtain ⟨d', hd', hp⟩ := h.found hfind hdone
      obtain rfl : d' = d := by rw [hd] at hd'; cases hd'; rfl
      exact hp.cons _
  | _ => exact ⟨trivial, trivial⟩

/-- **One call keeps the provenance.** -/
theorem Provenance.step {o : Op} {r : o.Resp} (h : Provenance w log) (hv : Knows log v)
    (hallowed : CallAllowed v o) (hstep : Step b w o r w') :
    Provenance w' (⟨w, o, r⟩ :: log) := by
  have hrows : ∀ s ∈ w.steps, s.status = .completed → ∃ k d, s.idempotencyKey = some k ∧
      s.output = .obj d ∧ Produced (⟨w, o, r⟩ :: log) s.workflowInstanceId k d :=
    fun s hs hdone =>
      let ⟨k, d, hk, hd, hp⟩ := h.rows s hs hdone
      ⟨k, d, hk, hd, hp.cons _⟩
  have hframe := step_frame hstep
  have hcached (ho : ∀ caller wid k d, o ≠ .setStepResult caller wid k d)
      (hquiet : ∀ wid k, storedBy wid k (⟨w, o, r⟩ :: log) = storedBy wid k log) :
      ∀ wid k d, w'.cache wid k = some d →
        ∃ i, storedBy wid k (⟨w, o, r⟩ :: log) = some i ∧
          Produced (⟨w, o, r⟩ :: log) i k d := fun wid k d hd =>
    let ⟨i, hi, hp⟩ := h.cached wid k d (hframe.cache ho wid k d hd)
    ⟨i, (hquiet wid k).trans hi, hp.cons _⟩
  cases o with
  | saveWorkflow saved set =>
    refine ⟨fun wf hwf => ?_, ?_, ?_, hcached (by simp) fun _ _ => rfl⟩
    · obtain ⟨_, rfl⟩ := step_saveWorkflow.mp hstep
      rcases World.mem_saveWorkflow hwf with hs | ⟨old, hold, hs⟩
      · rw [hs.workflowId, hs.id]
        exact hallowed
      · rw [hs.workflowId, hs.id]
        exact h.fresh old hold
    · rw [hframe.events (by simp)]
      exact h.started
    · rw [hframe.steps (by simp)]
      exact hrows
  | saveEvent event =>
    refine ⟨?_, fun i e he hty => ?_, ?_, hcached (by simp) fun _ _ => rfl⟩
    · rw [hframe.workflows (by simp)]
      exact h.fresh
    · obtain ⟨_, rfl⟩ := step_saveEvent.mp hstep
      rcases World.mem_saveEvent he with rfl | he
      · exact hallowed hty
      · exact h.started i e he hty
    · rw [hframe.steps (by simp)]
      exact hrows
  | saveStep step =>
    obtain rfl := step_saveStep.mp hstep
    refine ⟨h.fresh, h.started, fun s hs hdone => ?_, hcached (by simp) fun _ _ => rfl⟩
    rcases mem_upsert hs with rfl | hs
    · obtain ⟨k, d, hk, hd, hp⟩ := hallowed hdone
      exact ⟨k, d, hk, hd, (hv.2 _ _ _ hp).cons _⟩
    · exact hrows s hs hdone
  | setStepResult caller wid k d =>
    obtain rfl := step_setStepResult.mp hstep
    refine ⟨h.fresh, h.started, hrows, fun wid' k' d' hd => ?_⟩
    rw [World.cache_setCache] at hd
    by_cases hkey : wid' = wid ∧ k' = k
    · obtain ⟨rfl, rfl⟩ := hkey
      rw [if_pos ⟨rfl, rfl⟩, Option.some_inj] at hd
      subst hd
      exact ⟨caller, by simp [storedBy], (hv.2 _ _ _ hallowed).cons _⟩
    · rw [if_neg hkey] at hd
      obtain ⟨i, hi, hp⟩ := h.cached wid' k' d' hd
      have hother : ¬ (wid = wid' ∧ k = k') := fun hne => hkey ⟨hne.1.symm, hne.2.symm⟩
      exact ⟨i, (if_neg hother).trans hi, hp.cons _⟩
  | _ =>
    refine ⟨?_, ?_, ?_, hcached (by simp) fun _ _ => rfl⟩
    · rw [hframe.workflows (by simp)]
      exact h.fresh
    · rw [hframe.events (by simp)]
      exact h.started
    · rw [hframe.steps (by simp)]
      exact hrows

end Step

/-- **Provenance holds in every interleaving.** -/
theorem Interleaving.provenance {E : DurableWorkflowExecutor} {b : Backend}
    {P : Pool Call Op Op.Resp PyExc Unit World} (hreach : Interleaving E b P) :
    Provenance P.state (P.log.map Prod.snd) := by
  refine (hreach.invariant (fun w log => Provenance w (log.map Prod.snd))
    (fun _ log _ p => ∃ v, Knows (log.map Prod.snd) v ∧ CallSafe p v) Provenance.empty (by simp)
    ?_ ?_ ?_).1
  · rintro s log l p hprov ⟨hheld, rfl⟩
    exact ⟨⟨false, fun _ _ _ => False⟩, ⟨rfl, fun _ _ _ h => h.elim⟩, l.safe hprov hheld rfl⟩
  · rintro s log l o k r s' hprov ⟨v, hv, hsafe⟩ hstep
    obtain ⟨hanswers, hgenuine⟩ := hprov.answers hstep
    refine ⟨hprov.step hv hsafe.1 hstep, ⟨false, Produced (⟨s, o, r⟩ :: log.map Prod.snd)⟩,
      ⟨rfl, fun _ _ _ h => h⟩, hsafe.2 r _ ⟨⟨?_, ?_, ?_, hanswers⟩, hgenuine⟩⟩
    · simp [hv.1]
    · exact fun i k d hd => (hv.2 i k d hd).cons _
    · exact fun i k d hd => ⟨_, List.mem_cons_self .., hd⟩
  · rintro s log l o k r s' l' p' _ _ _ ⟨v, hv, hsafe⟩
    exact ⟨v, hv.cons _, hsafe⟩

end EnhancedAgentBus.Persistence
