import EnhancedAgentBus.Persistence.Provenance
import EnhancedAgentBus.Persistence.Replay

/-!
# Replay against the saved instance

`start_workflow` records a `WORKFLOW_STARTED` event with the workflow type and the input, and
the replay engine reads the business id from that event too.  It is never there, so a replayed
instance carries the text of its own identifier instead (`reconstruct_workflowId`), which no
saved instance does: the identifier is drawn after the business id is given.  Hence no replay
ever rebuilds the saved instance, in any state of any run (`replay_never_rebuilds`).
-/

namespace EnhancedAgentBus.Persistence

open Async DurableWorkflowExecutor

/-- Replaying an instance gives back what is saved of it. -/
def Rebuilds (constitutionalHash : String) (b : Backend) (w : World)
    (saved : WorkflowInstance) : Prop :=
  ∃ wf, ReplayEngine.replayWorkflow constitutionalHash b w saved.id = .ok wf ∧
    wf.workflowType = saved.workflowType ∧ wf.workflowId = saved.workflowId ∧
    wf.tenantId = saved.tenantId ∧ wf.input = saved.input ∧ wf.status = saved.status ∧
    wf.output = saved.output ∧ wf.error = saved.error

namespace ReplayEngine

variable {constitutionalHash : String} {id : UUID}

def NoBusinessId (events : List WorkflowEvent) : Prop :=
  ∀ e ∈ events, e.eventType = .workflowStarted → Json.lookup "workflow_id" e.eventData = none

theorem startedInstance_workflowId {data : JSONDict} {wf : WorkflowInstance}
    (hdata : Json.lookup "workflow_id" data = none)
    (h : startedInstance constitutionalHash id data = .ok wf) : wf.workflowId = id.str := by
  have hid : strField data "workflow_id" id.str = .ok id.str := by rw [strField, hdata]
  rw [startedInstance, hid] at h
  rcases hty : strField data "workflow_type" "" with e | ty
  · rw [hty] at h; cases h
  · rcases htid : strField data "tenant_id" "default" with e | tid
    · rw [hty, htid] at h; cases h
    · rcases hin : dictField data "input" with e | input
      · rw [hty, htid, hin] at h; cases h
      · rw [hty, htid, hin] at h; cases h; rfl

theorem applyEvent_workflowId {inst inst' : Option WorkflowInstance} {e : WorkflowEvent}
    (he : e.eventType = .workflowStarted → Json.lookup "workflow_id" e.eventData = none)
    (hinst : ∀ wf ∈ inst, wf.workflowId = id.str)
    (h : applyEvent constitutionalHash id inst e = .ok inst') :
    ∀ wf ∈ inst', wf.workflowId = id.str := by
  have hmap (f : WorkflowInstance → WorkflowInstance) (hf : ∀ wf, (f wf).workflowId = wf.workflowId) :
      ∀ wf ∈ inst.map f, wf.workflowId = id.str := by
    intro wf hwf
    obtain ⟨old, hold, rfl⟩ := Option.map_eq_some_iff.mp hwf
    rw [hf]
    exact hinst old hold
  unfold applyEvent at h
  split at h
  · rename_i hty
    rcases hstart : startedInstance constitutionalHash id e.eventData with err | wf
    · rw [hstart] at h; cases h
    · rw [hstart] at h
      cases h
      rintro _ ⟨rfl⟩
      exact startedInstance_workflowId (he hty) hstart
  · cases h; exact hmap _ fun _ => rfl
  · cases h; exact hmap _ fun _ => rfl
  · cases h; exact hmap _ fun _ => rfl
  · cases h; exact hinst

theorem foldlM_applyEvent_workflowId {events : List WorkflowEvent} (hev : NoBusinessId events) :
    ∀ {inst inst' : Option WorkflowInstance}, (∀ wf ∈ inst, wf.workflowId = id.str) →
      events.foldlM (applyEvent constitutionalHash id) inst = .ok inst' →
        ∀ wf ∈ inst', wf.workflowId = id.str := by
  induction events with
  | nil =>
    rintro inst inst' hinst ⟨rfl⟩
    exact hinst
  | cons e events ih =>
    intro inst inst' hinst h
    rw [List.foldlM_cons] at h
    rcases happ : applyEvent constitutionalHash id inst e with err | next
    · rw [happ] at h; cases h
    · rw [happ] at h
      refine ih (fun e' he' => hev e' (List.mem_cons_of_mem _ he')) ?_ h
      exact applyEvent_workflowId (hev e (List.mem_cons_self ..)) hinst happ

theorem reconstruct_workflowId {events : List WorkflowEvent} (hev : NoBusinessId events)
    {wf : WorkflowInstance}
    (h : reconstructFromEvents constitutionalHash id events = .ok wf) :
    wf.workflowId = id.str := by
  unfold reconstructFromEvents at h
  rcases hfold : events.foldlM (applyEvent constitutionalHash id) none with err | inst
  · rw [hfold] at h; cases h
  · have hinst := foldlM_applyEvent_workflowId hev (by simp) hfold
    rw [hfold] at h
    rcases inst with _ | found
    · cases h
    · cases h; exact hinst _ rfl

end ReplayEngine

theorem getEvents_subset {b : Backend} {w : World} {i : UUID} {e : WorkflowEvent}
    (h : e ∈ w.getEvents b i) : e ∈ w.events i := by
  cases b with
  | inMemory => exact (List.mem_insertionSort _).mp h
  | postgres => exact (List.mem_insertionSort _).mp (List.mem_of_mem_take h)

theorem eventsUpTo_subset {n : Option ℕ} {events : List WorkflowEvent} {e : WorkflowEvent}
    (h : e ∈ ReplayEngine.eventsUpTo n events) : e ∈ events := by
  unfold ReplayEngine.eventsUpTo at h
  split at h
  · exact List.mem_of_mem_filter h
  · exact h

/-- An order is started, then resumed to its end. -/
def greeterRun : Pool Call Op Op.Resp PyExc Unit World :=
  goOn .inMemory (fun _ => .ok .null) 0 10 <|
    makeCall greeter (.resume "order-7" "acme") <|
      goOn .inMemory (fun _ => .ok .null) 0 10 <|
        makeCall greeter (.start "greet" "order-7" "acme" none) ⟨[], {}, []⟩

theorem greeterRun_reach : Interleaving greeter .inMemory greeterRun := by
  refine Interleaving.goOn (Interleaving.makeCall (Interleaving.goOn
    (Interleaving.makeCall .init ?_)) ?_)
  · exact trivial
  · exact trivial

/-- At the end of the run the instance is saved under "order-7", and replayed under its own
identifier. -/
theorem greeterRun_not_rebuilt :
    Interleaving greeter .inMemory greeterRun ∧ greeterRun.Quiescent ∧
      ∃ saved ∈ greeterRun.state.workflows,
        ¬ Rebuilds greeter.constitutionalHash .inMemory greeterRun.state saved := by
  refine ⟨greeterRun_reach, rfl, _, List.mem_cons_self .., ?_⟩
  rintro ⟨wf, hreplay, _, hwid, _⟩
  cases hreplay
  revert hwid
  decide

/-- **Replay never equals execution.**  In every state that any interleaving of calls reaches,
on both repositories, replaying a saved instance does not give it back. -/
theorem replay_never_rebuilds (E : DurableWorkflowExecutor) (b : Backend)
    (constitutionalHash : String) (P : Pool Call Op Op.Resp PyExc Unit World)
    (hreach : Interleaving E b P) :
    ∀ saved ∈ P.state.workflows, ¬ Rebuilds constitutionalHash b P.state saved := by
  rintro saved hsaved ⟨wf, hreplay, _, hwid, _⟩
  have hprov := hreach.provenance
  refine hprov.fresh saved hsaved (hwid.symm.trans ?_)
  simp only [ReplayEngine.replayWorkflow] at hreplay
  split at hreplay
  · cases hreplay
  · refine ReplayEngine.reconstruct_workflowId (fun e he => ?_) hreplay
    exact hprov.started saved.id e (getEvents_subset (eventsUpTo_subset he))

/-- The theorem at a run of one instance. -/
theorem replay_never_rebuilds_greeter :
    ∃ saved ∈ greeterRun.state.workflows,
      ¬ Rebuilds greeter.constitutionalHash .inMemory greeterRun.state saved :=
  ⟨_, List.mem_cons_self ..,
    replay_never_rebuilds greeter .inMemory _ greeterRun greeterRun_reach _
      (List.mem_cons_self ..)⟩

end EnhancedAgentBus.Persistence
