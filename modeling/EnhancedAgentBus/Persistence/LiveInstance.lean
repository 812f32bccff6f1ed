import EnhancedAgentBus.Persistence.Calls
import EnhancedAgentBus.Persistence.Discipline

/-!
# One live instance for each business id

`start_workflow`, `get_workflow_status`, `cancel_workflow` and `resume_workflow` all act on what
`get_workflow_by_business_id` returns, and in memory that is the *first* row stored under the
key.  `start_workflow` refuses to start a second instance only when that row is PENDING or
RUNNING.  So once a finished row is the first one, every further start adds a live instance that
no call can find again.

`findsLive_iff` is exact: along a run of calls every live instance is the only one of its key and
the one the lookup returns, if and only if no instance is started under a key whose first row is
finished.
-/

namespace EnhancedAgentBus.Persistence

open Async Async.Prog DurableWorkflowExecutor

def WorkflowInstance.Live (wf : WorkflowInstance) : Prop :=
  wf.status = .pending ∨ wf.status = .running

instance (wf : WorkflowInstance) : Decidable wf.Live :=
  inferInstanceAs (Decidable (_ ∨ _))

/-- One `(workflow_id, tenant_id)`. -/
def WorkflowInstance.SameKey (x y : WorkflowInstance) : Prop :=
  x.workflowId = y.workflowId ∧ x.tenantId = y.tenantId

def World.liveUnder (w : World) (workflowId tenantId : String) : List WorkflowInstance :=
  w.workflows.filter fun wf =>
    wf.workflowId = workflowId ∧ wf.tenantId = tenantId ∧ wf.Live

/-- **At most one live instance for each key, and the lookup returns it.** -/
structure FindsLive (w : World) : Prop where
  one : ∀ workflowId tenantId, (w.liveUnder workflowId tenantId).length ≤ 1
  found : ∀ wf ∈ w.workflows, wf.Live →
    w.getWorkflowByBusinessId wf.workflowId wf.tenantId = some wf

/-- The first row stored under a key, when it is finished. -/
def World.FirstFinished (w : World) (workflowId tenantId : String) : Prop :=
  ∃ old, w.getWorkflowByBusinessId workflowId tenantId = some old ∧ ¬ old.Live

/-- A call that starts an instance under a key whose first row is finished. -/
def Call.RestartsFinished (E : DurableWorkflowExecutor) (w : World) : Call → Prop
  | start ty wid tid _ => (E.workflows ty).isSome ∧ w.FirstFinished wid tid
  | _ => False

/-! ## The invariant -/

/-- One row for each key, and every row has a drawn identifier. -/
structure Tidy (w : World) : Prop where
  keys : w.workflows.Pairwise fun x y => ¬ x.SameKey y
  drawn : ∀ wf ∈ w.workflows, wf.id ∈ w.drawn

theorem Tidy.empty : Tidy {} := ⟨List.Pairwise.nil, by simp⟩

theorem getWorkflowByBusinessId_none {w : World} {wid tid : String}
    (h : w.getWorkflowByBusinessId wid tid = none) {wf : WorkflowInstance}
    (hwf : wf ∈ w.workflows) : ¬ (wf.workflowId = wid ∧ wf.tenantId = tid) := by
  have hnot := List.find?_eq_none.mp h wf hwf
  simpa using hnot

theorem find?_key_of_pairwise {rows : List WorkflowInstance} {wf : WorkflowInstance}
    (hkeys : rows.Pairwise fun x y => ¬ x.SameKey y) (hwf : wf ∈ rows) :
    rows.find? (fun x => x.workflowId = wf.workflowId ∧ x.tenantId = wf.tenantId) = some wf := by
  induction rows with
  | nil => cases hwf
  | cons x rows ih =>
    rcases List.mem_cons.mp hwf with rfl | hwf
    · simp
    · have hx : ¬ (x.workflowId = wf.workflowId ∧ x.tenantId = wf.tenantId) :=
        List.rel_of_pairwise_cons hkeys hwf
      rw [List.find?_cons_of_neg (by simpa using hx)]
      exact ih (List.Pairwise.of_cons hkeys) hwf

theorem Tidy.found {w : World} (h : Tidy w) {wf : WorkflowInstance} (hwf : wf ∈ w.workflows) :
    w.getWorkflowByBusinessId wf.workflowId wf.tenantId = some wf :=
  find?_key_of_pairwise h.keys hwf

theorem Tidy.findsLive {w : World} (h : Tidy w) : FindsLive w := by
  refine ⟨fun wid tid => ?_, fun wf hwf _ => h.found hwf⟩
  have hpair : (w.liveUnder wid tid).Pairwise fun x y => ¬ x.SameKey y := h.keys.filter _
  rcases hlive : w.liveUnder wid tid with _ | ⟨x, rest⟩
  · simp
  · rcases rest with _ | ⟨y, rest⟩
    · simp
    · have hx : x ∈ w.liveUnder wid tid := by rw [hlive]; simp
      have hy : y ∈ w.liveUnder wid tid := by rw [hlive]; simp
      simp only [World.liveUnder, List.mem_filter, decide_eq_true_eq] at hx hy
      rw [hlive] at hpair
      exact absurd ⟨hx.2.1.trans hy.2.1.symm, hx.2.2.1.trans hy.2.2.1.symm⟩
        (List.rel_of_pairwise_cons hpair (List.mem_cons_self ..))

/-- What keeps one row for each key: an instance is saved over its own row, or under a key no
row has. -/
def KeepsKeys (w : World) : Op → Prop
  | .saveWorkflow inst _ =>
    (w.getWorkflow inst.id).isSome ∨
      (w.getWorkflowByBusinessId inst.workflowId inst.tenantId = none ∧ inst.id ∈ w.drawn)
  | _ => True

/-- **One call keeps the world tidy.** -/
theorem Tidy.step {b : Backend} {w w' : World} {o : Op} {r : o.Resp} (h : Tidy w)
    (hkeeps : KeepsKeys w o) (hstep : Step b w o r w') : Tidy w' := by
  by_cases hsave : ∃ inst set, o = .saveWorkflow inst set
  · obtain ⟨inst, set, rfl⟩ := hsave
    obtain ⟨_, rfl⟩ := step_saveWorkflow.mp hstep
    unfold World.saveWorkflow
    split_ifs with hstored
    · refine ⟨?_, fun wf hwf => ?_⟩
      · refine List.pairwise_map.mpr (h.keys.imp fun {x y} hxy hkey => hxy ?_)
        have hsame (z : WorkflowInstance) :
            (if z.id = inst.id then World.mergeWorkflow b set z inst else z).SameRun z := by
          split
          · exact World.mergeWorkflow_sameRun
          · exact .refl z
        exact ⟨(hsame x).workflowId ▸ (hsame y).workflowId ▸ hkey.1,
          (hsame x).tenantId ▸ (hsame y).tenantId ▸ hkey.2⟩
      · obtain ⟨old, hold, rfl⟩ := List.mem_map.mp hwf
        split
        · rw [World.mergeWorkflow_sameRun.id]
          exact h.drawn old hold
        · exact h.drawn old hold
    · exact h
    · obtain ⟨hnone, hdrawn⟩ := hkeeps.resolve_left hstored
      refine ⟨?_, fun wf hwf => ?_⟩
      · refine List.pairwise_append.mpr ⟨h.keys, List.pairwise_singleton _ _, ?_⟩
        intro x hx y hy hkey
        obtain rfl := List.mem_singleton.mp hy
        exact getWorkflowByBusinessId_none hnone hx hkey
      · rcases List.mem_append.mp hwf with hwf | hwf
        · exact h.drawn wf hwf
        · obtain rfl := List.mem_singleton.mp hwf
          exact hdrawn
  · have hrows := (step_frame hstep).workflows fun inst set heq => hsave ⟨inst, set, heq⟩
    exact ⟨hrows ▸ h.keys, fun wf hwf => (step_frame hstep).drawn _ (h.drawn wf (hrows ▸ hwf))⟩

/-! ## Every call keeps to it -/

section Calls

variable {E : DurableWorkflowExecutor} {b : Backend} {w w' : World}

def Stored (w : World) (inst : WorkflowInstance) : Prop := (w.getWorkflow inst.id).isSome

theorem stored_iff {inst : WorkflowInstance} :
    Stored w inst ↔ ∃ wf ∈ w.workflows, wf.id = inst.id := by
  simp [Stored, World.getWorkflow]

theorem Stored.step {inst : WorkflowInstance} {o : Op} {r : o.Resp} (h : Stored w inst)
    (hstep : Step b w o r w') : Stored w' inst := by
  obtain ⟨wf, hwf, hid⟩ := stored_iff.mp h
  refine stored_iff.mpr ?_
  by_cases hsave : ∃ saved set, o = .saveWorkflow saved set
  · obtain ⟨saved, set, rfl⟩ := hsave
    obtain ⟨_, rfl⟩ := step_saveWorkflow.mp hstep
    unfold World.saveWorkflow
    split_ifs
    · refine ⟨_, List.mem_map.mpr ⟨wf, hwf, rfl⟩, ?_⟩
      split
      · rw [World.mergeWorkflow_sameRun.id, hid]
      · exact hid
    · exact ⟨wf, hwf, hid⟩
    · exact ⟨wf, List.mem_append_left _ hwf, hid⟩
  · have hrows := (step_frame hstep).workflows fun saved set heq => hsave ⟨saved, set, heq⟩
    exact ⟨wf, hrows.symm ▸ hwf, hid⟩

theorem executeWorkflow_keepsKeys {inst : WorkflowInstance} (hinst : Stored w inst) :
    Safe (Step b) KeepsKeys (E.executeWorkflow inst) w (fun _ _ => True) (fun _ _ => True) := by
  have hdisc : Disciplined inst false (E.executeWorkflow inst) ⟨false, fun _ _ _ => True⟩
      (fun _ _ => True) (fun _ _ => True) :=
    executeWorkflow_disciplined (fun h => by cases h) rfl
  refine (Safe.simulate (R := fun s v => Stored s inst ∧ v = ⟨false, fun _ _ _ => True⟩)
    ?_ ?_ ⟨hinst, rfl⟩ hdisc).mono (fun _ _ _ => trivial) (fun _ _ _ => trivial)
  · rintro s v o ⟨hs, rfl⟩ hallowed
    cases o with
    | saveWorkflow saved set => exact .inl (by rw [hallowed.1.id]; exact hs)
    | _ => trivial
  · rintro s v o r s' ⟨hs, rfl⟩ hallowed hstep
    refine ⟨_, ⟨?_, fun _ _ _ h => h, fun _ _ _ _ => trivial, answersWell_of_step hstep⟩,
      hs.step hstep, rfl⟩
    simp

theorem stored_of_found {wid tid : String} {wf : WorkflowInstance}
    (h : w.getWorkflowByBusinessId wid tid = some wf) : Stored w wf :=
  stored_iff.mpr ⟨wf, List.mem_of_find?_eq_some h, rfl⟩

theorem orRaise_safe {pre : World → Op → Prop} {α : Type} (r : Except PyExc α)
    {Q : α → World → Prop} (hQ : ∀ a, Q a w) :
    Safe (Step b) pre (orRaise r) w Q (fun _ _ => True) := by
  cases r with
  | ok a => exact hQ a
  | error e => trivial

/-- **Every call keeps one row for each key**, unless it starts under a finished one. -/
theorem Call.keepsKeys {c : Call} (hheld : c.Held w) (hnot : ¬ c.RestartsFinished E w) :
    Safe (Step b) KeepsKeys (c.code E) w (fun _ _ => True) (fun _ _ => True) := by
  cases c with
  | start ty wid tid input =>
    simp only [Call.code, startWorkflow, safe_bind]
    split
    · trivial
    rename_i hreg
    simp only [safe_bind, safe_perform, step_getWorkflowByBusinessId]
    refine ⟨trivial, ?_⟩
    rintro existing w ⟨rfl, rfl⟩
    cases hfilter : (w.getWorkflowByBusinessId wid tid).filter fun wf =>
        wf.status = .pending ∨ wf.status = .running with
    | some wf => trivial
    | none =>
      have hnone : w.getWorkflowByBusinessId wid tid = none := by
        rcases hfound : w.getWorkflowByBusinessId wid tid with _ | old
        · rfl
        · refine absurd ⟨?_, old, hfound, fun hlive => ?_⟩ hnot
          · rcases hty : E.workflows ty with _ | func
            · simp [hty] at hreg
            · rfl
          · rw [hfound, Option.filter_some, if_pos (by simpa [WorkflowInstance.Live] using hlive)] at hfilter
            cases hfilter
      simp only [safe_bind, safe_perform, assignAndSave, recordEvent]
      refine ⟨trivial, fun id w₁ h₁ => ?_⟩
      obtain ⟨_, _, rfl⟩ := step_uuid4.mp h₁
      refine ⟨.inr ⟨hnone, List.mem_cons_self ..⟩, fun r w₂ _ => orRaise_safe r fun _ => ?_⟩
      exact ⟨trivial, fun n w₃ _ => ⟨trivial, fun r w₄ _ => orRaise_safe r fun _ => trivial⟩⟩
  | execute inst =>
    obtain ⟨stored, hstored, hsame⟩ := hheld
    simpa only [Call.code, safe_bind, safe_pure] using
      executeWorkflow_keepsKeys (stored_iff.mpr ⟨stored, hstored, hsame.id.symm⟩)
  | resume wid tid =>
    simp only [Call.code, resumeWorkflow, safe_bind, safe_perform,
      step_getWorkflowByBusinessId]
    refine ⟨trivial, ?_⟩
    rintro found w ⟨rfl, rfl⟩
    rcases hfound : w.getWorkflowByBusinessId wid tid with _ | wf
    · trivial
    · simp only
      split
      · trivial
      · exact executeWorkflow_keepsKeys (stored_of_found hfound)
  | cancel wid tid reason =>
    simp only [Call.code, cancelWorkflow, safe_bind, safe_perform,
      step_getWorkflowByBusinessId]
    refine ⟨trivial, ?_⟩
    rintro found w ⟨rfl, rfl⟩
    rcases hfound : w.getWorkflowByBusinessId wid tid with _ | wf
    · trivial
    · simp only
      split
      · trivial
      simp only [safe_bind, safe_perform, assignAndSave, recordEvent]
      refine ⟨.inl (stored_of_found hfound), fun r w₁ _ => orRaise_safe r fun _ => ?_⟩
      exact ⟨trivial, fun n w₂ _ => ⟨trivial, fun r w₃ _ => orRaise_safe r fun _ => trivial⟩⟩
  | status wid tid => exact ⟨trivial, fun _ _ _ => trivial⟩

theorem start_restartsFinished {ty wid tid : String} {input : Option JSONDict}
    (htidy : Tidy w) (hrestarts : (Call.start ty wid tid input).RestartsFinished E w) :
    Safe (Step .inMemory) (fun _ _ => True) (Call.code E (.start ty wid tid input)) w
      (fun _ s => ¬ FindsLive s) (fun _ s => ¬ FindsLive s) := by
  obtain ⟨hreg, old, hold, hdone⟩ := hrestarts
  have hfilter : (w.getWorkflowByBusinessId wid tid).filter (fun wf =>
      wf.status = .pending ∨ wf.status = .running) = none := by
    rw [hold, Option.filter_some, if_neg (by simpa [WorkflowInstance.Live] using hdone)]
  simp only [Call.code, startWorkflow, safe_bind]
  rw [if_neg (by simpa using Option.isSome_iff_ne_none.mp hreg)]
  simp only [safe_bind, safe_perform, step_getWorkflowByBusinessId]
  refine ⟨trivial, ?_⟩
  rintro existing w ⟨rfl, rfl⟩
  simp only [hfilter, safe_bind, safe_perform, assignAndSave, recordEvent]
  refine ⟨trivial, fun id w₁ h₁ => ⟨trivial, fun r w₂ h₂ => ?_⟩⟩
  obtain ⟨hid, _, rfl⟩ := step_uuid4.mp h₁
  obtain ⟨rfl, rfl⟩ := step_saveWorkflow.mp h₂
  -- The new identifier has no row yet, so the instance is appended
  have hnone : World.getWorkflow { w with drawn := id :: w.drawn } id = none := by
    refine List.find?_eq_none.mpr fun wf hwf hwfid => hid ?_
    rw [← decide_eq_true_eq.mp hwfid]
    exact htidy.drawn wf hwf
  simp only [World.saveWorkflow, hnone, Option.isSome_none, Bool.false_eq_true, if_false,
    reduceCtorEq, false_and, orRaise, safe_pure]
  refine ⟨trivial, fun n w₃ h₃ => ⟨trivial, fun r w₄ h₄ => ?_⟩⟩
  obtain ⟨_, rfl⟩ := step_getNextSequence.mp h₃
  have hrows := (step_frame h₄).workflows (by simp)
  have hlookup : w₄.getWorkflowByBusinessId wid tid = some old := by
    rw [World.getWorkflowByBusinessId, hrows, List.find?_append]
    exact congrArg (fun first => Option.or first _) hold
  have hmiss : ¬ FindsLive w₄ := by
    intro hlive
    have hnew := hlive.found _
      (by rw [hrows]; exact List.mem_append_right _ (List.mem_singleton.mpr rfl)) (.inl rfl)
    exact hdone (Option.some_inj.mp (hlookup.symm.trans hnew) ▸ .inl rfl)
  cases r with
  | ok _ => exact hmiss
  | error e => exact hmiss

end Calls

/-! ## Whole runs -/

def Visited (made : List Made) (s : World × List Performed) (w : World) : Prop :=
  w = s.1 ∨ (∃ e ∈ s.2, w = e.before) ∨ ∃ m ∈ made, w = m.world

/-- **Tidy all along.**  By induction on the calls made, none of which starts under a finished
row. -/
theorem Serial.tidy {E : DurableWorkflowExecutor} {b : Backend} {made : List Made}
    {s : World × List Performed} (hrun : Serial E b made s)
    (hnot : ∀ m ∈ made, ¬ m.call.RestartsFinished E m.world) :
    ∀ w, Visited made s w → Tidy w := by
  induction hrun with
  | nil =>
    rintro w (rfl | ⟨e, he, _⟩ | ⟨m, hm, _⟩)
    · exact Tidy.empty
    · cases he
    · cases hm
  | @call made s s' c out _ hheld hexec ih =>
    have hbefore := ih fun m hm => hnot m (List.mem_cons_of_mem _ hm)
    have hsafe := (Call.keepsKeys (b := b) hheld (hnot _ (List.mem_cons_self ..))).traced s.2
    have hafter : Tidy s'.1 ∧ ∀ e ∈ s'.2, Tidy e.before := by
      refine hexec.invariant (I := fun t => Tidy t.1 ∧ ∀ e ∈ t.2, Tidy e.before) ?_ ?_ hsafe
      · rintro t o r t' ⟨htidy, hlog⟩ hpre ⟨hstep, hlog'⟩
        refine ⟨htidy.step hpre hstep, fun e he => ?_⟩
        rw [hlog'] at he
        rcases List.mem_cons.mp he with rfl | he
        · exact htidy
        · exact hlog e he
      · exact ⟨hbefore _ (.inl rfl), fun e he => hbefore _ (.inr (.inl ⟨e, he, rfl⟩))⟩
    rintro w (rfl | ⟨e, he, rfl⟩ | ⟨m, hm, rfl⟩)
    · exact hafter.1
    · exact hafter.2 e he
    · rcases List.mem_cons.mp hm with rfl | hm
      · exact hbefore _ (.inl rfl)
      · exact hbefore _ (.inr (.inr ⟨m, hm, rfl⟩))

/-- An order is started, cancelled, and started twice more. -/
def restartedRun : List Made × World × List Performed :=
  serveAll greeter .inMemory
    [(.start "greet" "order-7" "acme" none, calm), (.start "greet" "order-7" "acme" none, calm),
      (.cancel "order-7" "acme" "changed my mind", calm),
      (.start "greet" "order-7" "acme" none, calm)]

theorem restartedRun_serial : Serial greeter .inMemory restartedRun.1 restartedRun.2 :=
  .serveAll rfl

theorem restartedRun_ended : ∀ m ∈ restartedRun.1, m.ended = true :=
  List.all_eq_true.mp (by decide)

/-- Two instances are PENDING, and no call can find either. -/
theorem restartedRun_missesLive :
    Serial greeter .inMemory restartedRun.1 restartedRun.2 ∧
      (∀ m ∈ restartedRun.1, m.ended = true) ∧
      (restartedRun.2.1.liveUnder "order-7" "acme").length = 2 ∧
      (restartedRun.2.1.getWorkflowByBusinessId "order-7" "acme").map (·.status) =
        some .cancelled ∧
      ¬ FindsLive restartedRun.2.1 := by
  have htwo : (restartedRun.2.1.liveUnder "order-7" "acme").length = 2 := by decide
  refine ⟨restartedRun_serial, restartedRun_ended, htwo, by decide, fun h => ?_⟩
  have hone := h.one "order-7" "acme"
  rw [htwo] at hone
  cases hone with
  | step hone => cases hone

/-- **One live instance for each business id, exactly.**  In memory, along any run of completed
calls, every live instance is the only one of its key and the one the calls act on, if and only
if no call starts an instance under a key whose first row is finished. -/
theorem findsLive_iff (E : DurableWorkflowExecutor) (made : List Made)
    (s : World × List Performed) (hrun : Serial E .inMemory made s)
    (hended : ∀ m ∈ made, m.ended = true) :
    (∀ w, Visited made s w → FindsLive w) ↔
      ∀ m ∈ made, ¬ m.call.RestartsFinished E m.world := by
  constructor
  · intro hlive
    induction hrun with
    | nil => simp
    | @call made s s' c out hrun hheld hexec ih =>
      have hvisited {w : World} (hw : Visited made s w) :
          Visited (⟨s.1, c, out.ended⟩ :: made) s' w := by
        rcases hw with rfl | ⟨e, he, rfl⟩ | ⟨m, hm, rfl⟩
        · exact .inr (.inr ⟨_, List.mem_cons_self .., rfl⟩)
        · exact .inr (.inl ⟨e, hexec.log_mono.subset he, rfl⟩)
        · exact .inr (.inr ⟨m, List.mem_cons_of_mem _ hm, rfl⟩)
      have hearlier := ih (fun m hm => hended m (List.mem_cons_of_mem _ hm))
        fun w hw => hlive w (hvisited hw)
      intro m hm
      rcases List.mem_cons.mp hm with rfl | hm
      · intro hrestarts
        cases c with
        | start ty wid tid input =>
          have hmiss := (start_restartsFinished (hrun.tidy hearlier _ (.inl rfl))
            hrestarts).traced s.2
          refine absurd (hlive _ (.inl rfl)) ?_
          cases out with
          | stopped => exact absurd (hended _ (List.mem_cons_self ..)) (by simp [Outcome.ended])
          | returned a => exact hexec.returned hmiss
          | raised e => exact hexec.raised hmiss
        | _ => exact hrestarts
      · exact hearlier m hm
  · exact fun hnot w hw => (hrun.tidy hnot w hw).findsLive

/-- The theorem at the run of the restarted order. -/
theorem findsLive_iff_restarted :
    (∀ w, Visited restartedRun.1 restartedRun.2 w → FindsLive w) ↔
      ∀ m ∈ restartedRun.1, ¬ m.call.RestartsFinished greeter m.world :=
  findsLive_iff greeter restartedRun.1 restartedRun.2 restartedRun_serial restartedRun_ended

end EnhancedAgentBus.Persistence
