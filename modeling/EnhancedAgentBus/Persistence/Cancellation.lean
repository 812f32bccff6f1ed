import EnhancedAgentBus.Persistence.Calls
import EnhancedAgentBus.Persistence.Discipline

/-!
# Cancellation against a running execution

`cancel_workflow` persists CANCELLED at any await of a running execution.  The execution looks
at the persisted status around each activity attempt and nowhere else: the final writes are made
without reading it again.

* An execution that has *read* the cancellation writes no other outcome
  (`executeWorkflow_disciplined`).
* A cancellation it has not read — persisted after its last status check, or overwritten by its
  own first write — is overwritten by the outcome.

`finalCancel_iff_watched` is the exact statement for a race of one execution with any number of
cancellations.  Afterwards, `resume_workflow` leaves a terminal instance alone and
`execute_workflow` never does, unless it refuses the instance.
-/

namespace EnhancedAgentBus.Persistence

open Async Async.Prog DurableWorkflowExecutor

/-! ## The persisted status -/

def World.statusOf (w : World) (i : UUID) : Option WorkflowStatus :=
  (w.getWorkflow i).map (·.status)

section Status

variable {b : Backend} {w w' : World} {inst : WorkflowInstance} {set : Assigned} {i : UUID}

theorem mergeWorkflow_status {old : WorkflowInstance} :
    (World.mergeWorkflow b set old inst).status = set.status := by
  cases b <;> rfl

theorem find?_map_id {rows : List WorkflowInstance} {f : WorkflowInstance → WorkflowInstance}
    (hf : ∀ wf, (f wf).id = wf.id) :
    (rows.map f).find? (fun wf => wf.id = i) = (rows.find? fun wf => wf.id = i).map f := by
  rw [List.find?_map]
  congr 2
  funext wf
  simp [hf]

theorem statusOf_saveWorkflow_self (hok : (w.saveWorkflow b inst set).1 = .ok ()) :
    (w.saveWorkflow b inst set).2.statusOf inst.id = some set.status := by
  unfold World.saveWorkflow at hok ⊢
  split_ifs at hok ⊢ with hstored hdup
  · obtain ⟨old, hold⟩ := Option.isSome_iff_exists.mp hstored
    have hid : old.id = inst.id := by simpa using List.find?_some hold
    rw [World.statusOf, World.getWorkflow, find?_map_id]
    · rw [World.getWorkflow] at hold
      simp [hold, hid, mergeWorkflow_status]
    · intro wf
      split
      · exact World.mergeWorkflow_sameRun.id
      · rfl
  · have hnone : w.workflows.find? (fun wf => wf.id = inst.id) = none := by
      simpa [World.getWorkflow] using hstored
    simp [World.statusOf, World.getWorkflow, List.find?_append, hnone]

theorem statusOf_saveWorkflow_other (hi : inst.id ≠ i) :
    (w.saveWorkflow b inst set).2.statusOf i = w.statusOf i := by
  unfold World.saveWorkflow
  split_ifs
  · rw [World.statusOf, World.statusOf, World.getWorkflow, World.getWorkflow, find?_map_id]
    · cases hfound : w.workflows.find? (fun wf => wf.id = i) with
      | none => rfl
      | some old =>
        have hid : old.id = i := by simpa using List.find?_some hfound
        simp [hid, Ne.symm hi]
    · intro wf
      split
      · exact World.mergeWorkflow_sameRun.id
      · rfl
  · rfl
  · simp [World.statusOf, World.getWorkflow, List.find?_append, hi]

theorem saveWorkflow_error {e : PyExc} (herr : (w.saveWorkflow b inst set).1 = .error e) :
    (w.saveWorkflow b inst set).2 = w := by
  unfold World.saveWorkflow at herr ⊢
  split_ifs at herr ⊢
  rfl

end Status

/-! ## What is written to one instance -/

/-- A status with a property is persisted for the instance. -/
def Persists (i : UUID) (p : WorkflowStatus → Bool) : (o : Op) → o.Resp → Bool
  | .saveWorkflow inst set, .ok _ => decide (inst.id = i) && p set.status
  | _, _ => false

def Checks (i : UUID) : Op → Bool
  | .getWorkflow id => decide (id = i)
  | _ => false

def CancelledIn (i : UUID) : List (Call × Performed) → Prop
  | [] => False
  | (_, e) :: before => Persists i (· == .cancelled) e.op e.resp = true ∨ CancelledIn i before

/-- CANCELLED was overwritten by a live status: the RUNNING an execution begins with. -/
def Overrun (i : UUID) : List (Call × Performed) → Prop
  | [] => False
  | (_, e) :: before =>
    (Persists i WorkflowStatus.isLive e.op e.resp = true ∧ CancelledIn i before) ∨ Overrun i before

/-- CANCELLED was persisted after the last status check. -/
def Unchecked (i : UUID) : List (Call × Performed) → Prop
  | [] => False
  | (_, e) :: before =>
    Persists i (· == .cancelled) e.op e.resp = true ∨ (Checks i e.op = false ∧ Unchecked i before)

/-- **No outcome after a cancellation**: no COMPLETED, FAILED, COMPENSATING or COMPENSATED is
persisted once CANCELLED was. -/
def FinalCancel (i : UUID) : List (Call × Performed) → Prop :=
  Throughout fun
    | [] => True
    | (_, e) :: before =>
      Persists i WorkflowStatus.isOutcome e.op e.resp = true → ¬ CancelledIn i before

/-- A status check has read the CANCELLED that was persisted. -/
def ReadBack (i : UUID) : List (Call × Performed) → Prop
  | [] => False
  | (_, e) :: before =>
    (Checks i e.op = true ∧ readsCancelled e.op e.resp = true ∧ CancelledIn i before) ∨
      ReadBack i before

/-- Before every outcome, every CANCELLED persisted so far has been followed by a status check,
none was overwritten by RUNNING, and one that was read went through the workflow function. -/
def Watched (lets : Prop) (i : UUID) : List (Call × Performed) → Prop :=
  Throughout fun
    | [] => True
    | (_, e) :: before =>
      Persists i WorkflowStatus.isOutcome e.op e.resp = true →
        ¬ Overrun i before ∧ ¬ Unchecked i before ∧ (lets ∨ ¬ ReadBack i before)

section Writes

variable {i : UUID} {log : List (Call × Performed)}

theorem persists_status {status : WorkflowStatus} {o : Op} {r : o.Resp}
    (h : Persists i (· == status) o r = true) :
    ∃ inst set, o = .saveWorkflow inst set ∧ inst.id = i ∧ set.status = status := by
  cases o with
  | saveWorkflow inst set =>
    cases r with
    | error e => cases h
    | ok _ => exact ⟨inst, set, rfl, by simpa [Persists] using h⟩
  | _ => cases h

theorem cancelledIn_of_unchecked (h : Unchecked i log) : CancelledIn i log := by
  induction log with
  | nil => exact h
  | cons ce before ih =>
    rcases h with h | ⟨_, h⟩
    · exact .inl h
    · exact .inr (ih h)

theorem cancelledIn_of_readBack (h : ReadBack i log) : CancelledIn i log := by
  induction log with
  | nil => exact h
  | cons ce before ih =>
    rcases h with ⟨_, _, h⟩ | h
    · exact .inr h
    · exact .inr (ih h)

theorem cancelledIn_of_overrun (h : Overrun i log) : CancelledIn i log := by
  induction log with
  | nil => exact h
  | cons ce before ih =>
    rcases h with ⟨_, h⟩ | h
    · exact .inr h
    · exact .inr (ih h)

end Writes

/-! ## The race -/

/-- One execution of the instance against any number of cancellations of its business id, from
any world. -/
abbrev Race (E : DurableWorkflowExecutor) (b : Backend) (inst : WorkflowInstance) (w : World) :
    Pool Call Op Op.Resp PyExc Unit World → Prop :=
  Pool.Reach (Step b)
    (fun _ c p => (∃ reason, c = .cancel inst.workflowId inst.tenantId reason) ∧ p = c.code E)
    [(.execute inst, (Call.execute inst).code E)] w

/-- What a cancellation may do: it writes CANCELLED only, and checks nothing. -/
def CancelAllowed : Op → Prop
  | .saveWorkflow _ set => set.status = .cancelled
  | .getWorkflow _ => False
  | _ => True

theorem cancelWorkflow_allowed (E : DurableWorkflowExecutor) (wid tid reason : String) :
    Safe (fun (_ : Unit) (o : Op) (_ : o.Resp) (_ : Unit) => True) (fun _ => CancelAllowed)
      (Call.code E (.cancel wid tid reason)) () (fun _ _ => True) (fun _ _ => True) := by
  have horRaise {r : Except PyExc Unit} {Q : Unit → Unit → Prop} (hQ : ∀ a t, Q a t) :
      Safe (fun (_ : Unit) (o : Op) (_ : o.Resp) (_ : Unit) => True) (fun _ => CancelAllowed)
        (orRaise r) () Q (fun _ _ => True) := by
    cases r with
    | ok a => exact hQ a ()
    | error e => trivial
  simp only [Call.code, cancelWorkflow, safe_bind, safe_perform]
  refine ⟨trivial, fun found _ _ => ?_⟩
  cases found with
  | none => trivial
  | some wf =>
    simp only
    split
    · trivial
    simp only [safe_bind, safe_perform, assignAndSave, recordEvent]
    refine ⟨rfl, fun r _ _ => horRaise fun _ _ => ?_⟩
    exact ⟨trivial, fun n _ _ => ⟨trivial, fun r _ _ => horRaise fun _ _ => trivial⟩⟩

/-- A persisted CANCELLED stays, until an outcome or a live status is written over it. -/
def Settled (i : UUID) (w : World) (log : List (Call × Performed)) : Prop :=
  CancelledIn i log → ¬ Overrun i log → FinalCancel i log → w.statusOf i = some .cancelled

section Race

variable {E : DurableWorkflowExecutor} {b : Backend} {w w' : World} {i : UUID}
variable {inst : WorkflowInstance} {log : List (Call × Performed)} {c : Call}

theorem persists_eq_false {o : Op} {r : o.Resp} (p : WorkflowStatus → Bool)
    (ho : ∀ saved set, o ≠ .saveWorkflow saved set) : Persists i p o r = false := by
  cases o with
  | saveWorkflow saved set => exact absurd rfl (ho saved set)
  | _ => rfl

theorem Settled.step {o : Op} {r : o.Resp} (h : Settled i w log) (hstep : Step b w o r w') :
    Settled i w' ((c, ⟨w, o, r⟩) :: log) := by
  rintro hcancelled hoverrun ⟨hfinal, hfinal'⟩
  -- Nothing is persisted for the instance, and its status is as before
  have hkept (hno : ∀ p, Persists i p o r = false) (hstatus : w'.statusOf i = w.statusOf i) :
      w'.statusOf i = some .cancelled := by
    rw [hstatus]
    refine h (hcancelled.resolve_left ?_) (fun hover => hoverrun (.inr hover)) hfinal'
    simp [hno]
  by_cases hsave : ∃ saved set, o = .saveWorkflow saved set
  · obtain ⟨saved, set, rfl⟩ := hsave
    obtain ⟨hr, rfl⟩ := step_saveWorkflow.mp hstep
    cases r with
    | error e =>
      refine hkept (fun p => rfl) ?_
      rw [saveWorkflow_error hr.symm]
    | ok _ =>
      by_cases hi : saved.id = i
      · subst hi
        rw [statusOf_saveWorkflow_self hr.symm]
        simp only [CancelledIn, Overrun, Persists, decide_true, Bool.true_and]
          at hcancelled hoverrun hfinal
        cases hset : set.status with
        | cancelled => rfl
        | _ =>
          simp only [hset, WorkflowStatus.isLive, WorkflowStatus.isOutcome] at *
          simp_all
      · refine hkept (fun p => ?_) (statusOf_saveWorkflow_other hi)
        simp [Persists, hi]
  · have hno : ∀ saved set, o ≠ .saveWorkflow saved set :=
      fun saved set heq => hsave ⟨saved, set, heq⟩
    refine hkept (fun p => persists_eq_false p hno) ?_
    rw [World.statusOf, World.getWorkflow, (step_frame hstep).workflows hno]
    rfl

/-- Every cancellation so far was checked, and none overwritten. -/
def Noticed (i : UUID) (log : List (Call × Performed)) : Prop :=
  CancelledIn i log ∧ ¬ Overrun i log ∧ FinalCancel i log ∧ ¬ Unchecked i log

theorem Noticed.of_cons {o : Op} {r : o.Resp} (h : Noticed i ((c, ⟨w, o, r⟩) :: log)) :
    Persists i (· == .cancelled) o r = false ∧ CancelledIn i log ∧ ¬ Overrun i log ∧
      FinalCancel i log ∧ (Checks i o = true ∨ Noticed i log) := by
  obtain ⟨hcancelled, hover, ⟨_, hfinal⟩, hunchecked⟩ := h
  have hno : Persists i (· == .cancelled) o r = false := by
    by_contra hp
    exact hunchecked (.inl (by simpa using hp))
  have hcancelled' : CancelledIn i log := hcancelled.resolve_left (by simp [hno])
  have hover' : ¬ Overrun i log := fun h => hover (.inr h)
  refine ⟨hno, hcancelled', hover', hfinal, ?_⟩
  cases hcheck : Checks i o with
  | true => exact .inl rfl
  | false =>
    exact .inr ⟨hcancelled', hover', hfinal, fun h => hunchecked (.inr ⟨hcheck, h⟩)⟩

/-- What holds of one call in flight: an execution that watches has seen every cancellation that
was read back; a cancellation writes nothing else. -/
def InFlight (inst : WorkflowInstance) (watch : Bool) (log : List (Call × Performed)) (c : Call)
    (p : Code Unit) : Prop :=
  match c with
  | .execute _ =>
    ∃ v, Disciplined inst watch p v (fun _ _ => True) (fun _ _ => True) ∧
      (watch = true → ReadBack inst.id log → v.seen = true)
  | _ =>
    Safe (fun (_ : Unit) (o : Op) (_ : o.Resp) (_ : Unit) => True) (fun _ => CancelAllowed)
      p () (fun _ _ => True) (fun _ _ => True)

/-- What holds of the race: a cancellation is settled, one that was noticed was read back, and
it is final while watched. -/
structure RaceInv (lets : Prop) (i : UUID) (w : World) (log : List (Call × Performed)) :
    Prop where
  settled : Settled i w log
  readBack : Noticed i log → ReadBack i log
  final : Watched lets i log → FinalCancel i log

variable {lets : Prop} {watch : Bool}

theorem RaceInv.cons (h : RaceInv lets i w log) {o : Op} {r : o.Resp} (hstep : Step b w o r w')
    (hno : Persists i WorkflowStatus.isOutcome o r = true → lets → ¬ ReadBack i log) :
    RaceInv lets i w' ((c, ⟨w, o, r⟩) :: log) where
  settled := h.settled.step hstep
  readBack hnoticed := by
    obtain ⟨_, hcancelled, hover, hfinal, hcheck | hbefore⟩ := hnoticed.of_cons
    · refine .inl ⟨hcheck, ?_, hcancelled⟩
      cases o with
      | getWorkflow id =>
        obtain rfl : id = i := by simpa [Checks] using hcheck
        obtain ⟨rfl, _⟩ := step_getWorkflow.mp hstep
        obtain ⟨wf, hwf, hst⟩ := Option.map_eq_some_iff.mp (h.settled hcancelled hover hfinal)
        simp [readsCancelled, isCancelled, hwf, hst]
      | _ => cases hcheck
    · exact .inr (h.readBack hbefore)
  final := by
    rintro ⟨hwatched, hwatched'⟩
    refine ⟨fun hout hcancelled => ?_, h.final hwatched'⟩
    obtain ⟨hover, hunchecked, hlets⟩ := hwatched hout
    have hread := h.readBack ⟨hcancelled, hover, h.final hwatched', hunchecked⟩
    rcases hlets with hlets | hnot
    · exact hno hout hlets hread
    · exact hnot hread

theorem RaceInv.execution {o : Op} {k : o.Resp → Code Unit} {r : o.Resp} {x : WorkflowInstance}
    (hwatch : lets → watch = true) (h : RaceInv lets inst.id w log)
    (hflight : InFlight inst watch log (.execute x) (.await o k)) (hstep : Step b w o r w') :
    RaceInv lets inst.id w' ((.execute x, ⟨w, o, r⟩) :: log) ∧
      InFlight inst watch ((.execute x, ⟨w, o, r⟩) :: log) (.execute x) (k r) := by
  obtain ⟨v, hdisc, hseen⟩ := hflight
  refine ⟨h.cons hstep fun hout hlets hread => ?_, ?_⟩
  · have hs := hseen (hwatch hlets) hread
    cases o with
    | saveWorkflow saved set =>
      have hallowed := hdisc.1.2 hs
      cases r with
      | error e => cases hout
      | ok _ => simp [Persists, hallowed] at hout
    | _ => cases hout
  · let v' : View := ⟨v.seen || (watch && readsCancelled o r), fun _ _ _ => True⟩
    refine ⟨v', hdisc.2 r v' ⟨rfl, fun _ _ _ _ => trivial, fun _ _ _ _ => trivial,
      answersWell_of_step hstep⟩, fun hw hread => ?_⟩
    rcases hread with ⟨_, hread, _⟩ | hread
    · simp [v', hw, hread]
    · simp [v', hseen hw hread]

theorem RaceInv.cancellation {o : Op} {r : o.Resp} (h : RaceInv lets i w log)
    (hallowed : CancelAllowed o) (hstep : Step b w o r w') :
    RaceInv lets i w' ((c, ⟨w, o, r⟩) :: log) := by
  refine h.cons hstep fun hout => ?_
  cases o with
  | saveWorkflow saved set =>
    cases r with
    | error e => cases hout
    | ok _ =>
      have hset : set.status = .cancelled := hallowed
      simp [Persists, hset, WorkflowStatus.isOutcome] at hout
  | _ => cases hout

theorem InFlight.cons_cancellation {o : Op} {r : o.Resp} {c' : Call} {p : Code Unit}
    (hallowed : CancelAllowed o) (h : InFlight inst watch log c' p) :
    InFlight inst watch ((c, ⟨w, o, r⟩) :: log) c' p := by
  cases c' with
  | execute x =>
    obtain ⟨v, hdisc, hseen⟩ := h
    refine ⟨v, hdisc, fun hw hread => hseen hw (hread.resolve_left ?_)⟩
    rintro ⟨hcheck, _⟩
    cases o with
    | getWorkflow id => exact hallowed.elim
    | _ => cases hcheck
  | _ => exact h

/-- The workflow function of an instance lets a `CancelledError` through. -/
def DurableWorkflowExecutor.LetsThrough (E : DurableWorkflowExecutor) (inst : WorkflowInstance) :
    Prop :=
  ∀ func, E.workflows inst.workflowType = some func → ∀ x, Propagates (func x)

/-- **A watched cancellation is final.** -/
theorem Race.final {P : Pool Call Op Op.Resp PyExc Unit World} (hrace : Race E b inst w P) :
    Watched (E.LetsThrough inst) inst.id P.log → FinalCancel inst.id P.log := by
  obtain ⟨watch, hwatch⟩ : ∃ watch : Bool, watch = true ↔ E.LetsThrough inst := by
    by_cases hlets : E.LetsThrough inst
    · exact ⟨true, by simp [hlets]⟩
    · exact ⟨false, by simp [hlets]⟩
  have hinv := hrace.invariant_solo (fun c => c.isExecute = true)
    (RaceInv (E.LetsThrough inst) inst.id) (fun _ log c p => InFlight inst watch log c p)
    (by simp) ?_ ?_ ?_ ?_ ?_
  · exact hinv.1.final
  · exact ⟨fun h => h.elim, fun h => h.1.elim, fun _ => trivial⟩
  · rintro ⟨c, p⟩ hmem
    obtain ⟨rfl, rfl⟩ := Prod.mk.injEq .. ▸ List.mem_singleton.mp hmem
    refine ⟨⟨false, fun _ _ _ => True⟩, ?_, fun _ h => h.elim⟩
    simpa only [Call.code, safe_bind, safe_pure] using executeWorkflow_disciplined hwatch.mp rfl
  · rintro s log c p _ ⟨⟨reason, rfl⟩, rfl⟩
    exact ⟨by simp [Call.isExecute], cancelWorkflow_allowed E _ _ _⟩
  · intro s log c o k r s' hI hT hstep
    cases c with
    | execute x => exact hI.execution hwatch.mpr hT hstep
    | _ => exact ⟨hI.cancellation hT.1 hstep, hT.2 r () trivial⟩
  · intro s log c o k r s' c' p' _ hT _ hsolo hT'
    cases c with
    | execute x =>
      cases c' with
      | execute x' => exact absurd ⟨rfl, rfl⟩ hsolo
      | _ => exact hT'
    | _ => exact hT'.cons_cancellation hT.1

/-- **The race, exactly.**  In any interleaving of one execution with any number of
cancellations, no outcome is persisted after CANCELLED if and only if before every outcome each
CANCELLED persisted so far was followed by a status check, not overwritten by RUNNING, and let
through by the workflow function if it was read. -/
theorem finalCancel_iff_watched {P : Pool Call Op Op.Resp PyExc Unit World}
    (hrace : Race E b inst w P) :
    FinalCancel inst.id P.log ↔ Watched (E.LetsThrough inst) inst.id P.log := by
  refine ⟨fun h => Throughout.imp h fun l _ hfinal => ?_, hrace.final⟩
  rcases l with _ | ⟨ce, before⟩
  · trivial
  · intro hout
    exact ⟨fun h => hfinal hout (cancelledIn_of_overrun h),
      fun h => hfinal hout (cancelledIn_of_unchecked h),
      .inr fun h => hfinal hout (cancelledIn_of_readBack h)⟩

end Race

/-! ## Afterwards -/

def WorkflowStatus.isTerminal : WorkflowStatus → Bool
  | .completed | .cancelled => true
  | _ => false

/-- `execute_workflow` accepts the instance: the hash matches and the type is registered. -/
def DurableWorkflowExecutor.Accepts (E : DurableWorkflowExecutor) (inst : WorkflowInstance) :
    Prop :=
  inst.constitutionalHash = E.constitutionalHash ∧ (E.workflows inst.workflowType).isSome

section Afterwards

variable {E : DurableWorkflowExecutor} {b : Backend} {w w' : World} {i : UUID}
variable {inst : WorkflowInstance} {out : Outcome PyExc WorkflowInstance}

theorem statusOf_step {o : Op} {r : o.Resp} (hstep : Step b w o r w')
    (ho : ∀ saved set, o = .saveWorkflow saved set → saved.id ≠ i) :
    w'.statusOf i = w.statusOf i := by
  by_cases hsave : ∃ saved set, o = .saveWorkflow saved set
  · obtain ⟨saved, set, rfl⟩ := hsave
    obtain ⟨_, rfl⟩ := step_saveWorkflow.mp hstep
    exact statusOf_saveWorkflow_other (ho saved set rfl)
  · rw [World.statusOf, World.getWorkflow,
      (step_frame hstep).workflows fun saved set heq => hsave ⟨saved, set, heq⟩]
    rfl

theorem executeWorkflow_other (hi : inst.id ≠ i)
    (hexec : Exec (Step b) (E.executeWorkflow inst) w out w') :
    w'.statusOf i = w.statusOf i := by
  have hdisc : Disciplined inst false (E.executeWorkflow inst) ⟨false, fun _ _ _ => True⟩
      (fun _ _ => True) (fun _ _ => True) :=
    executeWorkflow_disciplined (fun h => by cases h) rfl
  have hsafe : Safe (Step b)
      (fun _ o => ∀ saved set, o = .saveWorkflow saved set → saved.id ≠ i)
      (E.executeWorkflow inst) w (fun _ _ => True) (fun _ _ => True) := by
    refine (Safe.simulate (R := fun _ v => v = ⟨false, fun _ _ _ => True⟩) ?_ ?_ rfl hdisc).mono
      (fun _ _ _ => trivial) (fun _ _ _ => trivial)
    · rintro s v o rfl hallowed saved set rfl
      rw [hallowed.1.id]
      exact hi
    · rintro s v o r s' rfl _ hstep
      exact ⟨_, ⟨by simp, fun _ _ _ h => h, fun _ _ _ _ => trivial, answersWell_of_step hstep⟩,
        rfl⟩
  refine hexec.invariant (I := fun s => s.statusOf i = w.statusOf i) ?_ rfl hsafe
  intro s o r s' hs hpre hstep
  rw [statusOf_step hstep hpre, hs]

theorem nodup_step {o : Op} {r : o.Resp} (h : (w.workflows.map (·.id)).Nodup)
    (hstep : Step b w o r w') : (w'.workflows.map (·.id)).Nodup := by
  by_cases hsave : ∃ saved set, o = .saveWorkflow saved set
  · obtain ⟨saved, set, rfl⟩ := hsave
    obtain ⟨_, rfl⟩ := step_saveWorkflow.mp hstep
    unfold World.saveWorkflow
    split_ifs with hstored
    · rw [List.map_map]
      convert h using 2
      funext old
      simp only [Function.comp_apply]
      split
      · exact World.mergeWorkflow_sameRun.id
      · rfl
    · exact h
    · rw [List.map_append, List.map_singleton, WorkflowInstance.assign_id]
      refine List.nodup_append.mpr ⟨h, List.nodup_singleton _, ?_⟩
      rintro _ hold _ hnew rfl
      obtain ⟨wf, hwf, hid⟩ := List.mem_map.mp hold
      refine hstored (List.find?_isSome.mpr ⟨wf, hwf, ?_⟩)
      simpa [hid] using hnew
  · rw [(step_frame hstep).workflows fun saved set heq => hsave ⟨saved, set, heq⟩]
    exact h

theorem Interleaving.nodup {P : Pool Call Op Op.Resp PyExc Unit World}
    (hreach : Interleaving E b P) : (P.state.workflows.map (·.id)).Nodup :=
  (hreach.invariant (fun s _ => (s.workflows.map (·.id)).Nodup) (fun _ _ _ _ => True)
    (by simp) (by simp) (fun _ _ => trivial) (fun hI _ hstep => ⟨nodup_step hI hstep, trivial⟩)
    (fun _ _ _ _ => trivial)).1

theorem getWorkflow_of_nodup (hids : (w.workflows.map (·.id)).Nodup)
    (hmem : inst ∈ w.workflows) : w.getWorkflow inst.id = some inst := by
  rw [World.getWorkflow]
  generalize w.workflows = rows at hids hmem
  induction rows with
  | nil => cases hmem
  | cons x rows ih =>
    rw [List.map_cons, List.nodup_cons] at hids
    rcases List.mem_cons.mp hmem with rfl | hmem
    · simp
    · have hx : ¬ x.id = inst.id := fun heq =>
        hids.1 (heq ▸ List.mem_map.mpr ⟨inst, hmem, rfl⟩)
      rw [List.find?_cons_of_neg (by simpa using hx)]
      exact ih hids.2 hmem

/-- **`resume_workflow` leaves a terminal instance alone.** -/
theorem resumeWorkflow_terminal {wid tid : String} {status : WorkflowStatus}
    (hids : (w.workflows.map (·.id)).Nodup) (hstatus : w.statusOf i = some status)
    (hterminal : status.isTerminal = true)
    (hexec : Exec (Step b) (E.resumeWorkflow wid tid) w out w') :
    w'.statusOf i = some status := by
  rw [← hstatus]
  cases hexec with
  | stop => rfl
  | await hstep hrest =>
    obtain ⟨rfl, rfl⟩ := step_getWorkflowByBusinessId.mp hstep
    simp only [Prog.bind] at hrest
    split at hrest
    · cases hrest <;> rfl
    · rename_i found hfound
      split at hrest
      · cases hrest <;> rfl
      · rename_i hlive
        refine executeWorkflow_other (fun hi => hlive ?_) hrest
        -- Otherwise the row found is the terminal one
        rw [World.statusOf, ← hi,
          getWorkflow_of_nodup hids (List.mem_of_find?_eq_some hfound)] at hstatus
        obtain rfl : found.status = status := Option.some_inj.mp hstatus
        revert hterminal
        cases found.status <;> simp [WorkflowStatus.isTerminal]

/-- **`execute_workflow` moves every terminal instance it accepts.** -/
theorem executeWorkflow_terminal_iff {status : WorkflowStatus}
    (hstatus : w.statusOf inst.id = some status) (hterminal : status.isTerminal = true) :
    (∀ out w', Exec (Step b) (E.executeWorkflow inst) w out w' →
      w'.statusOf inst.id = some status) ↔ ¬ E.Accepts inst := by
  constructor
  · rintro hkeeps ⟨hhash, hreg⟩
    obtain ⟨func, hfunc⟩ := Option.isSome_iff_exists.mp hreg
    have hok : (w.saveWorkflow b inst { status := .running }).1 = .ok () := by
      have hstored : (w.getWorkflow inst.id).isSome := by
        obtain ⟨wf, hwf, _⟩ := Option.map_eq_some_iff.mp hstatus
        rw [hwf]
        rfl
      rw [World.saveWorkflow, if_pos hstored]
    -- The first write persists RUNNING; stop there
    have hrun : Exec (Step b) (E.executeWorkflow inst) w .stopped
        (w.saveWorkflow b inst { status := .running }).2 := by
      rw [executeWorkflow, if_neg (not_not.mpr hhash), hfunc]
      exact .await (step_saveWorkflow.mpr ⟨hok.symm, rfl⟩) (.stop _ _)
    have hrunning := (statusOf_saveWorkflow_self hok).symm.trans (hkeeps _ _ hrun)
    rw [← Option.some_inj.mp hrunning] at hterminal
    cases hterminal
  · intro hrefuses out w' hexec
    have hraises : ∃ e, E.executeWorkflow inst = .raise e := by
      rw [executeWorkflow]
      split
      · exact ⟨_, rfl⟩
      · rename_i hhash
        cases hfunc : E.workflows inst.workflowType with
        | none => exact ⟨_, rfl⟩
        | some func => exact absurd ⟨not_not.mp hhash, by rw [hfunc]; rfl⟩ hrefuses
    obtain ⟨e, he⟩ := hraises
    rw [he] at hexec
    cases hexec <;> exact hstatus

end Afterwards

/-! ## Cancelled while it runs -/

def order : WorkflowInstance where
  id := ⟨1⟩
  workflowType := "greet"
  workflowId := "order-7"
  tenantId := "acme"
  constitutionalHash := greeter.constitutionalHash

/-- The execution of the order persists RUNNING, the order is cancelled, and the execution goes
on to its end. -/
def cancelledRace : Pool Call Op Op.Resp PyExc Unit World :=
  goOn .inMemory (fun _ => .ok .null) 1 10 <|
    goOn .inMemory (fun _ => .ok .null) 0 10 <|
      makeCall greeter (.cancel "order-7" "acme" "changed my mind") <|
        goOn .inMemory (fun _ => .ok .null) 0 1
          ⟨[(.execute order, Call.code greeter (.execute order))], { workflows := [order] }, []⟩

theorem Race.goOn {E : DurableWorkflowExecutor} {b : Backend} {inst : WorkflowInstance}
    {w : World} {P : Pool Call Op Op.Resp PyExc Unit World} {result : Op → Except PyExc Json}
    {i n : ℕ} (h : Race E b inst w P) : Race E b inst w (goOn b result i n P) :=
  Pool.Reach.ticks n h

theorem cancelledRace_reach :
    Race greeter .inMemory order { workflows := [order] } cancelledRace :=
  Race.goOn (Race.goOn (Pool.Reach.add (Race.goOn .init) ⟨⟨"changed my mind", rfl⟩, rfl⟩))

/-- The order ends COMPLETED, after CANCELLED was persisted. -/
theorem cancelledRace_completes :
    Race greeter .inMemory order { workflows := [order] } cancelledRace ∧
      cancelledRace.state.statusOf order.id = some .completed ∧
      ¬ FinalCancel order.id cancelledRace.log := by
  refine ⟨cancelledRace_reach, by decide, fun h => ?_⟩
  -- The write before the last two operations is the outcome
  exact (h.drop 2).here (by decide) (.inr (.inr (.inl (by decide))))

/-- **Cancellation and terminal states, exactly.**  A race of one execution with cancellations
keeps a cancellation if and only if the execution watched it; `resume_workflow` leaves every
terminal instance alone, in every reachable world; `execute_workflow` leaves one alone if and
only if it refuses the instance. -/
theorem cancellation_final_iff (E : DurableWorkflowExecutor) (b : Backend) :
    (∀ inst w P, Race E b inst w P →
      (FinalCancel inst.id P.log ↔ Watched (E.LetsThrough inst) inst.id P.log)) ∧
    (∀ P i status, Interleaving E b P → P.state.statusOf i = some status →
      status.isTerminal = true →
      ∀ wid tid out w', Exec (Step b) (E.resumeWorkflow wid tid) P.state out w' →
        w'.statusOf i = some status) ∧
    ∀ (inst : WorkflowInstance) (w : World) status, w.statusOf inst.id = some status →
      status.isTerminal = true →
      ((∀ out w', Exec (Step b) (E.executeWorkflow inst) w out w' →
        w'.statusOf inst.id = some status) ↔ ¬ E.Accepts inst) :=
  ⟨fun _ _ _ hrace => finalCancel_iff_watched hrace,
    fun _ _ _ hreach hstatus hterminal _ _ _ _ hexec =>
      resumeWorkflow_terminal hreach.nodup hstatus hterminal hexec,
    fun _ _ _ hstatus hterminal => executeWorkflow_terminal_iff hstatus hterminal⟩

def cancelledOrder : Pool Call Op Op.Resp PyExc Unit World :=
  goOn .inMemory (fun _ => .ok .null) 0 10 <|
    makeCall greeter (.cancel "order-7" "acme" "changed my mind") <|
      goOn .inMemory (fun _ => .ok .null) 0 10 <|
        makeCall greeter (.start "greet" "order-7" "acme" none) ⟨[], {}, []⟩

theorem cancelledOrder_reach : Interleaving greeter .inMemory cancelledOrder := by
  refine Interleaving.goOn (Interleaving.makeCall (Interleaving.goOn (Interleaving.makeCall
    .init ?_)) ?_)
  all_goals exact trivial

/-- The theorem at the race that cancels a running order, and at a cancelled order. -/
theorem cancellation_final_iff_order :
    (FinalCancel order.id cancelledRace.log ↔
      Watched (greeter.LetsThrough order) order.id cancelledRace.log) ∧
    (∀ out w', Exec (Step .inMemory) (greeter.resumeWorkflow "order-7" "acme")
      cancelledOrder.state out w' → w'.statusOf order.id = some .cancelled) ∧
    ((∀ out w', Exec (Step .inMemory) (greeter.executeWorkflow order) cancelledOrder.state out w' →
      w'.statusOf order.id = some .cancelled) ↔ ¬ greeter.Accepts order) :=
  have hstatus : cancelledOrder.state.statusOf order.id = some .cancelled := by decide
  ⟨(cancellation_final_iff greeter .inMemory).1 _ _ _ cancelledRace_reach,
    (cancellation_final_iff greeter .inMemory).2.1 _ _ _ cancelledOrder_reach hstatus rfl _ _,
    (cancellation_final_iff greeter .inMemory).2.2 order _ _ hstatus rfl⟩

end EnhancedAgentBus.Persistence
