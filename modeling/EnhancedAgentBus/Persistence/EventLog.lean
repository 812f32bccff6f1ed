import EnhancedAgentBus.Persistence.Calls
import Mathlib.Data.List.MinMax
import Mathlib.Order.Nat

/-!
# The event log

`_record_event` reads the next sequence number and saves the event under it with a second awaited
call.  A *task* is what runs beside others: a call of a client, one `execute_activity` call of a
workflow function that has several in flight, what is done before and after such a function, and a
checkpoint.  Any number of tasks are interleaved at their operations (`Recording`).

* `Gapless` — the numbers saved for an instance are `1..n`, each once;
* `StepInOrder` — a step is ended by an event that follows its STEP_STARTED, with a greater number.

### What is load-bearing

What a task may record is decided by what it has performed *itself* (`MayRecord`), so one pass
over the code gives it for every interleaving.  What the others do in between is read off the
log: `eventsOf_own` says that since a task last read the events of an instance they have grown by
what was recorded meanwhile, and by nothing else.
-/

namespace EnhancedAgentBus.Persistence

open Async Async.Prog DurableWorkflowExecutor

/-! ## Tasks -/

namespace DurableWorkflowExecutor

/-- What `execute_workflow` does once the workflow function has ended. -/
def concludeWorkflow (inst : WorkflowInstance) (ctx : WorkflowContext) :
    Except PyExc Json → Code WorkflowInstance
  | .error e => handleWorkflowError inst ctx e
  | .ok value => do
    match ← (finalizeWorkflowSuccess inst value).attempt with
    | .ok inst => return inst
    | .error e => handleWorkflowError inst ctx e

theorem runInstance_eq (E : DurableWorkflowExecutor) (func : WorkflowInstance → WorkflowBody)
    (inst : WorkflowInstance) :
    E.runInstance func inst = (do
      let inst ← assignAndSave inst { status := .running }
      let (ctx, result) ← E.runWorkflow { workflowInstance := inst } (func inst)
      concludeWorkflow inst ctx result) := by
  refine congrArg (Prog.bind _) (funext fun inst => congrArg (Prog.bind _) (funext fun out => ?_))
  obtain ⟨ctx, result⟩ := out
  cases result with
  | error e => rfl
  | ok value => rfl

/-- Create a checkpoint snapshot.  The table it is stored in is not in the `World`. -/
def createCheckpoint (ctx : WorkflowContext) (stepIndex : ℤ) : Code Unit := do
  let checkpointId ← ask (.uuid4 [])
  recordEvent ctx.workflowInstance.id .checkpointCreated
    [("checkpoint_id", .str checkpointId.str), ("step_index", .int stepIndex)]

end DurableWorkflowExecutor

inductive Task where
  | call (c : Call)
  /-- an execution, up to its workflow function -/
  | opening (inst : WorkflowInstance)
  /-- one `execute_activity` call of a workflow function -/
  | activity (ctx : WorkflowContext) (step : ActivityCall)
  /-- one `create_checkpoint` call of a workflow function -/
  | checkpoint (ctx : WorkflowContext) (stepIndex : ℤ)
  /-- an execution, once its workflow function has ended -/
  | conclusion (inst : WorkflowInstance) (ctx : WorkflowContext) (result : Except PyExc Json)

/-- The code of a task; what it returns goes to the workflow function, or to the client. -/
def Task.code (E : DurableWorkflowExecutor) : Task → Code Unit
  | call c => c.code E
  | opening inst => do
    let _ ← assignAndSave inst { status := .running }
    return ()
  | activity ctx step => do
    let _ ← E.executeActivity ctx step
    return ()
  | checkpoint ctx stepIndex => createCheckpoint ctx stepIndex
  | conclusion inst ctx result => do
    let _ ← concludeWorkflow inst ctx result
    return ()

abbrev TaskPool := Pool (Task × ℕ) Op Op.Resp PyExc Unit World

abbrev TaskLog := List ((Task × ℕ) × Performed)

def TaskPool.start (E : DurableWorkflowExecutor) (tasks : List Task) : TaskPool :=
  ⟨tasks.zipIdx.map fun t => (t, t.1.code E), {}, []⟩

/-- What tasks can bring about, from the empty world; each begins when it likes. -/
abbrev Recording (E : DurableWorkflowExecutor) (b : Backend) (tasks : List Task) :
    TaskPool → Prop :=
  Pool.Reach (Step b) (fun _ _ _ => False) (TaskPool.start E tasks).threads {}

abbrev ownOf (task : ℕ) (log : TaskLog) : List Performed := Pool.own Prod.snd task log

/-! ## What is recorded -/

/-- The event that an operation added to the log of its instance. -/
def recordedBy : (o : Op) → o.Resp → Option WorkflowEvent
  | .saveEvent event, .ok _ => some event
  | _, _ => none

def recorded (e : Performed) : Option WorkflowEvent := recordedBy e.op e.resp

/-- What an operation added to the log of an instance. -/
def addedTo (i : UUID) (e : Performed) : List WorkflowEvent :=
  (recorded e).toList.filter (·.workflowInstanceId = i)

/-- The events of an instance that were recorded, earliest first. -/
def recordedOf (i : UUID) (log : TaskLog) : List WorkflowEvent :=
  log.reverse.flatMap fun e => addedTo i e.2

def EventType.endsStep : EventType → Bool
  | .stepCompleted | .stepFailed => true
  | _ => false

/-- `event_data["step_name"]` -/
def stepNameOf (event : WorkflowEvent) : Option Json := event.eventData.lookup "step_name"

def opensStep : Op → Bool
  | .saveStep step => step.status = .pending
  | _ => false

def ofStep (own : List Performed) : List Performed := own.takeWhile fun e => !opensStep e.op

/-- Whether the instance, read back, is cancelled. -/
def readsStatus : (o : Op) → o.Resp → Option Bool
  | .getWorkflow _, current => some (isCancelled current)
  | _, _ => none

/-- What the first attempt at the step found: whether the instance is cancelled. -/
def firstRead (own : List Performed) : Option Bool :=
  ((ofStep own).filterMap fun e => readsStatus e.op e.resp).getLast?

/-! ## The law of the log -/

/-- The numbers saved for one instance are `1..n`, each once. -/
def Gapless (w : World) : Prop :=
  ∀ i, ((w.events i).map WorkflowEvent.sequenceNumber).Perm (List.range' 1 (w.events i).length)

/-- The step has begun, under the instance and the name of the event, and with a smaller
number. -/
def BegunBefore (own : List Performed) (event : WorkflowEvent) : Prop :=
  ∃ e ∈ ofStep own, ∃ begun ∈ recorded e, begun.eventType = .stepStarted ∧
    begun.workflowInstanceId = event.workflowInstanceId ∧ stepNameOf begun = stepNameOf event ∧
    begun.sequenceNumber < event.sequenceNumber

def NotEnded (own : List Performed) : Prop :=
  ∀ e ∈ ofStep own, ∀ event ∈ recorded e, event.eventType.endsStep = false

def StepInOrder (before : TaskLog) (e : (Task × ℕ) × Performed) : Prop :=
  ∀ event ∈ recorded e.2,
    (event.eventType = .stepStarted → NotEnded (ownOf e.1.2 before)) ∧
    (event.eventType.endsStep = true → BegunBefore (ownOf e.1.2 before) event)

/-- **The event log is a gap-free sequence**, in every state the run has reached. -/
def EventLogSound (P : TaskPool) : Prop :=
  Pool.Along (fun before e w' => Gapless w' ∧ StepInOrder before e) P.state P.log

/-! ## When it holds -/

/-- Since the task's own last operation, its `get_next_sequence`, no other task has recorded an
event of the instance. -/
def Undisturbed (before : TaskLog) (e : (Task × ℕ) × Performed) : Prop :=
  ∀ event ∈ recorded e.2, ∀ e' ∈ before.takeWhile fun e' => e'.1.2 ≠ e.1.2,
    ∀ event' ∈ recorded e'.2, event'.workflowInstanceId ≠ event.workflowInstanceId

/-- The first attempt at a step that is ended had not found the instance cancelled. -/
def LiveAtStart (before : TaskLog) (e : (Task × ℕ) × Performed) : Prop :=
  ∀ event ∈ recorded e.2, event.eventType.endsStep = true →
    firstRead (ownOf e.1.2 before) ≠ some true

/-- In memory no two recorders of an instance overlap, and no step is ended that was cancelled
before its first attempt. -/
def RecordersApart (b : Backend) (P : TaskPool) : Prop :=
  Pool.Along
    (fun before e _ => (b = .inMemory → Undisturbed before e) ∧ LiveAtStart before e) P.state P.log

/-! ## The numbers -/

/-- The numbers of an instance are `1..n`, in the order they were saved. -/
def Numbered (w : World) : Prop :=
  ∀ i, (w.events i).map WorkflowEvent.sequenceNumber = List.range' 1 (w.events i).length

theorem Numbered.gapless {w : World} (h : Numbered w) : Gapless w := fun i => .of_eq (h i)

theorem numbered_empty : Numbered {} := fun _ => rfl

theorem own_latest {task : ℕ} {log : TaskLog} {last : Performed} {rest : List Performed}
    (h : ownOf task log = last :: rest) :
    ∃ t earlier, log = (log.takeWhile fun e => e.1.2 ≠ task) ++ (t, last) :: earlier ∧
      ownOf task earlier = rest := by
  induction log with
  | nil => cases h
  | cons e log ih =>
    by_cases hown : e.1.2 = task
    · have hcons : ownOf task (e :: log) = e.2 :: ownOf task log := by simp [Pool.own, hown]
      obtain ⟨hlast, hrest⟩ := List.cons_eq_cons.mp (hcons ▸ h)
      refine ⟨e.1, log, ?_, hrest⟩
      rw [List.takeWhile_cons_of_neg (by simpa using hown), ← hlast]
      rfl
    · have hskip : ownOf task (e :: log) = ownOf task log := by simp [Pool.own, hown]
      obtain ⟨t, earlier, hlog, hrest⟩ := ih (hskip ▸ h)
      refine ⟨t, earlier, ?_, hrest⟩
      rw [List.takeWhile_cons_of_pos (by simpa using hown), List.cons_append, ← hlog]

theorem op_of_mem_recorded {e : Performed} {event : WorkflowEvent} (h : event ∈ recorded e) :
    e.op = .saveEvent event := by
  obtain ⟨w, o, r⟩ := e
  cases o with
  | saveEvent event' =>
    cases r with
    | ok _ =>
      obtain rfl : event' = event := Option.some_inj.mp h
      rfl
    | error e => cases h
  | _ => cases h

theorem recorded_eq_none {e : Performed} (h : ∀ event, e.op ≠ .saveEvent event) :
    recorded e = none :=
  Option.eq_none_iff_forall_not_mem.mpr fun event hmem => h event (op_of_mem_recorded hmem)

@[simp] theorem recordedOf_cons (i : UUID) (e : (Task × ℕ) × Performed) (log : TaskLog) :
    recordedOf i (e :: log) = recordedOf i log ++ addedTo i e.2 := by
  simp [recordedOf]

theorem step_events {b : Backend} {w w' : World} {o : Op} {r : o.Resp} (hstep : Step b w o r w')
    (i : UUID) : w'.events i = w.events i ++ addedTo i ⟨w, o, r⟩ := by
  by_cases hsave : ∃ event, o = .saveEvent event
  · obtain ⟨event, rfl⟩ := hsave
    obtain ⟨rfl, rfl⟩ := step_saveEvent.mp hstep
    simp only [World.saveEvent, addedTo, recorded]
    split_ifs
    · simp [recordedBy]
    · by_cases hi : i = event.workflowInstanceId
      · subst hi
        simp [recordedBy]
      · simp [recordedBy, Function.update_of_ne hi, Ne.symm hi]
  · have hother (event : WorkflowEvent) : o ≠ .saveEvent event := fun heq => hsave ⟨event, heq⟩
    rw [(step_frame hstep).events hother, addedTo, recorded_eq_none hother]
    simp

abbrev Steps (b : Backend) (w : World) (log : TaskLog) : Prop :=
  Pool.Along (fun _ e w' => Step b e.2.before e.2.op e.2.resp w') w log

theorem Steps.events_append {b : Backend} {w : World} {later earlier : TaskLog}
    {e : (Task × ℕ) × Performed} (h : Steps b w (later ++ e :: earlier)) (i : UUID) :
    w.events i = e.2.before.events i ++ recordedOf i (later ++ [e]) := by
  induction later generalizing w with
  | nil =>
    rw [step_events h.1 i, List.nil_append, recordedOf_cons]
    rfl
  | cons e' later ih =>
    rw [step_events h.1 i, ih h.2, List.cons_append, recordedOf_cons, List.append_assoc]

theorem getNextSequence_of_range' {w : World} {i : UUID} {n : ℕ}
    (h : (w.events i).map WorkflowEvent.sequenceNumber = List.range' 1 n) :
    w.getNextSequence i = n + 1 := by
  rw [World.getNextSequence, h]
  have hle : (List.range' 1 n).foldr max ⊥ ≤ n := List.max_le_of_forall_le _ _ fun k hk => by
    have hmem := List.mem_range'_1.mp hk
    omega
  refine congrArg (· + 1) (le_antisymm hle ?_)
  rcases n.eq_zero_or_pos with rfl | hpos
  · exact Nat.zero_le _
  · exact List.le_max_of_le' 0 (List.mem_range'_1.mpr ⟨hpos, by omega⟩) le_rfl

theorem sequenceNumber_lt_getNextSequence {w : World} {event : WorkflowEvent} {i : UUID}
    (h : event ∈ w.events i) : event.sequenceNumber < w.getNextSequence i :=
  Nat.lt_succ_of_le (List.le_max_of_le' 0 (List.mem_map_of_mem h) le_rfl)

/-! ### One event more -/

section Saved

variable {b : Backend} {w : World} {event : WorkflowEvent} {n : ℕ}

theorem saveEvent_events_self
    (hnew : b = .postgres → event.sequenceNumber ∉
      (w.events event.workflowInstanceId).map WorkflowEvent.sequenceNumber) :
    (w.saveEvent b event).2.events event.workflowInstanceId =
      w.events event.workflowInstanceId ++ [event] := by
  simp only [World.saveEvent]
  rw [if_neg fun h => hnew h.1 h.2]
  exact Function.update_self _ _ _

theorem Numbered.saveEvent_next (h : Numbered w)
    (hnext : event.sequenceNumber = (w.events event.workflowInstanceId).length + 1) :
    Numbered (w.saveEvent b event).2 := by
  intro i
  by_cases hi : i = event.workflowInstanceId
  · subst hi
    rw [saveEvent_events_self, List.map_append, List.length_append, h, List.map_singleton,
      List.length_singleton, List.range'_concat, hnext, Nat.one_mul, Nat.add_comm]
    rintro -
    rw [h, hnext]
    intro hmem
    have hlt := (List.mem_range'_1.mp hmem).2
    omega
  · simp only [World.saveEvent]
    split_ifs
    · exact h i
    · simp only [Function.update_of_ne hi]
      exact h i

theorem saveEvent_used_postgres
    (hused : event.sequenceNumber ∈
      (w.events event.workflowInstanceId).map WorkflowEvent.sequenceNumber) :
    (w.saveEvent .postgres event).2 = w := by
  simp only [World.saveEvent]
  exact congrArg Prod.snd (if_pos ⟨trivial, hused⟩)

theorem not_gapless_saveEvent_used
    (hused : event.sequenceNumber ∈
      (w.events event.workflowInstanceId).map WorkflowEvent.sequenceNumber) :
    ¬Gapless (w.saveEvent .inMemory event).2 := by
  intro h
  have hnodup := (h event.workflowInstanceId).nodup_iff.mpr List.nodup_range'
  rw [saveEvent_events_self (fun hb => by cases hb), List.map_append, List.map_singleton] at hnodup
  exact (List.disjoint_of_nodup_append hnodup) hused (List.mem_singleton.mpr rfl)

end Saved

/-! ### The number that was read -/

theorem recordedOf_eq_nil {i : UUID} {log : TaskLog} :
    recordedOf i log = [] ↔
      ∀ e ∈ log, ∀ event ∈ recorded e.2, event.workflowInstanceId ≠ i := by
  simp [recordedOf, addedTo, List.flatMap_eq_nil_iff]

section Read

variable {b : Backend} {w t : World} {log : TaskLog} {task : ℕ} {i : UUID} {n : ℕ}
variable {own : List Performed}

theorem eventsOf_own (hsteps : Steps b w log) (hnum : Numbered w)
    (hown : ownOf task log = ⟨t, .getNextSequence i, n⟩ :: own) :
    w.events i = t.events i ++ recordedOf i (log.takeWhile fun e => e.1.2 ≠ task) ∧
      n = (t.events i).length + 1 := by
  obtain ⟨l, earlier, hlog, -⟩ := own_latest hown
  have hgrown := Steps.events_append (hlog ▸ hsteps) i
  have hsince : recordedOf i ((log.takeWhile fun e => e.1.2 ≠ task) ++
      [(l, ⟨t, .getNextSequence i, n⟩)]) =
        recordedOf i (log.takeWhile fun e => e.1.2 ≠ task) := by
    simp [recordedOf, addedTo, recorded, recordedBy]
  rw [hsince] at hgrown
  obtain ⟨⟨w', hread⟩, -⟩ := hsteps.of_suffix (hlog ▸ List.suffix_append _ _)
  refine ⟨hgrown, (step_getNextSequence.mp hread).1.trans (getNextSequence_of_range' ?_)⟩
  -- What was stored then is a prefix of what is stored now
  have hnow := hnum i
  rw [hgrown, List.map_append, List.length_append, ← List.range'_append_1] at hnow
  exact (List.append_inj hnow (by simp)).1

theorem recorded_lt_read (hsteps : Steps b w log)
    (hown : ownOf task log = ⟨t, .getNextSequence i, n⟩ :: own) {e : Performed}
    {event : WorkflowEvent} (he : e ∈ own) (hrecorded : event ∈ recorded e)
    (hi : event.workflowInstanceId = i) : event.sequenceNumber < n := by
  obtain ⟨l, earlier, hlog, hearlier⟩ := own_latest hown
  obtain ⟨⟨w', hread⟩, hbefore⟩ := hsteps.of_suffix (hlog ▸ List.suffix_append _ _)
  obtain ⟨l', hmem, -⟩ := Pool.mem_own.mp (hearlier ▸ he)
  obtain ⟨later, first, rfl⟩ := List.append_of_mem hmem
  have hn : n = t.getNextSequence i := (step_getNextSequence.mp hread).1
  rw [hn]
  refine sequenceNumber_lt_getNextSequence ?_
  rw [Steps.events_append hbefore i]
  refine List.mem_append_right _ ?_
  simp only [recordedOf, List.reverse_append, List.flatMap_append, List.mem_append]
  exact .inl (by simp [addedTo, Option.mem_def.mp hrecorded, hi])

end Read

/-! ## What a task may record -/

/-- The step has begun, under an instance and a name. -/
def Begun (own : List Performed) (i : UUID) (stepName : Option Json) : Prop :=
  ∃ e ∈ ofStep own, ∃ event ∈ recorded e, event.eventType = .stepStarted ∧
    event.workflowInstanceId = i ∧ stepNameOf event = stepName

def NotBegun (own : List Performed) : Prop :=
  ∀ e ∈ ofStep own, ∀ event ∈ recorded e, event.eventType ≠ .stepStarted

/-- A task records under the number it has just read; it begins a step that has not ended, and
ends a step that has begun, unless it found the instance cancelled before. -/
structure MayRecord (own : List Performed) (event : WorkflowEvent) : Prop where
  read : ∃ t own',
    own = ⟨t, .getNextSequence event.workflowInstanceId, event.sequenceNumber⟩ :: own'
  begins : event.eventType = .stepStarted → NotEnded own
  ends : event.eventType.endsStep = true →
    (firstRead own = some true ∧ NotBegun own) ∨
      (firstRead own = some false ∧ Begun own event.workflowInstanceId (stepNameOf event))

def MayDo (own : List Performed) : Op → Prop
  | .saveEvent event => MayRecord own event
  | _ => True

abbrev Records {α : Type} (b : Backend) (p : Code α) (own : List Performed)
    (Q : α → List Performed → Prop) (R : PyExc → List Performed → Prop) : Prop :=
  Safe (Pool.OwnStep (Step b)) MayDo p own Q R

inductive Stage where
  | opened
  | cancelled
  | live
  | begun

/-- The status that the first attempt has read. -/
def Stage.read : Stage → Option Bool
  | .opened => none
  | .cancelled => some true
  | .live | .begun => some false

def Stage.afterRead : Stage → Bool → Stage
  | .opened, true => .cancelled
  | .opened, false => .live
  | stage, _ => stage

/-- The task is at a step of an instance, which has not ended. -/
structure AtStage (i : UUID) (stepName : String) (stage : Stage) (own : List Performed) :
    Prop where
  read : firstRead own = stage.read
  notEnded : NotEnded own
  begun : stage = .begun → Begun own i (some (.str stepName))
  notBegun : stage ≠ .begun → NotBegun own

/-! ### One operation more -/

section Cons

variable {own : List Performed} {e : Performed} {i : UUID} {stepName : String} {stage : Stage}

theorem ofStep_opens (h : opensStep e.op = true) : ofStep (e :: own) = [] :=
  List.takeWhile_cons_of_neg (by simp [h])

theorem ofStep_cons (h : opensStep e.op = false) : ofStep (e :: own) = e :: ofStep own :=
  List.takeWhile_cons_of_pos (by simp [h])

theorem AtStage.opened (h : opensStep e.op = true) : AtStage i stepName .opened (e :: own) where
  read := by rw [firstRead, ofStep_opens h]; rfl
  notEnded := by rw [NotEnded, ofStep_opens h]; exact fun _ h => nomatch h
  begun := nofun
  notBegun _ := by rw [NotBegun, ofStep_opens h]; exact fun _ h => nomatch h

theorem firstRead_cons (h : opensStep e.op = false) :
    firstRead (e :: own) = (firstRead own).or (readsStatus e.op e.resp) := by
  rw [firstRead, firstRead, ofStep_cons h]
  cases hread : readsStatus e.op e.resp with
  | none => simp [hread]
  | some status => simp [hread, List.getLast?_cons, Option.or_some]

theorem NotEnded.cons (hown : NotEnded own) (h : opensStep e.op = false)
    (he : ∀ event ∈ recorded e, event.eventType.endsStep = false) : NotEnded (e :: own) := by
  rw [NotEnded, ofStep_cons h]
  exact List.forall_mem_cons.mpr ⟨he, hown⟩

theorem NotBegun.cons (hown : NotBegun own) (h : opensStep e.op = false)
    (he : ∀ event ∈ recorded e, event.eventType ≠ .stepStarted) : NotBegun (e :: own) := by
  rw [NotBegun, ofStep_cons h]
  exact List.forall_mem_cons.mpr ⟨he, hown⟩

theorem Begun.cons {name : Option Json} (hown : Begun own i name) (h : opensStep e.op = false) :
    Begun (e :: own) i name := by
  obtain ⟨e', he', hevent⟩ := hown
  exact ⟨e', by rw [ofStep_cons h]; exact List.mem_cons_of_mem _ he', hevent⟩

theorem AtStage.cons (hown : AtStage i stepName stage own) (hopen : opensStep e.op = false)
    (hread : readsStatus e.op e.resp = none) (hrec : recorded e = none) :
    AtStage i stepName stage (e :: own) where
  read := by rw [firstRead_cons hopen, hread, Option.or_none, hown.read]
  notEnded := hown.notEnded.cons hopen (by simp [hrec])
  begun hbegun := (hown.begun hbegun).cons hopen
  notBegun hnot := (hown.notBegun hnot).cons hopen (by simp [hrec])

theorem AtStage.cons_getWorkflow (hown : AtStage i stepName stage own) (w : World) (id : UUID)
    (current : Option WorkflowInstance) :
    AtStage i stepName (stage.afterRead (isCancelled current))
      (⟨w, .getWorkflow id, current⟩ :: own) where
  read := by
    rw [firstRead_cons rfl, hown.read]
    cases stage with
    | opened =>
      cases hc : isCancelled current <;> simp [Stage.afterRead, Stage.read, readsStatus, hc]
    | _ => rfl
  notEnded := hown.notEnded.cons rfl nofun
  begun hbegun := by
    refine (hown.begun ?_).cons rfl
    cases stage with
    | opened => cases hc : isCancelled current <;> simp [Stage.afterRead, hc] at hbegun
    | _ => exact hbegun
  notBegun hnot := (hown.notBegun fun heq => hnot (by rw [heq]; rfl)).cons rfl nofun

end Cons

/-! ### The code, function by function -/

section Functions

variable {b : Backend} {own : List Performed} {i : UUID} {stepName : String} {stage : Stage}
variable {ctx : WorkflowContext}

theorem recordEvent_records {ty : EventType} {data : JSONDict}
    (hbegins : ty = .stepStarted → NotEnded own)
    (hends : ty.endsStep = true → (firstRead own = some true ∧ NotBegun own) ∨
      (firstRead own = some false ∧ Begun own i (data.lookup "step_name"))) :
    Records b (recordEvent i ty data) own
      (fun _ own' => ∃ t t' n,
        own' = ⟨t', .saveEvent ⟨i, ty, data, n⟩, .ok ()⟩ :: ⟨t, .getNextSequence i, n⟩ :: own)
      (fun e _ => e.kind = .other) := by
  simp only [Records, recordEvent, safe_bind, safe_perform]
  refine ⟨trivial, ?_⟩
  rintro n _ ⟨t, _, -, rfl⟩
  have hread : firstRead (⟨t, .getNextSequence i, n⟩ :: own) = firstRead own :=
    (firstRead_cons rfl).trans Option.or_none
  refine ⟨⟨⟨t, own, rfl⟩, ?_, fun hty => ?_⟩, ?_⟩
  · exact fun hty => (hbegins hty).cons rfl fun _ h => absurd h (Option.not_mem_none _)
  · rw [hread]
    exact (hends hty).imp
      (fun h => ⟨h.1, h.2.cons rfl fun _ h => absurd h (Option.not_mem_none _)⟩)
      fun h => ⟨h.1, h.2.cons rfl⟩
  · rintro saved _ ⟨t', w', hstep, rfl⟩
    have hanswer := (step_saveEvent.mp hstep).1
    simp only [World.saveEvent] at hanswer
    split_ifs at hanswer
    · subst hanswer
      rfl
    · subst hanswer
      exact ⟨t, t', n, rfl⟩

theorem recordEvent_aside {ty : EventType} {data : JSONDict} (hbegins : ty ≠ .stepStarted)
    (hends : ty.endsStep = false) :
    Records b (recordEvent i ty data) own (fun _ _ => True) fun _ _ => True :=
  (recordEvent_records (fun h => absurd h hbegins) fun h => by rw [hends] at h; cases h).mono
    (fun _ _ _ => trivial) fun _ _ _ => trivial

theorem recordEvent_begins {data : JSONDict}
    (hdata : data.lookup "step_name" = some (.str stepName)) (h : AtStage i stepName stage own)
    (hstage : stage = .live ∨ stage = .begun) :
    Records b (recordEvent i .stepStarted data) own (fun _ own' => AtStage i stepName .begun own')
      fun e _ => e.kind = .other := by
  refine (recordEvent_records (fun _ => h.notEnded) fun hty => absurd hty (by decide)).mono ?_
    fun _ _ => id
  rintro _ _ ⟨t, t', n, rfl⟩
  have hnext : AtStage i stepName stage (⟨t, .getNextSequence i, n⟩ :: own) := h.cons rfl rfl rfl
  let event : WorkflowEvent := ⟨i, .stepStarted, data, n⟩
  refine ⟨?_, hnext.notEnded.cons rfl ?_,
    fun _ => ⟨⟨t', .saveEvent event, .ok ()⟩, ?_, event, rfl, rfl, rfl, hdata⟩,
    fun hnot => absurd rfl hnot⟩
  · rw [firstRead_cons rfl, hnext.read]
    rcases hstage with rfl | rfl <;> rfl
  · rintro event ⟨⟩
    rfl
  · rw [ofStep_cons rfl]
    exact List.mem_cons_self

theorem recordEvent_ends {ty : EventType} {data : JSONDict}
    (hdata : data.lookup "step_name" = some (.str stepName)) (hty : ty ≠ .stepStarted)
    (h : AtStage i stepName stage own) (hstage : stage = .cancelled ∨ stage = .begun) :
    Records b (recordEvent i ty data) own (fun _ _ => True) fun e _ => e.kind = .other := by
  refine (recordEvent_records (fun hb => absurd hb hty) fun _ => ?_).mono (fun _ _ _ => trivial)
    fun _ _ => id
  rw [hdata]
  rcases hstage with rfl | rfl
  · exact .inl ⟨h.read, h.notBegun nofun⟩
  · exact .inr ⟨h.read, h.begun rfl⟩

variable {inst : WorkflowInstance} {call : ActivityCall} {step : WorkflowStep}

theorem assignAndSave_records {set : Assigned} :
    Records b (assignAndSave inst set) own (fun _ _ => True) fun _ _ => True := by
  simp only [Records, assignAndSave, safe_bind, safe_perform]
  refine ⟨trivial, fun saved own' _ => ?_⟩
  cases saved with
  | ok _ => trivial
  | error e => trivial

theorem registerFor_records (h : AtStage i stepName stage own) :
    Records b (registerFor ctx call step) own
      (fun ctx' own' => ctx'.workflowInstance = ctx.workflowInstance ∧
        AtStage i stepName stage own') fun _ _ => True := by
  cases hcomp : call.compensation with
  | none => simpa [Records, registerFor, hcomp] using h
  | some handler =>
    simp only [Records, registerFor, hcomp, WorkflowContext.registerCompensation, safe_bind,
      safe_perform, safe_pure]
    refine ⟨trivial, ?_⟩
    rintro id _ ⟨w₁, _, -, rfl⟩
    refine ⟨trivial, ?_⟩
    rintro createdAt _ ⟨w₂, _, -, rfl⟩
    refine ⟨trivial, ?_⟩
    rintro _ _ ⟨w₃, _, -, rfl⟩
    refine ⟨trivial, ?_⟩
    rintro _ _ ⟨w₄, _, -, rfl⟩
    exact ⟨trivial, (((h.cons rfl rfl rfl).cons rfl rfl rfl).cons rfl rfl rfl).cons rfl rfl rfl⟩

theorem getCachedStepResult_records {key : String} :
    Records b (getCachedStepResult ctx key) own (fun _ _ => True) fun _ _ => True := by
  simp only [Records, getCachedStepResult, safe_bind, safe_perform]
  refine ⟨trivial, fun cached _ _ => ?_⟩
  cases cached.filter (· ≠ []) with
  | some members => trivial
  | none =>
    simp only [safe_bind, safe_perform]
    refine ⟨trivial, fun existing _ _ => ?_⟩
    cases existing.filter (·.status = .completed) with
    | none => trivial
    | some row =>
      cases hout : row.output with
      | obj d =>
        simp only [hout, safe_bind, safe_perform, safe_pure]
        exact ⟨trivial, fun _ _ _ => trivial⟩
      | _ => simp only [hout, safe_pure]

theorem completeStep_records {result : Json} {key : String}
    (h : AtStage ctx.workflowInstance.id stepName .begun own) :
    Records b (completeStep ctx step stepName result key) own (fun _ _ => True)
      fun e _ => e.kind = .other := by
  simp only [Records, completeStep, safe_bind, safe_perform]
  refine ⟨trivial, ?_⟩
  rintro _ _ ⟨w₁, _, -, rfl⟩
  refine ⟨trivial, ?_⟩
  rintro _ _ ⟨w₂, _, -, rfl⟩
  have hnow := (h.cons (e := ⟨w₁, .saveStep (completedStep step result), ()⟩) rfl rfl rfl).cons
    (e := ⟨w₂, .setStepResult ctx.workflowInstance.id ctx.workflowId key
      (coerceJsonDict result), ()⟩) rfl rfl rfl
  exact recordEvent_ends rfl (by decide) hnow (.inr rfl)

theorem failStep_records {e : PyExc} (h : AtStage ctx.workflowInstance.id stepName stage own)
    (hstage : stage = .cancelled ∨ stage = .begun) :
    Records b (failStep ctx step stepName e) own (fun _ _ => True) fun _ _ => True := by
  simp only [Records, failStep, safe_bind, safe_perform]
  refine ⟨trivial, ?_⟩
  rintro _ _ ⟨w₁, _, -, rfl⟩
  refine (recordEvent_ends rfl (by decide) (h.cons rfl rfl rfl) hstage).mono (fun _ _ => id)
    fun _ _ _ => trivial

theorem tryActivity_records {key : String} {attempt : ℕ}
    (h : AtStage ctx.workflowInstance.id call.stepName stage own)
    (hstage : stage = .opened ∨ stage = .begun) :
    Records b (tryActivity ctx step call key attempt) own
      (fun out own' => ∀ e, out.2 = .error e → e.kind = .other ∨
        (e.kind = .cancelled ∧ AtStage ctx.workflowInstance.id call.stepName .cancelled own') ∨
        AtStage ctx.workflowInstance.id call.stepName .begun own') fun _ _ => False := by
  simp only [Records, tryActivity, safe_bind, safe_perform]
  refine ⟨trivial, ?_⟩
  rintro current _ ⟨w₁, _, -, rfl⟩
  have hread := h.cons_getWorkflow w₁ ctx.workflowInstance.id current
  cases hcur : isCancelled current with
  | true =>
    rw [hcur] at hread
    simp only [if_true, safe_pure]
    rintro e ⟨rfl⟩
    rcases hstage with rfl | rfl
    · exact .inr (.inl ⟨rfl, hread⟩)
    · exact .inr (.inr hread)
  | false =>
    rw [hcur] at hread
    have hlive : stage.afterRead false = .live ∨ stage.afterRead false = .begun :=
      hstage.imp (by rintro rfl; rfl) (by rintro rfl; rfl)
    simp only [Bool.false_eq_true, if_false, safe_bind, safe_perform, safe_attempt]
    refine ⟨trivial, ?_⟩
    rintro _ _ ⟨w₂, _, -, rfl⟩
    refine (recordEvent_begins rfl (hread.cons rfl rfl rfl) hlive).mono ?_ ?_
    · intro _ own₁ hbegun
      refine ⟨trivial, ?_⟩
      rintro result _ ⟨w₃, _, -, rfl⟩
      have hcalled : AtStage ctx.workflowInstance.id call.stepName .begun _ :=
        hbegun.cons (e := ⟨w₃, .callActivity ctx.workflowInstance.id key call.activity
          (orEmpty call.inputData), result⟩) rfl rfl rfl
      cases result with
      | error e =>
        rintro e' ⟨rfl⟩
        exact .inr (.inr hcalled)
      | ok result =>
        simp only [safe_bind, safe_perform]
        refine ⟨trivial, ?_⟩
        rintro current _ ⟨w₄, _, -, rfl⟩
        have hchecked := hcalled.cons_getWorkflow w₄ ctx.workflowInstance.id current
        cases hcur : isCancelled current with
        | true =>
          simp only [if_true, safe_pure]
          rintro e ⟨rfl⟩
          exact .inr (.inr hchecked)
        | false =>
          simp only [Bool.false_eq_true, if_false, safe_bind, safe_attempt]
          refine (completeStep_records hchecked).mono ?_ ?_
          · rintro _ _ - e ⟨⟩
          · rintro e _ hother e' ⟨rfl⟩
            exact .inl hother
    · rintro e _ hother e' ⟨rfl⟩
      exact .inl hother

theorem runActivityWithRetry_records {key : String} (remaining : ℕ) :
    ∀ {own : List Performed} {stage : Stage} {attempt : ℕ} {step : WorkflowStep}
      {lastError : Option PyExc}, AtStage ctx.workflowInstance.id call.stepName stage own →
      stage = .opened ∨ stage = .begun → (∀ e, lastError = some e → stage = .begun) →
        Records b (runActivityWithRetry ctx call key remaining attempt step lastError) own
          (fun out own' => ∀ e, out.2 = .error (some e) →
            AtStage ctx.workflowInstance.id call.stepName .cancelled own' ∨
              AtStage ctx.workflowInstance.id call.stepName .begun own') fun _ _ => True := by
  induction remaining with
  | zero =>
    intro own stage attempt step lastError h hstage hlast e he
    cases he
    exact .inr (hlast e rfl ▸ h)
  | succ remaining ih =>
    intro own stage attempt step lastError h hstage hlast
    simp only [Records, runActivityWithRetry, safe_bind]
    refine (tryActivity_records h hstage).mono ?_ fun _ _ h => h.elim
    rintro ⟨step', result⟩ own' hout
    cases result with
    | ok result => rintro e ⟨⟩
    | error e =>
      have herror := hout e rfl
      cases hkind : e.kind with
      | other =>
        simp only [hkind]
        trivial
      | cancelled =>
        simp only [hkind]
        rintro e' ⟨rfl⟩
        rw [hkind] at herror
        have hafter := herror.resolve_left fun h => by cases h
        exact hafter.imp And.right id
      | timeout =>
        simp only [hkind]
        rw [hkind] at herror
        have hafter := herror.resolve_left fun h => by cases h
        have hbegun := hafter.resolve_left fun h => by cases h.1
        exact ih hbegun (.inr rfl) fun _ _ => rfl
      | operation =>
        simp only [hkind]
        rw [hkind] at herror
        have hafter := herror.resolve_left fun h => by cases h
        have hbegun := hafter.resolve_left fun h => by cases h.1
        exact ih hbegun (.inr rfl) fun _ _ => rfl

variable {E : DurableWorkflowExecutor}

theorem runStep_records {key : String}
    (h : AtStage ctx.workflowInstance.id call.stepName .opened own) :
    Records b (E.runStep ctx call key step) own (fun _ _ => True) fun _ _ => True := by
  simp only [Records, runStep, safe_bind]
  refine (runActivityWithRetry_records _ h (.inl rfl) (by rintro e ⟨⟩)).mono ?_ fun _ _ _ => trivial
  rintro ⟨step', (_ | lastError) | result⟩ own' hout
  · trivial
  · simp only [safe_bind, safe_raise]
    rcases hout lastError rfl with hstage | hstage
    · exact failStep_records hstage (.inl rfl)
    · exact failStep_records hstage (.inr rfl)
  · trivial

theorem executeActivity_records :
    Records b (E.executeActivity ctx call) own (fun _ _ => True) fun _ _ => True := by
  simp only [Records, executeActivity, safe_bind]
  refine getCachedStepResult_records.mono (fun found own₁ _ => ?_) fun _ _ _ => trivial
  cases found with
  | some cachedResult => trivial
  | none =>
    simp only [safe_bind, safe_perform, safe_attempt, safe_pure]
    refine ⟨trivial, ?_⟩
    rintro id _ ⟨w₁, _, -, rfl⟩
    refine ⟨trivial, ?_⟩
    rintro saved _ ⟨w₂, _, -, rfl⟩
    have hopened : AtStage ctx.workflowInstance.id call.stepName .opened
        (⟨w₂, .saveStep _, saved⟩ :: ⟨w₁, .uuid4 [], id⟩ :: own₁) := .opened rfl
    refine (registerFor_records hopened).mono ?_ fun _ _ _ => trivial
    rintro ctx' own₂ ⟨hinst, hopened⟩
    exact (runStep_records (hinst ▸ hopened)).mono (fun _ _ _ => trivial) fun _ _ _ => trivial

theorem runWorkflow_records (body : WorkflowBody) :
    ∀ {own : List Performed} {ctx : WorkflowContext},
      Records b (E.runWorkflow ctx body) own (fun _ _ => True) fun _ _ => True := by
  induction body with
  | ret value => exact trivial
  | raise e => exact trivial
  | activity call k ih =>
    intro own ctx
    simp only [Records, runWorkflow, safe_bind]
    refine executeActivity_records.mono ?_ fun _ _ _ => trivial
    rintro ⟨ctx', result⟩ own' -
    exact ih result

theorem invokeHandler_records {comp : WorkflowCompensation} :
    Records b (invokeHandler ctx comp) own (fun _ _ => True) fun _ _ => True := by
  simp only [Records, invokeHandler]
  cases ctx.handler comp.compensationName with
  | none => trivial
  | some handler =>
    simp only [safe_bind, safe_perform]
    refine ⟨trivial, fun result _ _ => ?_⟩
    cases result with
    | ok result => trivial
    | error e => trivial

theorem tryCompensation_records {comp : WorkflowCompensation} :
    Records b (tryCompensation ctx comp) own (fun _ _ => True) fun _ _ => True := by
  simp only [Records, tryCompensation, safe_bind, safe_attempt]
  refine (recordEvent_aside (by decide) rfl).mono (fun _ _ _ => ?_) fun _ _ _ => trivial
  refine ⟨trivial, fun _ _ _ => ?_⟩
  refine invokeHandler_records.mono (fun called _ _ => ?_) fun _ _ _ => trivial
  cases called with
  | error e => trivial
  | ok comp =>
    simp only [safe_bind, safe_perform, safe_attempt, safe_pure]
    exact ⟨trivial, fun _ _ _ => recordEvent_aside (by decide) rfl⟩

theorem runCompensation_records {comp : WorkflowCompensation} :
    Records b (runCompensation ctx comp) own (fun _ _ => True) fun _ _ => True := by
  simp only [Records, runCompensation]
  split
  · trivial
  simp only [safe_bind]
  refine tryCompensation_records.mono ?_ fun _ _ _ => trivial
  rintro ⟨comp', result⟩ own₁ -
  cases result with
  | ok _ => trivial
  | error e =>
    simp only
    split
    · simp only [safe_bind, safe_perform]
      exact ⟨trivial, fun _ _ _ => recordEvent_aside (by decide) rfl⟩
    · trivial

theorem runCompensationLoop_records (comps : List WorkflowCompensation) :
    ∀ {own : List Performed}, Records b (runCompensationLoop ctx comps) own (fun _ _ => True)
      fun _ _ => True := by
  induction comps with
  | nil => exact trivial
  | cons comp rest ih =>
    intro own
    simp only [Records, runCompensationLoop, safe_bind]
    exact runCompensation_records.mono (fun _ _ _ => ih) fun _ _ _ => trivial

theorem handleWorkflowError_records {e : PyExc} :
    Records b (handleWorkflowError inst ctx e) own (fun _ _ => True) fun _ _ => True := by
  have hfailed : Records b (finalizeWorkflowFailed inst ctx e) own (fun _ _ => True)
      fun _ _ => True := by
    simp only [Records, finalizeWorkflowFailed, runCompensations, safe_bind, safe_perform]
    refine (recordEvent_aside (by decide) rfl).mono (fun _ _ _ => ?_) fun _ _ _ => trivial
    refine assignAndSave_records.mono (fun _ _ _ => ?_) fun _ _ _ => trivial
    refine ⟨trivial, fun _ _ _ => ⟨trivial, fun comps _ _ => ?_⟩⟩
    refine (runCompensationLoop_records comps).mono (fun _ _ _ => ?_) fun _ _ _ => trivial
    exact assignAndSave_records.mono (fun _ _ _ => assignAndSave_records) fun _ _ _ => trivial
  simp only [Records, handleWorkflowError]
  cases e.kind with
  | timeout => exact hfailed
  | operation => exact hfailed
  | cancelled => exact assignAndSave_records
  | other => trivial

theorem concludeWorkflow_records {result : Except PyExc Json} :
    Records b (concludeWorkflow inst ctx result) own (fun _ _ => True) fun _ _ => True := by
  cases result with
  | error e => exact handleWorkflowError_records
  | ok value =>
    simp only [Records, concludeWorkflow, finalizeWorkflowSuccess, safe_bind, safe_attempt,
      safe_pure]
    refine assignAndSave_records.mono (fun inst' _ _ => ?_) fun e _ _ => ?_
    · exact (recordEvent_aside (by decide) rfl).mono (fun _ _ _ => trivial)
        fun e _ _ => handleWorkflowError_records
    · exact handleWorkflowError_records

theorem executeWorkflow_records :
    Records b (E.executeWorkflow inst) own (fun _ _ => True) fun _ _ => True := by
  simp only [Records, executeWorkflow]
  split
  · trivial
  cases E.workflows inst.workflowType with
  | none => trivial
  | some func =>
    simp only [runInstance_eq, safe_bind]
    refine assignAndSave_records.mono (fun inst' _ _ => ?_) fun _ _ _ => trivial
    refine Safe.mono (runWorkflow_records _) ?_ fun _ _ _ => trivial
    rintro ⟨ctx, result⟩ _ -
    exact concludeWorkflow_records

theorem startWorkflow_records {ty wid tid : String} {input : Option JSONDict} :
    Records b (E.startWorkflow ty wid tid input) own (fun _ _ => True) fun _ _ => True := by
  simp only [Records, startWorkflow]
  split
  · trivial
  simp only [safe_bind, safe_perform]
  refine ⟨trivial, fun existing _ _ => ?_⟩
  split
  · trivial
  simp only [safe_bind, safe_perform]
  refine ⟨trivial, fun id _ _ => ?_⟩
  refine assignAndSave_records.mono (fun inst _ _ => ?_) fun _ _ _ => trivial
  exact (recordEvent_aside (by decide) rfl).mono (fun _ _ _ => trivial) fun _ _ _ => trivial

theorem cancelWorkflow_records {wid tid reason : String} :
    Records b (cancelWorkflow wid tid reason) own (fun _ _ => True) fun _ _ => True := by
  simp only [Records, cancelWorkflow, safe_bind, safe_perform]
  refine ⟨trivial, fun found _ _ => ?_⟩
  cases found with
  | none => trivial
  | some inst =>
    simp only
    split
    · trivial
    simp only [safe_bind]
    refine assignAndSave_records.mono (fun inst' _ _ => ?_) fun _ _ _ => trivial
    exact (recordEvent_aside (by decide) rfl).mono (fun _ _ _ => trivial) fun _ _ _ => trivial

/-- **Every task records as it may.** -/
theorem Task.code_records (t : Task) :
    Records b (t.code E) own (fun _ _ => True) fun _ _ => True := by
  have hdone {α : Type} {p : Code α} (h : Records b p own (fun _ _ => True) fun _ _ => True) :
      Records b (do let _ ← p; return ()) own (fun _ _ => True) fun _ _ => True := by
    rw [Records, safe_bind]
    exact h.mono (fun _ _ _ => trivial) fun _ _ _ => trivial
  cases t with
  | call c =>
    cases c with
    | start ty wid tid input => exact hdone startWorkflow_records
    | execute inst => exact hdone executeWorkflow_records
    | resume wid tid =>
      refine hdone ?_
      simp only [Records, resumeWorkflow, safe_bind, safe_perform]
      refine ⟨trivial, fun found _ _ => ?_⟩
      cases found with
      | none => trivial
      | some inst =>
        simp only
        split
        · trivial
        · exact executeWorkflow_records
    | cancel wid tid reason => exact hdone cancelWorkflow_records
    | status wid tid => exact hdone ⟨trivial, fun _ _ _ => trivial⟩
  | opening inst => exact hdone assignAndSave_records
  | activity ctx step => exact hdone executeActivity_records
  | checkpoint ctx stepIndex =>
    simp only [Records, Task.code, createCheckpoint, safe_bind, safe_perform]
    exact ⟨trivial, fun _ _ _ => recordEvent_aside (by decide) rfl⟩
  | conclusion inst ctx result => exact hdone concludeWorkflow_records

end Functions

/-! ## Whole runs -/

section Runs

variable {E : DurableWorkflowExecutor} {b : Backend} {tasks : List Task} {P : TaskPool}

theorem Recording.mayDo (h : Recording E b tasks P) :
    Pool.Along (fun before e _ => MayDo (ownOf e.1.2 before) e.2.op) P.state P.log := by
  refine (h.own_safe Prod.snd (fun _ => MayDo) (fun _ _ _ => True) (fun _ _ _ => True) ?_ ?_).1
  · rw [TaskPool.start, List.pairwise_map, ← List.pairwise_map (f := Prod.snd) (R := (· ≠ ·)),
      List.zipIdx_map_snd]
    exact List.nodup_range'
  · rintro t hmem
    obtain ⟨⟨task, number⟩, -, rfl⟩ := List.mem_map.mp hmem
    exact Task.code_records task

variable {w w' : World} {log : TaskLog} {o : Op} {r : o.Resp} {t : Task × ℕ}

/-- **One operation.**  The numbers stay `1..n` exactly if, in memory, the recorder was not
disturbed. -/
theorem gapless_step (hsteps : Steps b w log) (hnum : Numbered w)
    (hmay : MayDo (ownOf t.2 log) o) (hstep : Step b w o r w') :
    (Gapless w' ↔ (b = .inMemory → Undisturbed log (t, ⟨w, o, r⟩))) ∧
      (Gapless w' → Numbered w') := by
  by_cases hsave : ∃ event, o = .saveEvent event
  · obtain ⟨event, rfl⟩ := hsave
    obtain ⟨rfl, rfl⟩ := step_saveEvent.mp hstep
    obtain ⟨t', own, hown⟩ := hmay.read
    obtain ⟨hgrown, hread⟩ := eventsOf_own hsteps hnum hown
    by_cases hsince : recordedOf event.workflowInstanceId (log.takeWhile fun e => e.1.2 ≠ t.2) = []
    · -- Nothing was recorded since the number was read
      have hnext : Numbered (w.saveEvent b event).2 :=
        hnum.saveEvent_next (by rw [hgrown, hsince, List.append_nil, hread])
      refine ⟨iff_of_true hnext.gapless fun _ event' hrec => ?_, fun _ => hnext⟩
      cases op_of_mem_recorded hrec
      exact recordedOf_eq_nil.mp hsince
    · have hused : event.sequenceNumber ∈
          (w.events event.workflowInstanceId).map WorkflowEvent.sequenceNumber := by
        have hpos := List.length_pos_iff.mpr hsince
        rw [hnum, hgrown, List.length_append, List.mem_range'_1]
        omega
      cases b with
      | postgres =>
        rw [saveEvent_used_postgres hused]
        exact ⟨iff_of_true hnum.gapless nofun, fun _ => hnum⟩
      | inMemory =>
        have hnot := not_gapless_saveEvent_used hused
        refine ⟨iff_of_false hnot fun hundisturbed => hsince ?_, fun h => absurd h hnot⟩
        refine recordedOf_eq_nil.mpr (hundisturbed rfl event ?_)
        simp [recorded, recordedBy, World.saveEvent]
  · have hother (event : WorkflowEvent) : o ≠ .saveEvent event := fun heq => hsave ⟨event, heq⟩
    have hsame : Numbered w' := by
      rw [Numbered, (step_frame hstep).events hother]
      exact hnum
    refine ⟨iff_of_true hsame.gapless fun _ event hrec => ?_, fun _ => hsame⟩
    exact absurd (op_of_mem_recorded hrec) (hother event)

/-- **One operation.**  The step is in order exactly if it was not cancelled before it began. -/
theorem stepInOrder_step (hsteps : Steps b w log) (hmay : MayDo (ownOf t.2 log) o) :
    StepInOrder log (t, ⟨w, o, r⟩) ↔ LiveAtStart log (t, ⟨w, o, r⟩) := by
  refine forall_congr' fun event => forall_congr' fun hrec => ?_
  obtain rfl : o = .saveEvent event := op_of_mem_recorded hrec
  rw [and_iff_right hmay.begins]
  refine forall_congr' fun hends => ?_
  obtain ⟨t', own, hown⟩ := hmay.read
  rcases hmay.ends hends with ⟨hfirst, hnot⟩ | ⟨hfirst, hbegun⟩
  · refine iff_of_false ?_ (absurd hfirst)
    rintro ⟨e, he, begun, hmem, htype, -⟩
    exact hnot e he begun hmem htype
  · refine iff_of_true ?_ (by rw [hfirst]; decide)
    obtain ⟨e, he, begun, hmem, htype, hinst, hname⟩ := hbegun
    refine ⟨e, he, begun, hmem, htype, hinst, hname, ?_⟩
    have hown' : e ∈ ownOf t.2 log := List.takeWhile_subset _ he
    rw [hown] at hown'
    rcases List.mem_cons.mp hown' with rfl | hown'
    · cases hmem
    · exact recorded_lt_read hsteps hown hown' hmem hinst

/-- **The event log of concurrent activities.**  For every run of any tasks: the numbers of every
instance are `1..n` in every state, and every step is ended after it has begun, exactly if in
memory no task recorded an event of an instance between another's `get_next_sequence` and
`save_event`, and no step was ended that had found its instance cancelled at its first attempt. -/
theorem eventLogSound_iff (E : DurableWorkflowExecutor) (b : Backend) (tasks : List Task)
    (P : TaskPool) (hreach : Recording E b tasks P) : EventLogSound P ↔ RecordersApart b P := by
  have hkept : (EventLogSound P ↔ RecordersApart b P) ∧ (EventLogSound P → Numbered P.state) := by
    induction hreach with
    | init => exact ⟨Iff.rfl, fun _ => numbered_empty⟩
    | spawn _ hspawn _ => exact hspawn.elim
    | @step before after l o k s s' log r hreach hstep ih =>
      obtain ⟨hiff, hnum⟩ := ih
      have hmay := (Recording.mayDo (.step hreach hstep)).1
      have hsteps := hreach.along_step
      refine ⟨⟨fun h => ?_, fun h => ?_⟩, fun h => ?_⟩
      · obtain ⟨⟨hgapless, horder⟩, hbefore⟩ := h
        have hone := gapless_step hsteps (hnum hbefore) hmay hstep
        exact ⟨⟨hone.1.mp hgapless, (stepInOrder_step hsteps hmay).mp horder⟩, hiff.mp hbefore⟩
      · obtain ⟨⟨hapart, hlive⟩, hbefore⟩ := h
        have hone := gapless_step hsteps (hnum (hiff.mpr hbefore)) hmay hstep
        exact ⟨⟨hone.1.mpr hapart, (stepInOrder_step hsteps hmay).mpr hlive⟩, hiff.mpr hbefore⟩
      · obtain ⟨⟨hgapless, -⟩, hbefore⟩ := h
        exact (gapless_step hsteps (hnum hbefore) hmay hstep).2 hgapless
  exact hkept.1

end Runs

instance Undisturbed.decidable (before : TaskLog) (e : (Task × ℕ) × Performed) :
    Decidable (Undisturbed before e) :=
  inferInstanceAs (Decidable (∀ event ∈ recorded e.2,
    ∀ e' ∈ before.takeWhile fun e' => e'.1.2 ≠ e.1.2,
      ∀ event' ∈ recorded e'.2, event'.workflowInstanceId ≠ event.workflowInstanceId))

instance LiveAtStart.decidable (before : TaskLog) (e : (Task × ℕ) × Performed) :
    Decidable (LiveAtStart before e) :=
  inferInstanceAs (Decidable (∀ event ∈ recorded e.2, event.eventType.endsStep = true →
    firstRead (ownOf e.1.2 before) ≠ some true))

instance RecordersApart.decidable (b : Backend) (P : TaskPool) : Decidable (RecordersApart b P) :=
  inferInstanceAs (Decidable (Pool.Along _ P.state P.log))

/-- Up to `n` operations of a task, in an uneventful environment. -/
def TaskPool.goOn (b : Backend) (task n : ℕ) (P : TaskPool) : TaskPool :=
  P.ticks (fun w o a => w.perform b o a) (fun _ => calm) task n

theorem Recording.goOn {E : DurableWorkflowExecutor} {b : Backend} {tasks : List Task}
    {P : TaskPool} (h : Recording E b tasks P) (task n : ℕ) :
    Recording E b tasks (P.goOn b task n) :=
  Pool.Reach.ticks n h

/-- A transfer, as `start_workflow` returns it. -/
def startedTransfer : WorkflowInstance where
  id := ⟨1⟩
  workflowType := "transfer"
  workflowId := "transfer-7"
  tenantId := "acme"
  constitutionalHash := "608508a9bd224290"

/-- One registered workflow; what it does is in its tasks. -/
def transferDesk : DurableWorkflowExecutor where
  constitutionalHash := "608508a9bd224290"
  workflows
    | "transfer" => some fun _ => .ret .null
    | _ => none
  digest key := key

/-- A transfer is started and executed; its workflow function debits and credits at once. -/
def transferTasks : List Task :=
  [.call (.start "transfer" "transfer-7" "acme" none), .opening startedTransfer,
    .activity { workflowInstance := startedTransfer } { stepName := "debit", activity := 1 },
    .activity { workflowInstance := startedTransfer } { stepName := "credit", activity := 2 },
    .conclusion startedTransfer { workflowInstance := startedTransfer } (.ok .null)]

/-- The transfer is about to begin its two activities. -/
def openedTransfer : TaskPool :=
  ((TaskPool.start transferDesk transferTasks).goOn .inMemory 0 5).goOn .inMemory 1 1

theorem openedTransfer_recording :
    Recording transferDesk .inMemory transferTasks openedTransfer :=
  (Recording.goOn .init 0 5).goOn 1 1

/-- Both activities begin, each before the other's event is saved. -/
def overlappingTransfer : TaskPool :=
  (((openedTransfer.goOn .inMemory 2 7).goOn .inMemory 3 7).goOn .inMemory 2 1).goOn .inMemory 3 1

/-- Both steps are recorded under number 2. -/
theorem overlappingTransfer_not_sound :
    Recording transferDesk .inMemory transferTasks overlappingTransfer ∧
      (overlappingTransfer.state.events ⟨1⟩).map WorkflowEvent.sequenceNumber = [1, 2, 2] ∧
      ¬EventLogSound overlappingTransfer := by
  refine ⟨(((openedTransfer_recording.goOn 2 7).goOn 3 7).goOn 2 1).goOn 3 1, by decide,
    fun h => ?_⟩
  have hgapless : ((overlappingTransfer.state.events ⟨1⟩).map WorkflowEvent.sequenceNumber).Perm
      (List.range' 1 (overlappingTransfer.state.events ⟨1⟩).length) := h.1.1 ⟨1⟩
  revert hgapless
  decide

/-- Both activities are in flight, but neither begins to record while the other does. -/
def alternatingTransfer : TaskPool :=
  ((((openedTransfer.goOn .inMemory 2 8).goOn .inMemory 3 8).goOn .inMemory 2 6).goOn .inMemory 3
    6).goOn .inMemory 4 3

/-- The theorem at a transfer whose recorders keep apart. -/
theorem eventLogSound_alternatingTransfer : EventLogSound alternatingTransfer :=
  (eventLogSound_iff transferDesk .inMemory transferTasks alternatingTransfer
    (((((openedTransfer_recording.goOn 2 8).goOn 3 8).goOn 2 6).goOn 3 6).goOn 4 3)).mpr
    (by decide)

end EnhancedAgentBus.Persistence
