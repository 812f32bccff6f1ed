import EnhancedAgentBus.Persistence.Models
import EnhancedAgentBus.Lib.Async
import Mathlib.Data.List.Sort

/-!
# The repositories, the result cache, and what a call to them does

`World` is everything the executor shares with others: the tables of the workflow
repository, the entries of `workflow_cache`, the identifiers drawn so far and the clock.
`Op` lists the calls the executor awaits, and `World.perform` says what one call answers
and leaves behind, for both repositories:

* the in-memory one hands out its own objects, so what the executor assigns to an instance
  shows in the store, and reversing the compensations it returned reverses the stored list;
* the Postgres one hands out copies, so a save overwrites the row with the copy; it refuses a
  second row under a unique key, and returns at most 100 rows in one page.

What a call cannot decide alone is an `Answer`: the identifier drawn, the time, whether the
cache still holds its entries, which row a query without `ORDER BY` returns, and what an activity
or a handler does.  `Step` is a call with some answer.
-/

namespace EnhancedAgentBus.Persistence

open Async

/-- Which `WorkflowRepository` is in use. -/
inductive Backend where
  | inMemory
  | postgres
  deriving DecidableEq

structure World where
  /-- the instances, in insertion order -/
  workflows : List WorkflowInstance := []
  /-- the step rows, in insertion order -/
  steps : List WorkflowStep := []
  /-- the event log of an instance -/
  events : UUID → List WorkflowEvent := fun _ => []
  /-- the compensation records of an instance, as the repository keeps them -/
  compensations : UUID → List WorkflowCompensation := fun _ => []
  /-- `workflow_cache`: a step result under its workflow id and idempotency key -/
  cache : String → String → Option JSONDict := fun _ _ => none
  /-- the identifiers `uuid4` has drawn -/
  drawn : List UUID := []
  /-- the latest time read -/
  clock : ℕ := 0

def upsert {α : Type} (id : α → UUID) (row : α) : List α → List α
  | [] => [row]
  | old :: rest => if id old = id row then row :: rest else old :: upsert id row rest

def pageLimit : ℕ := 100

namespace World

/-! ## `WorkflowRepository` -/

def getWorkflow (w : World) (id : UUID) : Option WorkflowInstance :=
  w.workflows.find? fun wf => wf.id = id

/-- `get_workflow_by_business_id`: the first row that matches. -/
def getWorkflowByBusinessId (w : World) (workflowId tenantId : String) :
    Option WorkflowInstance :=
  w.workflows.find? fun wf => wf.workflowId = workflowId ∧ wf.tenantId = tenantId

/-- What a saved instance leaves in the stored row: in memory the stored row is the object
itself, in Postgres the saved copy overwrites the columns the `UPDATE` names. -/
def mergeWorkflow (b : Backend) (set : Assigned) (old inst : WorkflowInstance) :
    WorkflowInstance :=
  match b with
  | .inMemory => old.assign set
  | .postgres =>
    let new := inst.assign set
    { old with status := new.status, output := new.output, error := new.error }

/-- `save_workflow`, after the assignments `set`.  Postgres refuses a second row under one
`(workflow_id, tenant_id)`. -/
def saveWorkflow (b : Backend) (inst : WorkflowInstance) (set : Assigned) (w : World) :
    Except PyExc Unit × World :=
  if (w.getWorkflow inst.id).isSome then
    (.ok (), { w with
      workflows := w.workflows.map fun old =>
        if old.id = inst.id then mergeWorkflow b set old inst else old })
  else if b = .postgres ∧ (w.getWorkflowByBusinessId inst.workflowId inst.tenantId).isSome then
    (.error ⟨.other, "duplicate key value violates unique constraint"⟩, w)
  else
    (.ok (), { w with workflows := w.workflows ++ [inst.assign set] })

/-- `save_step`.  The columns the Postgres `UPDATE` leaves out (name, input, key) are ones the
executor never assigns again, so the row is the step in both. -/
def saveStep (step : WorkflowStep) (w : World) : World :=
  { w with steps := upsert WorkflowStep.id step w.steps }

def stepsUnder (w : World) (instanceId : UUID) (key : String) : List WorkflowStep :=
  w.steps.filter fun s => s.workflowInstanceId = instanceId ∧ s.idempotencyKey = some key

/-- `get_step_by_idempotency_key`: the first row in memory, any matching row in Postgres,
where the query has no `ORDER BY`. -/
def getStepByIdempotencyKey (b : Backend) (w : World) (instanceId : UUID) (key : String)
    (pick : ℕ) : Option WorkflowStep :=
  let rows := w.stepsUnder instanceId key
  match b with
  | .inMemory => rows.head?
  | .postgres => rows[pick % rows.length]?

def getNextSequence (w : World) (instanceId : UUID) : ℕ :=
  ((w.events instanceId).map WorkflowEvent.sequenceNumber).foldr max 0 + 1

/-- `save_event`.  Postgres refuses a sequence number used before. -/
def saveEvent (b : Backend) (event : WorkflowEvent) (w : World) : Except PyExc Unit × World :=
  let stored := w.events event.workflowInstanceId
  if b = .postgres ∧ event.sequenceNumber ∈ stored.map WorkflowEvent.sequenceNumber then
    (.error ⟨.other, "duplicate key value violates unique constraint"⟩, w)
  else
    (.ok (), { w with
      events := Function.update w.events event.workflowInstanceId (stored ++ [event]) })

/-- `get_events`: ordered by sequence number, one page of them in Postgres. -/
def getEvents (b : Backend) (w : World) (instanceId : UUID) : List WorkflowEvent :=
  let ordered := (w.events instanceId).insertionSort fun a b =>
    a.sequenceNumber ≤ b.sequenceNumber
  match b with
  | .inMemory => ordered
  | .postgres => ordered.take pageLimit

/-- `save_compensation`; as for steps, the row is the record in both. -/
def saveCompensation (comp : WorkflowCompensation) (w : World) : World :=
  { w with
    compensations := Function.update w.compensations comp.workflowInstanceId
      (upsert WorkflowCompensation.id comp (w.compensations comp.workflowInstanceId)) }

/-- `get_compensations`: the stored list in memory, one page by creation time in Postgres. -/
def getCompensations (b : Backend) (w : World) (instanceId : UUID) :
    List WorkflowCompensation :=
  match b with
  | .inMemory => w.compensations instanceId
  | .postgres =>
    ((w.compensations instanceId).insertionSort fun a b => a.createdAt ≤ b.createdAt).take
      pageLimit

/-- What `list.reverse()` on the compensations just fetched does to the store: the in-memory
repository returned the stored list itself. -/
def reverseCompensations (b : Backend) (instanceId : UUID) (w : World) : World :=
  match b with
  | .inMemory =>
    { w with
      compensations :=
        Function.update w.compensations instanceId (w.compensations instanceId).reverse }
  | .postgres => w

/-! ## `workflow_cache` -/

def setCache (workflowId key : String) (value : Option JSONDict) (w : World) : World :=
  { w with
    cache := Function.update w.cache workflowId
      (Function.update (w.cache workflowId) key value) }

def invalidateCache (workflowId : String) (w : World) : World :=
  { w with cache := Function.update w.cache workflowId fun _ => none }

end World

/-! ## The calls the executor awaits -/

inductive Op where
  /-- `uuid4()`; the caller holds the texts `held` -/
  | uuid4 (held : List String)
  /-- `datetime.now(UTC)` -/
  | now
  | getWorkflow (id : UUID)
  | getWorkflowByBusinessId (workflowId tenantId : String)
  /-- the assignments `set`, then `save_workflow` -/
  | saveWorkflow (inst : WorkflowInstance) (set : Assigned)
  | saveStep (step : WorkflowStep)
  | getStepByIdempotencyKey (instanceId : UUID) (key : String)
  | getNextSequence (instanceId : UUID)
  | saveEvent (event : WorkflowEvent)
  /-- `context._compensation_handlers[name] = handler`, for the record `comp` -/
  | bindHandler (comp : WorkflowCompensation) (handler : Callable)
  | saveCompensation (comp : WorkflowCompensation)
  /-- `get_compensations`, then `reverse()` on the list it returned -/
  | getCompensationsReversed (instanceId : UUID)
  /-- `workflow_cache.get_step_result`, for the instance `caller`, which the cache never sees -/
  | getStepResult (caller : UUID) (workflowId key : String)
  /-- `workflow_cache.set_step_result`, for the instance `caller` -/
  | setStepResult (caller : UUID) (workflowId key : String) (value : JSONDict)
  | invalidateWorkflowState (workflowId : String)
  /-- `await activity(context, input)`, under an idempotency key -/
  | callActivity (instanceId : UUID) (key : String) (activity : Callable) (input : JSONDict)
  /-- `await handler(context, comp.input)`, for the record `comp` -/
  | callHandler (comp : WorkflowCompensation) (handler : Callable) (input : JSONDict)

@[reducible] def Op.Resp : Op → Type
  | uuid4 _ => UUID
  | now => ℕ
  | getWorkflow _ => Option WorkflowInstance
  | getWorkflowByBusinessId _ _ => Option WorkflowInstance
  | saveWorkflow _ _ => Except PyExc Unit
  | saveStep _ => Unit
  | getStepByIdempotencyKey _ _ => Option WorkflowStep
  | getNextSequence _ => ℕ
  | saveEvent _ => Except PyExc Unit
  | bindHandler _ _ => Unit
  | saveCompensation _ => Unit
  | getCompensationsReversed _ => List WorkflowCompensation
  | getStepResult _ _ _ => Option JSONDict
  | setStepResult _ _ _ _ => Unit
  | invalidateWorkflowState _ => Unit
  | callActivity _ _ _ _ => Except PyExc Json
  | callHandler _ _ _ => Except PyExc Json

inductive Answer where
  | plain
  | id (u : UUID)
  | time (t : ℕ)
  /-- which matching row a query returns -/
  | row (pick : ℕ)
  /-- the cache has lost the entries -/
  | lost
  /-- what an activity or a handler does -/
  | outcome (r : Except PyExc Json)

/-- **One call.**  The answer it gives and the world it leaves, when the environment
decides `a`; `none` when `a` is no decision about this call. -/
def World.perform (b : Backend) (w : World) : (o : Op) → Answer → Option (o.Resp × World)
  -- A fresh identifier, whose text nobody can have written down before
  | .uuid4 held, .id u =>
    if u ∈ w.drawn ∨ u.str ∈ held then none else some (u, { w with drawn := u :: w.drawn })
  | .now, .time t => if w.clock < t then some (t, { w with clock := t }) else none
  | .getWorkflow id, .plain => some (w.getWorkflow id, w)
  | .getWorkflowByBusinessId workflowId tenantId, .plain =>
    some (w.getWorkflowByBusinessId workflowId tenantId, w)
  | .saveWorkflow inst set, .plain => some (w.saveWorkflow b inst set)
  | .saveStep step, .plain => some ((), w.saveStep step)
  | .getStepByIdempotencyKey instanceId key, .row pick =>
    some (w.getStepByIdempotencyKey b instanceId key pick, w)
  | .getNextSequence instanceId, .plain => some (w.getNextSequence instanceId, w)
  | .saveEvent event, .plain => some (w.saveEvent b event)
  | .bindHandler _ _, .plain => some ((), w)
  | .saveCompensation comp, .plain => some ((), w.saveCompensation comp)
  | .getCompensationsReversed instanceId, .plain =>
    some ((w.getCompensations b instanceId).reverse, w.reverseCompensations b instanceId)
  | .getStepResult _ workflowId key, .plain => some (w.cache workflowId key, w)
  | .getStepResult _ workflowId key, .lost => some (none, w.setCache workflowId key none)
  | .setStepResult _ workflowId key value, .plain => some ((), w.setCache workflowId key value)
  -- What is invalidated may or may not include the step results
  | .invalidateWorkflowState _, .plain => some ((), w)
  | .invalidateWorkflowState workflowId, .lost => some ((), w.invalidateCache workflowId)
  | .callActivity _ _ _ _, .outcome r => some (r, w)
  | .callHandler _ _ _, .outcome r => some (r, w)
  | _, _ => none

def Step (b : Backend) (w : World) (o : Op) (r : o.Resp) (w' : World) : Prop :=
  ∃ a, w.perform b o a = some (r, w')

/-! ## The calls, one by one -/

theorem some_eq_answer {α : Type} {x : α × World} {r : α} {w' : World} :
    some x = some (r, w') ↔ r = x.1 ∧ w' = x.2 := by
  rw [Option.some_inj, Prod.ext_iff]
  exact and_congr eq_comm eq_comm

section Step

variable {b : Backend} {w w' : World}

theorem step_plain (o : Op) (x : o.Resp × World) {r : o.Resp}
    (hplain : w.perform b o .plain = some x)
    (hrest : ∀ a, a = .plain ∨ w.perform b o a = none) :
    Step b w o r w' ↔ r = x.1 ∧ w' = x.2 := by
  rw [← some_eq_answer, ← hplain]
  refine ⟨fun ⟨a, ha⟩ => ?_, fun h => ⟨.plain, h⟩⟩
  rcases hrest a with rfl | hnone
  · exact ha
  · rw [hnone] at ha
    cases ha

theorem step_outcome (o : Op) (f : Except PyExc Json → o.Resp) {r : o.Resp}
    (hf : ∀ r, ∃ x, f x = r)
    (houtcome : ∀ x, w.perform b o (.outcome x) = some (f x, w))
    (hrest : ∀ a, (∃ x, a = .outcome x) ∨ w.perform b o a = none) :
    Step b w o r w' ↔ w' = w := by
  constructor
  · rintro ⟨a, ha⟩
    rcases hrest a with ⟨x, rfl⟩ | hnone
    · rw [houtcome, some_eq_answer] at ha
      exact ha.2
    · rw [hnone] at ha
      cases ha
  · rintro rfl
    obtain ⟨x, rfl⟩ := hf r
    exact ⟨.outcome x, houtcome x⟩

@[simp] theorem step_uuid4 {held : List String} {u : UUID} :
    Step b w (.uuid4 held) u w' ↔
      u ∉ w.drawn ∧ u.str ∉ held ∧ w' = { w with drawn := u :: w.drawn } := by
  have hdraw (v : UUID) : w.perform b (.uuid4 held) (.id v) =
      if v ∈ w.drawn ∨ v.str ∈ held then none
      else some (v, { w with drawn := v :: w.drawn }) := rfl
  constructor
  · rintro ⟨a, ha⟩
    cases a with
    | id v =>
      rw [hdraw, Option.ite_none_left_eq_some, some_eq_answer, not_or] at ha
      obtain ⟨⟨hdrawn, hheld⟩, rfl, rfl⟩ := ha
      exact ⟨hdrawn, hheld, rfl⟩
    | _ => exact absurd ha nofun
  · rintro ⟨hdrawn, hheld, rfl⟩
    exact ⟨.id u, by rw [hdraw, if_neg (not_or.mpr ⟨hdrawn, hheld⟩)]⟩

@[simp] theorem step_now {t : ℕ} :
    Step b w .now t w' ↔ w.clock < t ∧ w' = { w with clock := t } := by
  have hread (u : ℕ) : w.perform b .now (.time u) =
      if w.clock < u then some (u, { w with clock := u }) else none := rfl
  constructor
  · rintro ⟨a, ha⟩
    cases a with
    | time u =>
      rw [hread, Option.ite_none_right_eq_some, some_eq_answer] at ha
      obtain ⟨hlt, rfl, rfl⟩ := ha
      exact ⟨hlt, rfl⟩
    | _ => exact absurd ha nofun
  · rintro ⟨hlt, rfl⟩
    exact ⟨.time t, by rw [hread, if_pos hlt]⟩

@[simp] theorem step_getWorkflow {id : UUID} {r : Option WorkflowInstance} :
    Step b w (.getWorkflow id) r w' ↔
      r = w.getWorkflow id ∧ w' = w :=
  step_plain (.getWorkflow id) (w.getWorkflow id, w) rfl
    (by rintro (_ | _ | _ | _ | _ | _) <;> first | exact .inl rfl | exact .inr rfl)

@[simp] theorem step_getWorkflowByBusinessId {workflowId tenantId : String}
    {r : Option WorkflowInstance} :
    Step b w (.getWorkflowByBusinessId workflowId tenantId) r w' ↔
      r = w.getWorkflowByBusinessId workflowId tenantId ∧ w' = w :=
  step_plain (.getWorkflowByBusinessId workflowId tenantId) (w.getWorkflowByBusinessId workflowId tenantId, w) rfl
    (by rintro (_ | _ | _ | _ | _ | _) <;> first | exact .inl rfl | exact .inr rfl)

@[simp] theorem step_saveWorkflow {inst : WorkflowInstance} {set : Assigned}
    {r : Except PyExc Unit} :
    Step b w (.saveWorkflow inst set) r w' ↔
      r = (w.saveWorkflow b inst set).1 ∧ w' = (w.saveWorkflow b inst set).2 :=
  step_plain (.saveWorkflow inst set) (w.saveWorkflow b inst set) rfl
    (by rintro (_ | _ | _ | _ | _ | _) <;> first | exact .inl rfl | exact .inr rfl)

@[simp] theorem step_saveStep {step : WorkflowStep} {r : Unit} :
    Step b w (.saveStep step) r w' ↔
      w' = w.saveStep step :=
  (step_plain (.saveStep step) ((), w.saveStep step) rfl
    (by rintro (_ | _ | _ | _ | _ | _) <;> first | exact .inl rfl | exact .inr rfl)).trans
    (and_iff_right rfl)

@[simp] theorem step_getNextSequence {instanceId : UUID} {r : ℕ} :
    Step b w (.getNextSequence instanceId) r w' ↔
      r = w.getNextSequence instanceId ∧ w' = w :=
  step_plain (.getNextSequence instanceId) (w.getNextSequence instanceId, w) rfl
    (by rintro (_ | _ | _ | _ | _ | _) <;> first | exact .inl rfl | exact .inr rfl)

@[simp] theorem step_saveEvent {event : WorkflowEvent} {r : Except PyExc Unit} :
    Step b w (.saveEvent event) r w' ↔
      r = (w.saveEvent b event).1 ∧ w' = (w.saveEvent b event).2 :=
  step_plain (.saveEvent event) (w.saveEvent b event) rfl
    (by rintro (_ | _ | _ | _ | _ | _) <;> first | exact .inl rfl | exact .inr rfl)

@[simp] theorem step_bindHandler {comp : WorkflowCompensation} {handler : Callable}
    {r : Unit} :
    Step b w (.bindHandler comp handler) r w' ↔
      w' = w :=
  (step_plain (.bindHandler comp handler) ((), w) rfl
    (by rintro (_ | _ | _ | _ | _ | _) <;> first | exact .inl rfl | exact .inr rfl)).trans
    (and_iff_right rfl)

@[simp] theorem step_saveCompensation {comp : WorkflowCompensation} {r : Unit} :
    Step b w (.saveCompensation comp) r w' ↔
      w' = w.saveCompensation comp :=
  (step_plain (.saveCompensation comp) ((), w.saveCompensation comp) rfl
    (by rintro (_ | _ | _ | _ | _ | _) <;> first | exact .inl rfl | exact .inr rfl)).trans
    (and_iff_right rfl)

@[simp] theorem step_getCompensationsReversed {instanceId : UUID}
    {r : List WorkflowCompensation} :
    Step b w (.getCompensationsReversed instanceId) r w' ↔
      r = (w.getCompensations b instanceId).reverse ∧ w' = w.reverseCompensations b instanceId :=
  step_plain (.getCompensationsReversed instanceId) ((w.getCompensations b instanceId).reverse, w.reverseCompensations b instanceId) rfl
    (by rintro (_ | _ | _ | _ | _ | _) <;> first | exact .inl rfl | exact .inr rfl)

@[simp] theorem step_setStepResult {caller : UUID} {workflowId key : String}
    {value : JSONDict} {r : Unit} :
    Step b w (.setStepResult caller workflowId key value) r w' ↔
      w' = w.setCache workflowId key value :=
  (step_plain (.setStepResult caller workflowId key value) ((), w.setCache workflowId key value) rfl
    (by rintro (_ | _ | _ | _ | _ | _) <;> first | exact .inl rfl | exact .inr rfl)).trans
    (and_iff_right rfl)

@[simp] theorem step_invalidateWorkflowState {workflowId : String} {r : Unit} :
    Step b w (.invalidateWorkflowState workflowId) r w' ↔
      w' = w ∨ w' = w.invalidateCache workflowId := by
  constructor
  · rintro ⟨a, ha⟩
    cases a with
    | plain => exact .inl (some_eq_answer.mp ha).2
    | lost => exact .inr (some_eq_answer.mp ha).2
    | _ => exact absurd ha nofun
  · rintro (rfl | rfl)
    · exact ⟨.plain, rfl⟩
    · exact ⟨.lost, rfl⟩

@[simp] theorem step_callActivity {instanceId : UUID} {key : String} {activity : Callable}
    {input : JSONDict} {r : Except PyExc Json} :
    Step b w (.callActivity instanceId key activity input) r w' ↔ w' = w :=
  step_outcome (.callActivity instanceId key activity input) id (fun r => ⟨r, rfl⟩) (fun _ => rfl)
    (by rintro (_ | _ | _ | _ | _ | _) <;> first | exact .inl ⟨_, rfl⟩ | exact .inr rfl)

@[simp] theorem step_callHandler {comp : WorkflowCompensation} {handler : Callable}
    {input : JSONDict} {r : Except PyExc Json} :
    Step b w (.callHandler comp handler input) r w' ↔ w' = w :=
  step_outcome (.callHandler comp handler input) id (fun r => ⟨r, rfl⟩) (fun _ => rfl)
    (by rintro (_ | _ | _ | _ | _ | _) <;> first | exact .inl ⟨_, rfl⟩ | exact .inr rfl)

@[simp] theorem step_getStepResult {caller : UUID} {workflowId key : String} {r : Option JSONDict} :
    Step b w (.getStepResult caller workflowId key) r w' ↔
      (r = w.cache workflowId key ∧ w' = w) ∨
        (r = none ∧ w' = w.setCache workflowId key none) := by
  constructor
  · rintro ⟨a, ha⟩
    cases a with
    | plain => exact .inl (some_eq_answer.mp ha)
    | lost => exact .inr (some_eq_answer.mp ha)
    | _ => exact absurd ha nofun
  · rintro (⟨rfl, rfl⟩ | ⟨rfl, rfl⟩)
    · exact ⟨.plain, rfl⟩
    · exact ⟨.lost, rfl⟩

/-- The rows `get_step_by_idempotency_key` may return. -/
def World.MayFind (b : Backend) (w : World) (instanceId : UUID) (key : String)
    (r : Option WorkflowStep) : Prop :=
  match b with
  | .inMemory => r = (w.stepsUnder instanceId key).head?
  | .postgres =>
    match r with
    | none => w.stepsUnder instanceId key = []
    | some row => row ∈ w.stepsUnder instanceId key

theorem World.MayFind.mem {i : UUID} {key : String} {row : WorkflowStep}
    (h : w.MayFind b i key (some row)) : row ∈ w.stepsUnder i key := by
  cases b with
  | inMemory => exact List.mem_of_head? h.symm
  | postgres => exact h

@[simp] theorem step_getStepByIdempotencyKey {instanceId : UUID} {key : String}
    {r : Option WorkflowStep} :
    Step b w (.getStepByIdempotencyKey instanceId key) r w' ↔
      w.MayFind b instanceId key r ∧ w' = w := by
  have hpick : Step b w (.getStepByIdempotencyKey instanceId key) r w' ↔
      (∃ n, r = w.getStepByIdempotencyKey b instanceId key n) ∧ w' = w := by
    constructor
    · rintro ⟨a, ha⟩
      cases a with
      | row n =>
        obtain ⟨hr, hw⟩ := some_eq_answer.mp ha
        exact ⟨⟨n, hr⟩, hw⟩
      | _ => exact absurd ha nofun
    · rintro ⟨⟨n, rfl⟩, rfl⟩
      exact ⟨.row n, rfl⟩
  rw [hpick]
  refine and_congr_left fun _ => ?_
  simp only [World.getStepByIdempotencyKey, World.MayFind]
  generalize w.stepsUnder instanceId key = rows
  cases b with
  | inMemory => simp only [exists_const]
  | postgres =>
    rcases rows with _ | ⟨row, rows⟩
    · cases r <;> simp
    · rcases r with _ | found
      · refine ⟨fun ⟨n, hn⟩ => ?_, fun hnil => by cases hnil⟩
        have hlt : n % (row :: rows).length < (row :: rows).length :=
          Nat.mod_lt n (Nat.succ_pos rows.length)
        rw [List.getElem?_eq_getElem hlt] at hn
        cases hn
      · refine ⟨fun ⟨n, hn⟩ => List.mem_of_getElem? hn.symm, fun hmem => ?_⟩
        obtain ⟨n, hn, hget⟩ := List.getElem_of_mem hmem
        exact ⟨n, by rw [Nat.mod_eq_of_lt hn, List.getElem?_eq_getElem hn, hget]⟩

end Step

/-! ## What the saves leave -/

theorem mem_upsert {α : Type} {id : α → UUID} {row x : α} {rows : List α}
    (h : x ∈ upsert id row rows) : x = row ∨ x ∈ rows := by
  induction rows with
  | nil => exact .inl (List.mem_singleton.mp h)
  | cons old rest ih =>
    rw [upsert] at h
    split at h
    · rcases List.mem_cons.mp h with rfl | h
      · exact .inl rfl
      · exact .inr (List.mem_cons_of_mem _ h)
    · rcases List.mem_cons.mp h with rfl | h
      · exact .inr (List.mem_cons_self ..)
      · exact (ih h).imp_right (List.mem_cons_of_mem _)

theorem upsert_of_new {α : Type} {id : α → UUID} {row : α} {rows : List α}
    (h : ∀ x ∈ rows, id x ≠ id row) : upsert id row rows = rows ++ [row] := by
  induction rows with
  | nil => rfl
  | cons old rest ih =>
    rw [upsert, if_neg (h old (List.mem_cons_self ..)),
      ih fun x hx => h x (List.mem_cons_of_mem _ hx), List.cons_append]

theorem upsert_of_append {α : Type} {id : α → UUID} {row old : α} {before after : List α}
    (hold : id old = id row) (h : ∀ x ∈ before, id x ≠ id row) :
    upsert id row (before ++ old :: after) = before ++ row :: after := by
  induction before with
  | nil => rw [List.nil_append, upsert, if_pos hold, List.nil_append]
  | cons x rest ih =>
    rw [List.cons_append, upsert, if_neg (h x (List.mem_cons_self ..)),
      ih fun y hy => h y (List.mem_cons_of_mem _ hy), List.cons_append]

theorem nodup_upsert {α : Type} {id : α → UUID} {row : α} {rows : List α}
    (h : (rows.map id).Nodup) : ((upsert id row rows).map id).Nodup := by
  by_cases hrow : ∃ old ∈ rows, id old = id row
  · obtain ⟨old, hmem, hold⟩ := hrow
    obtain ⟨before, after, rfl⟩ := List.append_of_mem hmem
    have hbefore : ∀ x ∈ before, id x ≠ id row := by
      intro x hx heq
      rw [List.map_append, List.map_cons] at h
      exact List.disjoint_of_nodup_append h (List.mem_map_of_mem hx)
        (by rw [heq, ← hold]; exact List.mem_cons_self ..)
    rw [upsert_of_append hold hbefore]
    simpa [hold] using h
  · have hnew : ∀ x ∈ rows, id x ≠ id row := fun x hx heq => hrow ⟨x, hx, heq⟩
    rw [upsert_of_new hnew, List.map_append, List.map_singleton]
    refine List.nodup_append.mpr ⟨h, List.nodup_singleton _, ?_⟩
    rintro _ hx _ hy rfl
    obtain ⟨x, hx, heq⟩ := List.mem_map.mp hx
    exact hnew x hx (heq.trans (List.mem_singleton.mp hy))

theorem mem_upsert_iff {α : Type} {id : α → UUID} {row x : α} {rows : List α}
    (h : (rows.map id).Nodup) :
    x ∈ upsert id row rows ↔ x = row ∨ (x ∈ rows ∧ id x ≠ id row) := by
  have hself : row ∈ upsert id row rows := by
    clear h
    induction rows with
    | nil => exact List.mem_singleton.mpr rfl
    | cons old rest ih =>
      rw [upsert]
      split
      · exact List.mem_cons_self ..
      · exact List.mem_cons_of_mem _ ih
  constructor
  · intro hx
    by_cases hid : id x = id row
    · exact .inl (List.inj_on_of_nodup_map (nodup_upsert h) hx hself hid)
    · exact .inr ⟨(mem_upsert hx).resolve_left fun heq => hid (heq ▸ rfl), hid⟩
  · rintro (rfl | ⟨hx, hid⟩)
    · exact hself
    · obtain ⟨before, after, rfl⟩ := List.append_of_mem hx
      clear h hself
      induction before with
      | nil =>
        rw [List.nil_append, upsert, if_neg hid]
        exact List.mem_cons_self ..
      | cons old rest ih =>
        rw [List.cons_append, upsert]
        split
        · exact List.mem_cons_of_mem _ (by simp)
        · exact List.mem_cons_of_mem _ (ih (by simp))

namespace World

variable {b : Backend} {w : World} {inst : WorkflowInstance} {set : Assigned}

theorem saveWorkflow_eq (b : Backend) (w : World) (inst : WorkflowInstance) (set : Assigned) :
    ∃ workflows, (w.saveWorkflow b inst set).2 = { w with workflows := workflows } := by
  unfold saveWorkflow
  split_ifs
  · exact ⟨_, rfl⟩
  · exact ⟨_, rfl⟩
  · exact ⟨_, rfl⟩

theorem saveEvent_eq (b : Backend) (w : World) (event : WorkflowEvent) :
    ∃ events, (w.saveEvent b event).2 = { w with events := events } := by
  simp only [saveEvent]
  split_ifs
  · exact ⟨_, rfl⟩
  · exact ⟨_, rfl⟩

theorem mergeWorkflow_sameRun {old : WorkflowInstance} :
    (mergeWorkflow b set old inst).SameRun old := by
  cases b with
  | inMemory => exact (WorkflowInstance.SameRun.refl old).assign set
  | postgres => exact ⟨rfl, rfl, rfl, rfl, rfl, rfl⟩

theorem mem_saveWorkflow {wf : WorkflowInstance}
    (h : wf ∈ (w.saveWorkflow b inst set).2.workflows) :
    wf.SameRun inst ∨ ∃ old ∈ w.workflows, wf.SameRun old := by
  unfold saveWorkflow at h
  split_ifs at h
  · obtain ⟨old, hold, rfl⟩ := List.mem_map.mp h
    split
    · exact .inr ⟨old, hold, mergeWorkflow_sameRun⟩
    · exact .inr ⟨old, hold, .refl old⟩
  · exact .inr ⟨wf, h, .refl wf⟩
  · rcases List.mem_append.mp h with h | h
    · exact .inr ⟨wf, h, .refl wf⟩
    · rw [List.mem_singleton.mp h]
      exact .inl ((WorkflowInstance.SameRun.refl inst).assign set)

theorem mem_saveEvent {event e : WorkflowEvent} {i : UUID}
    (h : e ∈ (w.saveEvent b event).2.events i) : e = event ∨ e ∈ w.events i := by
  simp only [saveEvent] at h
  split_ifs at h
  · exact .inr h
  · by_cases hi : i = event.workflowInstanceId
    · subst hi
      simp only [Function.update_self, List.mem_append, List.mem_singleton] at h
      exact h.symm
    · simp only [Function.update_of_ne hi] at h
      exact .inr h

theorem cache_setCache (wid k : String) (value : Option JSONDict) (wid' k' : String) :
    (w.setCache wid k value).cache wid' k' =
      if wid' = wid ∧ k' = k then value else w.cache wid' k' := by
  by_cases hw : wid' = wid
  · subst hw
    by_cases hk : k' = k
    · subst hk
      simp [setCache]
    · simp [setCache, hk]
  · simp [setCache, hw]

theorem cache_invalidateCache (wid wid' k : String) :
    (w.invalidateCache wid).cache wid' k = if wid' = wid then none else w.cache wid' k := by
  by_cases hw : wid' = wid
  · subst hw
    simp [invalidateCache]
  · simp [invalidateCache, hw]

end World

/-! ## What a call leaves alone -/

/-- Each table is changed by its own calls only; a cache entry that shows up was stored, and what
was drawn stays drawn. -/
structure Frame (w : World) (o : Op) (w' : World) : Prop where
  workflows : (∀ inst set, o ≠ .saveWorkflow inst set) → w'.workflows = w.workflows
  steps : (∀ step, o ≠ .saveStep step) → w'.steps = w.steps
  events : (∀ event, o ≠ .saveEvent event) → w'.events = w.events
  compensations : (∀ comp, o ≠ .saveCompensation comp) →
    (∀ i, o ≠ .getCompensationsReversed i) → w'.compensations = w.compensations
  cache : (∀ caller wid key value, o ≠ .setStepResult caller wid key value) →
    ∀ wid key d, w'.cache wid key = some d → w.cache wid key = some d
  drawn : ∀ u ∈ w.drawn, u ∈ w'.drawn
  clock : w.clock ≤ w'.clock

theorem Frame.refl (w : World) (o : Op) : Frame w o w :=
  ⟨fun _ => rfl, fun _ => rfl, fun _ => rfl, fun _ _ => rfl, fun _ _ _ _ h => h, fun _ h => h,
    le_refl _⟩

theorem step_frame {b : Backend} {w w' : World} {o : Op} {r : o.Resp} (hstep : Step b w o r w') :
    Frame w o w' := by
  cases o with
  | saveWorkflow inst set =>
    obtain ⟨_, rfl⟩ := step_saveWorkflow.mp hstep
    obtain ⟨workflows, heq⟩ := World.saveWorkflow_eq b w inst set
    rw [heq]
    exact { Frame.refl w (.saveWorkflow inst set) with
      workflows := fun h => absurd rfl (h inst set) }
  | saveStep step =>
    obtain rfl := step_saveStep.mp hstep
    exact { Frame.refl w (.saveStep step) with steps := fun h => absurd rfl (h step) }
  | saveEvent event =>
    obtain ⟨_, rfl⟩ := step_saveEvent.mp hstep
    obtain ⟨events, heq⟩ := World.saveEvent_eq b w event
    rw [heq]
    exact { Frame.refl w (.saveEvent event) with events := fun h => absurd rfl (h event) }
  | saveCompensation comp =>
    obtain rfl := step_saveCompensation.mp hstep
    exact { Frame.refl w (.saveCompensation comp) with
      compensations := fun h => absurd rfl (h comp) }
  | getCompensationsReversed i =>
    obtain ⟨_, rfl⟩ := step_getCompensationsReversed.mp hstep
    cases b with
    | inMemory =>
      exact { Frame.refl w (.getCompensationsReversed i) with
        compensations := fun _ h => absurd rfl (h i) }
    | postgres => exact .refl w _
  | getStepResult caller wid key =>
    rcases step_getStepResult.mp hstep with ⟨_, rfl⟩ | ⟨_, rfl⟩
    · exact .refl _ _
    · refine { Frame.refl w (.getStepResult caller wid key) with
        cache := fun _ wid' key' d hd => ?_ }
      rw [World.cache_setCache] at hd
      split at hd
      · cases hd
      · exact hd
  | setStepResult caller wid key value =>
    obtain rfl := step_setStepResult.mp hstep
    exact { Frame.refl w (.setStepResult caller wid key value) with
      cache := fun h => absurd rfl (h caller wid key value) }
  | invalidateWorkflowState wid =>
    rcases step_invalidateWorkflowState.mp hstep with rfl | rfl
    · exact .refl _ _
    · refine { Frame.refl w (.invalidateWorkflowState wid) with
        cache := fun _ wid' key' d hd => ?_ }
      rw [World.cache_invalidateCache] at hd
      split at hd
      · cases hd
      · exact hd
  | uuid4 held =>
    obtain ⟨_, _, rfl⟩ := step_uuid4.mp hstep
    exact { Frame.refl w (.uuid4 held) with drawn := fun _ hu => List.mem_cons_of_mem _ hu }
  | now =>
    obtain ⟨hlt, rfl⟩ := step_now.mp hstep
    exact { Frame.refl w .now with clock := hlt.le }
  | getWorkflow id => obtain ⟨_, rfl⟩ := step_getWorkflow.mp hstep; exact .refl _ _
  | getWorkflowByBusinessId wid tid =>
    obtain ⟨_, rfl⟩ := step_getWorkflowByBusinessId.mp hstep
    exact .refl _ _
  | getStepByIdempotencyKey i key =>
    obtain ⟨_, rfl⟩ := step_getStepByIdempotencyKey.mp hstep
    exact .refl _ _
  | getNextSequence i => obtain ⟨_, rfl⟩ := step_getNextSequence.mp hstep; exact .refl _ _
  | bindHandler comp handler => obtain rfl := step_bindHandler.mp hstep; exact .refl _ _
  | callActivity i key activity input => obtain rfl := step_callActivity.mp hstep; exact .refl _ _
  | callHandler comp handler input => obtain rfl := step_callHandler.mp hstep; exact .refl _ _

end EnhancedAgentBus.Persistence
