import EnhancedAgentBus.Batch.Models
import EnhancedAgentBus.Lib.Gather
import Mathlib.Data.List.Forall2

/-!
# The processing middleware

All items of a batch are processed as tasks that are gathered, and then one loop makes the response
out of their results.  What becomes of an item in its task, `Attempt`, is up to the environment: the
time limit passes first, or the item processor answers or raises.

The loop answers in request order, passes over a result that is no `Exception`
and no response item, and with `fail_fast` stops at the first failure.  So it answers every item
exactly when no item is cancelled and, with `fail_fast`, none but the last fails
(`forall₂_answers_iff`).
-/

namespace EnhancedAgentBus.Batch

/-- `BatchProcessingMiddleware`, with whether it has an item processor. -/
structure Processing where
  failClosed : Bool := true
  hasItemProcessor : Bool := true

structure BatchProcessingException where
  message : String
  errorCode : String
  deriving DecidableEq

inductive Attempt where
  | timedOut
  | answered (answer : Except PyError ValidationResult)

/-! ## One item -/

section Item

variable (mw : Processing)

def validationItem (requestId : String) (result : ValidationResult) : BatchResponseItem where
  requestId := requestId
  status := if result.isValid then .success else .failed
  valid := result.isValid
  validationResult := some ("decision", result.decision)
  errorCode := if result.isValid then none else some "VALIDATION_FAILED"
  errorMessage := if result.errors = [] then none else some ("; ".intercalate result.errors)
  constitutionalValidated := true

@[simp] theorem validationItem_success (requestId : String) (result : ValidationResult) :
    (validationItem requestId result).success = result.isValid := by
  cases hvalid : result.isValid with
  | true => simp [BatchResponseItem.success, validationItem, hvalid]
  | false => simp [BatchResponseItem.success, validationItem, hvalid]

def processItem (item : BatchRequestItem) (answer : Except PyError ValidationResult) :
    Except PyError BatchResponseItem :=
  if mw.hasItemProcessor then
    match answer with
    | .ok result => .ok (validationItem item.requestId result)
    | .error (.listed text) => .ok (.createError item.requestId "PROCESSING_EXCEPTION" text)
    | .error e => .error e
  else
    .ok (.createSuccess item.requestId true
      (some ("message", some "Default processing - no custom processor configured")))

/-- The limit of `_process_with_semaphore`. -/
def timeoutMs (context : BatchPipelineContext) : Except String ℤ :=
  match context.batchRequest with
  | some request => request.timeoutMs
  | none => .ok 30000

/-- `_process_with_semaphore`, once there is a place. -/
def processWithSemaphore (context : BatchPipelineContext) (item : BatchRequestItem)
    (attempt : Attempt) : Except PyError BatchResponseItem :=
  match timeoutMs context with
  | .error text => .error (.other text)
  | .ok ms =>
    match attempt with
    | .timedOut => .ok (.createError item.requestId "TIMEOUT_ERROR"
        ("Item processing timeout after " ++ toString ms ++ "ms"))
    | .answered answer => processItem mw item answer

end Item

/-! ## The response -/

/-- The loop of `process` over the items and the results of their tasks. -/
def collect (context : BatchPipelineContext) :
    List (BatchRequestItem × Except PyError BatchResponseItem) → BatchPipelineContext
  | [] => context
  | (item, .error e) :: rest =>
    match e.exceptionText with
    | none => collect context rest
    | some text =>
      if context.failFast then
        (context.addFailedItem item text).addProcessedItem
          (.createError item.requestId "PROCESSING_ERROR" text)
      else
        collect ((context.addFailedItem item text).addProcessedItem
          (.createError item.requestId "PROCESSING_ERROR" text)) rest
  | (item, .ok response) :: rest =>
    if response.success then collect (context.addProcessedItem response) rest
    else if context.failFast then
      (context.addProcessedItem response).addFailedItem item (failureText response)
    else
      collect ((context.addProcessedItem response).addFailedItem item (failureText response)) rest
where
  /-- `result.error_message or "Unknown error"` -/
  failureText (response : BatchResponseItem) : String :=
    match response.errorMessage with
    | none | some "" => "Unknown error"
    | some text => text

def aggregateResults (results : List BatchResponseItem) : BatchResponse where
  batchId := "aggregated"
  success := results.length - results.countP BatchResponseItem.success = 0
  items := results
  stats :=
    { totalItems := results.length
      successfulItems := results.countP BatchResponseItem.success
      failedItems := results.length - results.countP BatchResponseItem.success
      validItems := results.countP BatchResponseItem.success
      invalidItems := results.length - results.countP BatchResponseItem.success }

section Tasks

variable (mw : Processing) (context : BatchPipelineContext) (attempt : ℕ → Attempt)

/-- The tasks of a batch: `attempt` says what becomes of each item. -/
def tasks : List (BatchRequestItem × Attempt) :=
  context.batchItems.zipIdx.map fun task => (task.1, attempt task.2)

def taskResults : List (Except PyError BatchResponseItem) :=
  (tasks context attempt).map fun task => processWithSemaphore mw context task.1 task.2

/-- `metadata["timeout_count"]` after the tasks. -/
def countTimeouts : Option ℕ :=
  match timeoutMs context,
    (tasks context attempt).countP (fun task => task.2 matches .timedOut) with
  | .error _, _ => context.timeoutCount
  | .ok _, 0 => context.timeoutCount
  | .ok _, n + 1 => some (context.timeoutCount.getD 0 + (n + 1))

/-- The context with the response to the results that were gathered. -/
def respond (results : List (Except PyError BatchResponseItem)) : BatchPipelineContext :=
  let collected := collect { context with timeoutCount := countTimeouts context attempt }
    (context.batchItems.zip results)
  { collected with
    batchResponse := some
      { aggregateResults collected.processedItems with
        batchId := (context.batchRequest.map BatchRequest.batchId).getD "unknown" } }

/-- `process`, up to the call of the next middleware: what it can come to. -/
inductive Processed : Except BatchProcessingException BatchPipelineContext → Prop
  | noItems (hitems : context.batchItems = []) :
      Processed (.ok { context with
        batchResponse := some
          { batchId := (context.batchRequest.map BatchRequest.batchId).getD "empty" } })
  /-- `asyncio.Semaphore` raises. -/
  | noSemaphore (hitems : context.batchItems ≠ []) (hplaces : context.maxConcurrency < 0) :
      Processed
        (if mw.failClosed then
          .error ⟨"Batch processing failed: Semaphore initial value must be >= 0",
            "BATCH_PROCESSING_ERROR"⟩
        else
          .ok { context with
            earlyResult := some
              { isValid := false
                errors := ["Batch processing failed: Semaphore initial value must be >= 0"]
                validationStage := some "batch_processing" } })
  | gathered {slots : List (Gather.Slot (Except PyError BatchResponseItem))}
      {results : List (Except PyError BatchResponseItem)}
      (hitems : context.batchItems ≠ []) (hplaces : 0 ≤ context.maxConcurrency)
      (hreach : Gather.Reach context.maxConcurrency (taskResults mw context attempt) slots)
      (hslots : slots = results.map .finished) :
      Processed (.ok (respond context attempt results))

end Tasks

/-! ## The answers -/

def answers (failFast : Bool) :
    List (BatchRequestItem × Except PyError BatchResponseItem) → List BatchResponseItem
  | [] => []
  | (item, .error e) :: rest =>
    match e.exceptionText with
    | none => answers failFast rest
    | some text =>
      .createError item.requestId "PROCESSING_ERROR" text ::
        if failFast then [] else answers failFast rest
  | (_, .ok response) :: rest =>
    response :: if failFast && !response.success then [] else answers failFast rest

theorem collect_processedItems (context : BatchPipelineContext)
    (results : List (BatchRequestItem × Except PyError BatchResponseItem)) :
    (collect context results).processedItems =
      context.processedItems ++ answers context.failFast results := by
  induction results generalizing context with
  | nil => exact (List.append_nil _).symm
  | cons result rest ih =>
    obtain ⟨item, e | response⟩ := result
    · rcases htext : e.exceptionText with _ | text
      · simp only [collect, answers, htext]
        exact ih context
      · cases hfast : context.failFast with
        | true => simp [collect, answers, htext, hfast]
        | false => simp [collect, answers, htext, hfast, ih]
    · cases hsuccess : response.success with
      | true => simp [collect, answers, hsuccess, ih]
      | false =>
        cases hfast : context.failFast with
        | true => simp [collect, answers, hsuccess, hfast]
        | false => simp [collect, answers, hsuccess, hfast, ih]

/-! ## What answers all -/

def Succeeds (mw : Processing) (context : BatchPipelineContext) (attempt : Attempt) : Prop :=
  (∃ ms, timeoutMs context = .ok ms) ∧ ∃ answer, attempt = .answered answer ∧
    (mw.hasItemProcessor = true → ∃ result, answer = .ok result ∧ result.isValid = true)

/-- The task ends in what is no `Exception`. -/
def Cancelled (mw : Processing) (context : BatchPipelineContext) (attempt : Attempt) : Prop :=
  (∃ ms, timeoutMs context = .ok ms) ∧ mw.hasItemProcessor = true ∧
    attempt = .answered (.error .base)

structure Answers (mw : Processing) (context : BatchPipelineContext)
    (task : BatchRequestItem × Attempt) (response : BatchResponseItem) : Prop where
  requestId : response.requestId = task.1.requestId
  status : response.status = .success ∨ response.status = .failed ∨ response.status = .skipped
  processed : response.success = true → Succeeds mw context task.2

section Loop

variable (mw : Processing) (context : BatchPipelineContext)

theorem processWithSemaphore_spec (item : BatchRequestItem) (attempt : Attempt) :
    match processWithSemaphore mw context item attempt with
    | .ok response => Answers mw context (item, attempt) response ∧
        (response.success = true ↔ Succeeds mw context attempt) ∧ ¬Cancelled mw context attempt
    | .error e => ¬Succeeds mw context attempt ∧
        (e.exceptionText = none ↔ Cancelled mw context attempt) := by
  rcases hms : timeoutMs context with text | ms
  · simp [processWithSemaphore, hms, Succeeds, Cancelled, PyError.exceptionText]
  · cases attempt with
    | timedOut =>
      simp only [processWithSemaphore, hms]
      refine ⟨⟨rfl, .inr (.inl rfl), fun h => ?_⟩, ?_, ?_⟩
      · cases h
      · simp [Succeeds]
      · simp [Cancelled]
    | answered answer =>
      rcases hprocessor : mw.hasItemProcessor with _ | _
      · have hsucceeds : Succeeds mw context (.answered answer) :=
          ⟨⟨ms, hms⟩, answer, rfl, fun h => by rw [hprocessor] at h; cases h⟩
        simp only [processWithSemaphore, hms, processItem, hprocessor]
        refine ⟨⟨rfl, .inl rfl, fun _ => hsucceeds⟩, iff_of_true rfl hsucceeds, ?_⟩
        simp [Cancelled, hprocessor]
      · cases answer with
        | ok result =>
          have hsucceeds : Succeeds mw context (.answered (.ok result)) ↔
              result.isValid = true := by
            simp [Succeeds, hms, hprocessor]
          simp only [processWithSemaphore, hms, processItem, hprocessor, if_true]
          rw [validationItem_success, hsucceeds]
          refine ⟨⟨rfl, ?_, fun h => hsucceeds.mpr ?_⟩, Iff.rfl, ?_⟩
          · cases hvalid : result.isValid with
            | true => simp [validationItem, hvalid]
            | false => simp [validationItem, hvalid]
          · rwa [validationItem_success] at h
          · simp [Cancelled]
        | error e =>
          have hfails : ¬Succeeds mw context (.answered (.error e)) := by
            simp [Succeeds, hprocessor]
          simp only [processWithSemaphore, hms, processItem, hprocessor, if_true]
          cases e with
          | listed text =>
            refine ⟨⟨rfl, .inr (.inl rfl), fun h => ?_⟩, ?_, ?_⟩
            · cases h
            · exact iff_of_false (by simp) hfails
            · simp [Cancelled]
          | other text =>
            exact ⟨hfails, by simp [Cancelled, PyError.exceptionText]⟩
          | base =>
            exact ⟨hfails, by simp [Cancelled, PyError.exceptionText, hms, hprocessor]⟩

def withResults (tasks : List (BatchRequestItem × Attempt)) :
    List (BatchRequestItem × Except PyError BatchResponseItem) :=
  tasks.map fun task => (task.1, processWithSemaphore mw context task.1 task.2)

variable {mw context}

theorem forall_dropLast_of_fails {α : Type} {P : α → Prop} {a : α} {rest : List α} (ha : ¬P a) :
    (∀ x ∈ (a :: rest).dropLast, P x) ↔ rest = [] := by
  rcases rest with _ | ⟨b, rest⟩
  · exact iff_of_true (fun x hx => absurd hx List.not_mem_nil) rfl
  · exact iff_of_false (fun h => ha (h a List.mem_cons_self)) (List.cons_ne_nil _ _)

theorem forall_dropLast_of_holds {α : Type} {P : α → Prop} {a : α} {rest : List α} (ha : P a) :
    (∀ x ∈ (a :: rest).dropLast, P x) ↔ ∀ x ∈ rest.dropLast, P x := by
  rcases rest with _ | ⟨b, rest⟩
  · exact Iff.rfl
  · rw [List.dropLast_cons_cons, List.forall_mem_cons]
    exact and_iff_right ha

theorem length_answers_le (failFast : Bool)
    (results : List (BatchRequestItem × Except PyError BatchResponseItem)) :
    (answers failFast results).length ≤ results.length := by
  induction results with
  | nil => exact Nat.le_refl 0
  | cons result rest ih =>
    obtain ⟨item, e | response⟩ := result
    · rcases htext : e.exceptionText with _ | text
      · simp only [answers, htext, List.length_cons]
        omega
      · cases failFast with
        | true => simp [answers, htext]
        | false => simpa [answers, htext] using ih
    · rw [answers]
      split
      · simp
      · simpa using ih

theorem forall₂_answers_cons_iff {failFast : Bool} {first : BatchRequestItem × Attempt}
    {rest : List (BatchRequestItem × Attempt)} {response : BatchResponseItem}
    {more : List BatchResponseItem} (hanswers : Answers mw context first response)
    (hsuccess : response.success = true ↔ Succeeds mw context first.2)
    (hcancelled : ¬Cancelled mw context first.2)
    (hmore : List.Forall₂ (Answers mw context) rest more ↔
      (∀ task ∈ rest, ¬Cancelled mw context task.2) ∧
        (failFast = true → ∀ task ∈ rest.dropLast, Succeeds mw context task.2)) :
    List.Forall₂ (Answers mw context) (first :: rest)
        (response :: if failFast && !response.success then [] else more) ↔
      (∀ task ∈ first :: rest, ¬Cancelled mw context task.2) ∧
        (failFast = true → ∀ task ∈ (first :: rest).dropLast, Succeeds mw context task.2) := by
  rw [List.forall₂_cons, List.forall_mem_cons, and_iff_right hanswers, and_iff_right hcancelled]
  cases hkind : response.success with
  | true =>
    have hholds : Succeeds mw context first.2 := hsuccess.mp hkind
    rw [forall_dropLast_of_holds
      (P := fun task : BatchRequestItem × Attempt => Succeeds mw context task.2) hholds]
    simpa using hmore
  | false =>
    have hfails : ¬Succeeds mw context first.2 := by
      rw [← hsuccess, hkind]
      exact Bool.false_ne_true
    rcases hfast : failFast with _ | _
    · simpa [hfast] using hmore
    · rw [forall_dropLast_of_fails
        (P := fun task : BatchRequestItem × Attempt => Succeeds mw context task.2) hfails]
      simp only [Bool.not_false, Bool.and_true, if_true, List.forall₂_nil_right_iff,
        forall_const]
      refine ⟨fun hnil => ⟨?_, hnil⟩, fun h => h.2⟩
      rw [hnil]
      exact fun task h => absurd h List.not_mem_nil

/-- **Who is answered.**  The loop answers every task exactly when none is cancelled and, if it
stops at failures, none but the last fails. -/
theorem forall₂_answers_iff (failFast : Bool) (tasks : List (BatchRequestItem × Attempt)) :
    List.Forall₂ (Answers mw context) tasks (answers failFast (withResults mw context tasks)) ↔
      (∀ task ∈ tasks, ¬Cancelled mw context task.2) ∧
        (failFast = true → ∀ task ∈ tasks.dropLast, Succeeds mw context task.2) := by
  induction tasks with
  | nil =>
    exact iff_of_true .nil ⟨fun task h => absurd h List.not_mem_nil,
      fun _ task h => absurd h List.not_mem_nil⟩
  | cons task rest ih =>
    obtain ⟨item, attempt⟩ := task
    have hspec := processWithSemaphore_spec mw context item attempt
    have hwith : withResults mw context ((item, attempt) :: rest) =
        (item, processWithSemaphore mw context item attempt) :: withResults mw context rest := rfl
    rw [hwith]
    cases hresult : processWithSemaphore mw context item attempt with
    | ok response =>
      rw [hresult] at hspec
      obtain ⟨hanswers, hsuccess, hcancelled⟩ := hspec
      rw [answers]
      exact forall₂_answers_cons_iff hanswers hsuccess hcancelled ih
    | error e =>
      rw [hresult] at hspec
      obtain ⟨hfails, hcancelled⟩ := hspec
      rcases htext : e.exceptionText with _ | text
      · rw [List.forall_mem_cons]
        refine iff_of_false (fun h => ?_) fun h => h.1.1 (hcancelled.mp htext)
        have hlength := h.length_eq
        have hrest : (withResults mw context rest).length = rest.length := List.length_map _
        have hle := length_answers_le failFast (withResults mw context rest)
        simp only [answers, htext] at hlength
        rw [List.length_cons] at hlength
        omega
      · have hanswers : Answers mw context (item, attempt)
            (.createError item.requestId "PROCESSING_ERROR" text) :=
          ⟨rfl, .inr (.inl rfl), fun h => by cases h⟩
        have hnot : ¬Cancelled mw context attempt := by
          rw [← hcancelled, htext]
          exact Option.some_ne_none text
        simp only [answers, htext]
        have hcons :=
          forall₂_answers_cons_iff hanswers (iff_of_false (by simp) hfails) hnot ih
        rwa [BatchResponseItem.createError_success, Bool.not_false, Bool.and_true] at hcons

end Loop

/-! ## A batch -/

section Batch

variable (mw : Processing) (context : BatchPipelineContext) (attempt : ℕ → Attempt)

/-- A response that answers every item, in request order, and counts its answers. -/
structure Complete (response : BatchResponse) : Prop where
  answers : List.Forall₂ (Answers mw context) (tasks context attempt) response.items
  totalItems : response.stats.totalItems = response.items.length
  successfulItems : response.stats.successfulItems =
    response.items.countP BatchResponseItem.success
  counted : response.stats.successfulItems + response.stats.failedItems + response.stats.skipped =
    response.stats.totalItems

/-- **No answer is lost.**  The tasks all finish, in whatever order, and the response is
complete. -/
structure NoAnswerLost : Prop where
  finished : context.batchItems ≠ [] → 0 ≤ context.maxConcurrency → ∀ slots,
    Gather.Reach context.maxConcurrency (taskResults mw context attempt) slots →
      Gather.AtRest context.maxConcurrency (taskResults mw context attempt) slots →
        Gather.AllFinished slots
  complete : ∀ outcome, Processed mw context attempt outcome → ∃ context' response,
    outcome = .ok context' ∧ context'.batchResponse = some response ∧
      Complete mw context attempt response

/-- There is a place for a task, no task is cancelled, and with `fail_fast` none but the last
fails. -/
structure AllAnswered : Prop where
  places : 1 ≤ context.maxConcurrency
  uncancelled : ∀ task ∈ tasks context attempt, ¬Cancelled mw context task.2
  failFast : context.failFast = true → ∀ task ∈ (tasks context attempt).dropLast,
    Succeeds mw context task.2

variable {mw context attempt}

theorem tasks_eq_nil_iff : tasks context attempt = [] ↔ context.batchItems = [] := by
  rw [tasks, List.map_eq_nil_iff, List.zipIdx_eq_nil_iff]

theorem zip_taskResults :
    context.batchItems.zip (taskResults mw context attempt) =
      withResults mw context (tasks context attempt) := by
  have hitems : context.batchItems = (tasks context attempt).map Prod.fst := by
    rw [tasks, List.map_map]
    exact (List.zipIdx_map_fst 0 context.batchItems).symm
  rw [taskResults, withResults]
  conv_lhs => rw [hitems]
  rw [List.zip_map']

theorem complete_aggregateResults_iff (items : List BatchResponseItem) (batchId : String) :
    Complete mw context attempt { aggregateResults items with batchId := batchId } ↔
      List.Forall₂ (Answers mw context) (tasks context attempt) items := by
  refine ⟨fun h => h.answers, fun h => ⟨h, rfl, rfl, ?_⟩⟩
  have hle : items.countP BatchResponseItem.success ≤ items.length := List.countP_le_length
  show items.countP BatchResponseItem.success +
    (items.length - items.countP BatchResponseItem.success) + 0 = items.length
  omega

theorem respond_spec (mw : Processing) (attempt : ℕ → Attempt)
    (hprocessed : context.processedItems = []) :
    ∃ response,
      (respond context attempt (taskResults mw context attempt)).batchResponse = some response ∧
      (Complete mw context attempt response ↔
        (∀ task ∈ tasks context attempt, ¬Cancelled mw context task.2) ∧
          (context.failFast = true → ∀ task ∈ (tasks context attempt).dropLast,
            Succeeds mw context task.2)) := by
  refine ⟨_, rfl, ?_⟩
  rw [complete_aggregateResults_iff, zip_taskResults, collect_processedItems]
  show List.Forall₂ _ _ (context.processedItems ++ answers context.failFast _) ↔ _
  rw [hprocessed, List.nil_append]
  exact forall₂_answers_iff context.failFast (tasks context attempt)

theorem noAnswerLost_of_nil (hitems : context.batchItems = []) :
    NoAnswerLost mw context attempt := by
  refine ⟨fun hne => absurd hitems hne, fun outcome houtcome => ?_⟩
  cases houtcome with
  | noItems _ =>
    refine ⟨_, _, rfl, rfl, ⟨?_, rfl, rfl, rfl⟩⟩
    rw [tasks_eq_nil_iff.mpr hitems]
    exact .nil
  | noSemaphore hne _ => exact absurd hitems hne
  | gathered hne _ _ _ => exact absurd hitems hne

variable (mw attempt) in
theorem taskResults_ne_nil (hitems : context.batchItems ≠ []) :
    taskResults mw context attempt ≠ [] := by
  rw [taskResults, Ne, List.map_eq_nil_iff, tasks_eq_nil_iff]
  exact hitems

theorem NoAnswerLost.places (h : NoAnswerLost mw context attempt)
    (hitems : context.batchItems ≠ []) (hresponse : context.batchResponse = none) :
    1 ≤ context.maxConcurrency := by
  by_contra hnone
  by_cases hneg : context.maxConcurrency < 0
  · obtain ⟨context', response, houtcome, hsome, -⟩ := h.complete _ (.noSemaphore hitems hneg)
    split at houtcome
    · cases houtcome
    · obtain rfl := Except.ok.inj houtcome
      rw [show _ = context.batchResponse from rfl, hresponse] at hsome
      cases hsome
  · have hstart := h.finished hitems (by omega) _ .refl (Gather.atRest_start (by omega))
    exact taskResults_ne_nil mw attempt hitems (Gather.allFinished_start_iff.mp hstart)

theorem NoAnswerLost.allAnswered (h : NoAnswerLost mw context attempt)
    (hitems : context.batchItems ≠ []) (hprocessed : context.processedItems = [])
    (hresponse : context.batchResponse = none) : AllAnswered mw context attempt := by
  obtain ⟨response, hrespond, hcomplete⟩ := respond_spec mw attempt hprocessed
  have hplaces := h.places hitems hresponse
  obtain ⟨slots, hreach, hrest⟩ := Gather.exists_reach_atRest context.maxConcurrency
    (taskResults mw context attempt)
  have hslots := hreach.returned (hreach.finished_of_rest hplaces hrest)
  obtain ⟨context', response', houtcome, hsome, hall⟩ :=
    h.complete _ (.gathered hitems (by omega) hreach hslots)
  obtain rfl := Except.ok.inj houtcome
  rw [hrespond] at hsome
  obtain rfl := Option.some_inj.mp hsome
  obtain ⟨huncancelled, hfast⟩ := hcomplete.mp hall
  exact ⟨hplaces, huncancelled, hfast⟩

/-- **No answer is lost** exactly when there is a place for a task, no task is cancelled, and with
`fail_fast` no item but the last fails. -/
theorem noAnswerLost_iff (mw : Processing) (context : BatchPipelineContext) (attempt : ℕ → Attempt)
    (hprocessed : context.processedItems = []) (hresponse : context.batchResponse = none) :
    NoAnswerLost mw context attempt ↔
      (context.batchItems = [] ∨ AllAnswered mw context attempt) := by
  by_cases hitems : context.batchItems = []
  · exact iff_of_true (noAnswerLost_of_nil hitems) (.inl hitems)
  rw [or_iff_right hitems]
  refine ⟨fun h => h.allAnswered hitems hprocessed hresponse, fun h => ?_⟩
  obtain ⟨response, hrespond, hcomplete⟩ := respond_spec mw attempt hprocessed
  refine ⟨fun _ _ slots hreach hrest => hreach.finished_of_rest h.places hrest,
    fun outcome houtcome => ?_⟩
  cases houtcome with
  | noItems hnil => exact absurd hnil hitems
  | noSemaphore _ hneg => exact absurd h.places (by omega)
  | gathered _ _ hreach hslots =>
    subst hslots
    rw [Gather.Reach.results_eq hreach]
    exact ⟨_, response, rfl, hrespond, hcomplete.mpr ⟨h.uncancelled, h.failFast⟩⟩

end Batch

/-! ## A batch of two items -/

/-- `{"action": "read"}` -/
def readItem (requestId : String) : BatchRequestItem where
  requestId := requestId
  content := [("action", .str "read")]
  priority_ge := BatchRequestItem.default_priority_ge
  priority_le := BatchRequestItem.default_priority_le

/-- Two items, with or without `fail_fast`. -/
def twoItems (failFast : Bool) : BatchPipelineContext :=
  { batchItems := [readItem "first", readItem "second"], failFast := failFast }

theorem noAnswerLost_two_valid :
    NoAnswerLost {} (twoItems true) fun _ => .answered (.ok {}) := by
  have hsucceeds : Succeeds {} (twoItems true) (.answered (.ok {})) :=
    ⟨⟨30000, rfl⟩, _, rfl, fun _ => ⟨_, rfl, rfl⟩⟩
  refine (noAnswerLost_iff {} (twoItems true) (fun _ => .answered (.ok {})) rfl rfl).mpr
    (.inr ⟨by decide, fun task htask hcancelled => ?_, fun _ task htask => ?_⟩)
  · obtain ⟨_, -, rfl⟩ := List.mem_map.mp htask
    cases hcancelled.2.2
  · obtain ⟨_, -, rfl⟩ := List.mem_map.mp (List.dropLast_subset _ htask)
    exact hsucceeds

/-- Without `fail_fast` an item that is cancelled has no answer; with it the items after one that
times out have none. -/
theorem not_noAnswerLost :
    (¬NoAnswerLost {} (twoItems false) fun i =>
      if i = 0 then .answered (.error .base) else .answered (.ok {})) ∧
    ¬NoAnswerLost {} (twoItems true) fun i =>
      if i = 0 then .timedOut else .answered (.ok {}) := by
  constructor
  · intro h
    have hall := h.allAnswered (List.cons_ne_nil _ _) rfl rfl
    exact hall.uncancelled _ List.mem_cons_self ⟨⟨30000, rfl⟩, rfl, rfl⟩
  · intro h
    have hall := h.allAnswered (List.cons_ne_nil _ _) rfl rfl
    obtain ⟨-, answer, hattempt, -⟩ := hall.failFast rfl _ List.mem_cons_self
    cases hattempt

end EnhancedAgentBus.Batch
