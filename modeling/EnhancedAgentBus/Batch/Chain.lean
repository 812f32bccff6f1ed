import EnhancedAgentBus.Batch.Stages

/-!
# The chain of a batch

The stages in their default order with a circuit breaker anywhere in front of the processing, the
processing, and the response that the router makes of a run of all that.
-/

namespace EnhancedAgentBus.Batch

open Pipeline
open Security (LowerTable)

/-! ## The chain -/

inductive Stage (κ : Type) where
  | validation (mw : Validation) (request : SubmittedBatch)
  | tenantIsolation (mw : TenantIsolation)
  | deduplication (stage : DeduplicationStage)
  | governance (stage : GovernanceStage κ)
  | concurrency (mw : Concurrency)
  | circuitBreaker (stage : BreakerStage)

/-- The chain of the batch middlewares: the stages in their default order, and where the circuit
breaker stands among them. -/
structure BatchChain (κ : Type) where
  validation : Validation := {}
  tenantIsolation : TenantIsolation := {}
  deduplication : DeduplicationStage
  governance : GovernanceStage κ
  concurrency : Concurrency := {}
  circuitBreaker : BreakerStage := {}
  breakerAt : ℕ := 0
  processing : Processing := {}

section Chain

variable [PrintTable] [LowerTable] {κ : Type} [DecidableEq κ]

namespace Stage

/-- `process` of a stage, up to the call of the next one. -/
def work : Stage κ → ChainContext → Work ChainContext BatchError
  | validation mw request, context => mw.work request context
  | tenantIsolation mw, context => mw.work context
  | deduplication stage, context => stage.work context
  | governance stage, context => stage.work context
  | concurrency mw, context => mw.work context
  | circuitBreaker stage, context => stage.work context

/-- What a stage makes of what the next one has come to. -/
def afterwards : Stage κ → ChainContext → Option BatchError → ChainContext × Option BatchError
  | circuitBreaker stage, context, error => stage.afterwards context error
  | _, context, error => (context, error)

def middleware (stage : Stage κ) : BaseMiddleware ChainContext BatchError where
  object := 0
  work := stage.work
  afterwards := stage.afterwards

/-- The stage is a breaker that catches the error. -/
def swallows : Stage κ → BatchError → Bool
  | circuitBreaker stage, .listed _ => stage.allows && !stage.failClosed
  | _, _ => false

/-- The stage rejects the batch: by its request or its items, by two tenants, by a violation of the
roles, the tenants or the constitution, by the exhausted concurrency, or by the open circuit. -/
def rejects : Stage κ → ChainContext → Bool
  | validation mw request, _ => validateBatchRequest mw request ≠ [] || itemErrors request ≠ []
  | tenantIsolation _, context => (validateTenantConsistency context.batchItems).isSome
  | deduplication _, _ => false
  | governance stage, context =>
    context.batchItems ≠ [] &&
      match checkMaciRoles stage.hashKey stage.middleware stage.registry context.batchItems with
      | .error _ => false
      | .ok (false, _) => true
      | .ok (true, _) =>
        !(validateTenantAccess stage.middleware stage.registry context.batchItems).1 ||
          !validateConstitutionalCompliance context.batchItems
  | concurrency mw, _ => mw.locked && mw.maxConcurrency ≤ mw.activeCount
  | circuitBreaker stage, _ => !stage.allows

end Stage

namespace BatchChain

variable (chain : BatchChain κ) (request : SubmittedBatch)

def defaultStages : List (Stage κ) :=
  [.validation chain.validation request, .tenantIsolation chain.tenantIsolation,
    .deduplication chain.deduplication, .governance chain.governance,
    .concurrency chain.concurrency]

def stages : List (Stage κ) :=
  (chain.defaultStages request).take chain.breakerAt ++
    .circuitBreaker chain.circuitBreaker :: (chain.defaultStages request).drop chain.breakerAt

end BatchChain

end Chain

/-! ## The processing, and the response -/

section Processing

variable (mw : Processing) (context : ChainContext)

/-- The time limit of an item, where there is one that has not passed at once. -/
def hasTime : Bool :=
  match timeoutMs context.toBatchPipelineContext with
  | .ok ms => 0 < ms
  | .error _ => false

/-- The items that the item processor is called for. -/
def calledFor : List BatchRequestItem :=
  if mw.hasItemProcessor && decide (0 ≤ context.maxConcurrency) && hasTime context then
    context.batchItems
  else []

def finished : Except BatchProcessingException BatchPipelineContext → Run ChainContext BatchError
  | .ok batch =>
    ⟨[], { toBatchPipelineContext := batch, called := context.called ++ calledFor mw context },
      none⟩
  | .error e => ⟨[], context, some (.batchProcessingException e)⟩

/-- A run of the processing.  Where the limit has passed at once, no item is answered. -/
def Finishes (run : Run ChainContext BatchError) : Prop :=
  ∃ attempt outcome, Processed mw context.toBatchPipelineContext attempt outcome ∧
    ((∃ ms, timeoutMs context.toBatchPipelineContext = .ok ms ∧ ms ≤ 0) →
      ∀ i, attempt i = .timedOut) ∧
    run = finished mw context outcome

end Processing

def toBatchResponse (context : ChainContext) : BatchResponse :=
  context.batchResponse.getD
    { batchId := (context.batchRequest.map BatchRequest.batchId).getD "unknown"
      success := context.failedItems = []
      items := context.processedItems
      stats :=
        { totalItems := context.batchItems.length
          successfulItems := context.processedItems.countP BatchResponseItem.success
          failedItems := context.failedItems.length
          skipped := context.batchItems.length -
            context.processedItems.countP BatchResponseItem.success - context.failedItems.length
          deduplicatedCount := context.deduplicatedCount } }

def createBatchError (batchId : String) (itemCount : ℕ) : BatchResponse where
  batchId := batchId
  success := false
  stats := { totalItems := itemCount, failedItems := itemCount, invalidItems := itemCount }

/-- What `process_batch` makes of a run of the chain: it catches the errors it names only. -/
def respondTo (request : SubmittedBatch) (run : Run ChainContext BatchError) :
    Except BatchError BatchResponse :=
  match run.error with
  | none => .ok (toBatchResponse run.context)
  | some (.listed _) => .ok (createBatchError request.batchId request.items.length)
  | some e => .error e

/-- The context that `process_batch` makes. -/
def SubmittedBatch.context (request : SubmittedBatch) : ChainContext where
  batchRequest := some request.toBatchRequest
  batchItems := request.items
  batchSize := request.items.length
  failFast := request.failFast
  deduplicate := request.deduplicate

/-! ## No harm done -/

/-- A response says that nothing has succeeded. -/
structure Failing (response : BatchResponse) : Prop where
  success : response.success = false
  items : ∀ item ∈ response.items, item.success = false

/-- No item was processed, and no response says that something has succeeded. -/
structure Harmless (request : SubmittedBatch) (run : Run ChainContext BatchError) : Prop where
  called : run.context.called = []
  failing : ∀ response, respondTo request run = .ok response → Failing response

/-- A batch has come to the processing, and no item of it can be processed: there is no place for
one, or no time. -/
def Inert (context : ChainContext) : Prop :=
  context.batchItems ≠ [] ∧ (context.maxConcurrency = 0 ∨ hasTime context = false)

/-! ## Contexts in front of the processing -/

/-- Nothing has been processed yet, and a response that is there is a failing one. -/
structure Fresh (context : ChainContext) : Prop where
  processedItems : context.processedItems = []
  failedItems : context.failedItems = []
  called : context.called = []
  maxConcurrency : 0 ≤ context.maxConcurrency
  batchResponse : ∀ response, context.batchResponse = some response → Failing response

def leaves {γ ε : Type} : Work γ ε → γ
  | .callNext context => context
  | .ends context => context
  | .raises _ context => context

section Work

variable {context : ChainContext}

theorem Fresh.start (request : SubmittedBatch) : Fresh request.context :=
  ⟨rfl, rfl, rfl, Int.natCast_nonneg 100, fun _ h => by cases h⟩

theorem Fresh.setEarlyResult (h : Fresh context) (errors : List String) (stage : Option String) :
    Fresh (context.setEarlyResult errors stage) :=
  ⟨h.processedItems, h.failedItems, h.called, h.maxConcurrency, h.batchResponse⟩

theorem failing_createFallbackResponse (context : ChainContext) :
    Failing (BreakerStage.createFallbackResponse context) := by
  refine ⟨rfl, fun item hitem => ?_⟩
  obtain ⟨requested, -, rfl⟩ := List.mem_map.mp hitem
  rfl

variable [PrintTable] [LowerTable] {κ : Type} [DecidableEq κ]

omit [LowerTable] in
theorem Fresh.deduplication (h : Fresh context) (stage : DeduplicationStage) :
    Fresh (leaves (stage.work context)) := by
  unfold DeduplicationStage.work Deduplication.process
  split
  · rename_i heq
    split at heq
    · cases heq
      exact h
    · split at heq
      · cases heq
        exact h
      · split at heq
        · cases heq
          exact ⟨h.processedItems, h.failedItems, h.called, h.maxConcurrency, h.batchResponse⟩
        · split at heq
          · cases heq
          · cases heq
            exact ⟨h.processedItems, h.failedItems, h.called, h.maxConcurrency, h.batchResponse⟩
  · exact h

omit [PrintTable] in
theorem Fresh.governance (h : Fresh context) (stage : GovernanceStage κ) :
    Fresh (leaves (stage.work context)) := by
  have hdeny : ∀ message validationStage maciViolation,
      Fresh (leaves (stage.deny context message validationStage maciViolation)) := by
    intro message validationStage maciViolation
    unfold GovernanceStage.deny
    split
    · exact h
    · exact h.setEarlyResult ..
  unfold GovernanceStage.work
  dsimp only
  split
  · exact h
  · split
    · exact h
    · exact hdeny ..
    · split
      · exact hdeny ..
      · split
        · exact h
        · split
          · exact h
          · exact hdeny ..

theorem Fresh.work (h : Fresh context) (stage : Stage κ) : Fresh (leaves (stage.work context)) := by
  cases stage with
  | validation mw request =>
    show Fresh (leaves (mw.work request context))
    unfold Validation.work
    have hitems : Fresh { context with
        batchItems := request.items.filter fun item => validateBatchItem item = [] } :=
      ⟨h.processedItems, h.failedItems, h.called, h.maxConcurrency, h.batchResponse⟩
    dsimp only
    split
    · split
      · exact h
      · exact h.setEarlyResult ..
    · split
      · split
        · exact hitems
        · exact hitems.setEarlyResult ..
      · exact ⟨h.processedItems, h.failedItems, h.called, h.maxConcurrency, h.batchResponse⟩
  | tenantIsolation mw =>
    show Fresh (leaves (mw.work context))
    unfold TenantIsolation.work
    split
    · exact h
    · split
      · split
        · exact h
        · exact h.setEarlyResult ..
      · exact h
  | deduplication stage => exact h.deduplication stage
  | governance stage => exact h.governance stage
  | concurrency mw =>
    show Fresh (leaves (mw.work context))
    unfold Concurrency.work
    have hplaces : Fresh { context with maxConcurrency := mw.maxConcurrency } :=
      ⟨h.processedItems, h.failedItems, h.called, Int.natCast_nonneg _, h.batchResponse⟩
    dsimp only
    split
    · split
      · exact hplaces
      · exact hplaces.setEarlyResult ..
    · exact hplaces
  | circuitBreaker stage =>
    show Fresh (leaves (stage.work context))
    unfold BreakerStage.work
    split
    · exact h
    · split
      · exact h
      · refine ⟨h.processedItems, h.failedItems, h.called, h.maxConcurrency, ?_⟩
        rintro response heq
        cases heq
        exact failing_createFallbackResponse context

end Work

/-! ## The processing of a fresh context -/

section Tail

variable {mw : Processing} {context : ChainContext} {request : SubmittedBatch}

/-- A result that answers an item, and not with success. -/
def Unsuccessful (result : Except PyError BatchResponseItem) : Prop :=
  (∃ text, result = .error (.other text)) ∨ ∃ response, result = .ok response ∧
    response.success = false

theorem answers_of_unsuccessful (failFast : Bool)
    {results : List (BatchRequestItem × Except PyError BatchResponseItem)}
    (h : ∀ result ∈ results, Unsuccessful result.2) :
    (∀ answer ∈ answers failFast results, answer.success = false) ∧
      (results ≠ [] → answers failFast results ≠ []) := by
  induction results with
  | nil => exact ⟨fun answer hanswer => absurd hanswer List.not_mem_nil, fun hne => absurd rfl hne⟩
  | cons first rest ih =>
    rw [List.forall_mem_cons] at h
    obtain ⟨hfirst, hrest⟩ := h
    obtain ⟨item, result⟩ := first
    rcases hfirst with ⟨text, rfl⟩ | ⟨response, rfl, hfailed⟩
    · rw [answers]
      refine ⟨fun answer hanswer => ?_, fun _ => List.cons_ne_nil _ _⟩
      rcases List.mem_cons.mp hanswer with rfl | hanswer
      · rfl
      · split at hanswer
        · cases hanswer
        · exact (ih hrest).1 answer hanswer
    · rw [answers]
      refine ⟨fun answer hanswer => ?_, fun _ => List.cons_ne_nil _ _⟩
      rcases List.mem_cons.mp hanswer with rfl | hanswer
      · exact hfailed
      · split at hanswer
        · cases hanswer
        · exact (ih hrest).1 answer hanswer

theorem unsuccessful_of_not_hasTime (htime : hasTime context = false) {attempt : Attempt}
    (hlate : (∃ ms, timeoutMs context.toBatchPipelineContext = .ok ms ∧ ms ≤ 0) →
      attempt = .timedOut) (item : BatchRequestItem) :
    Unsuccessful (processWithSemaphore mw context.toBatchPipelineContext item attempt) := by
  rw [hasTime] at htime
  rw [processWithSemaphore]
  rcases hms : timeoutMs context.toBatchPipelineContext with text | ms
  · exact .inl ⟨text, rfl⟩
  · rw [hms] at htime
    rw [hlate ⟨ms, hms, by simpa using htime⟩]
    exact .inr ⟨_, rfl, rfl⟩

variable (mw request) in
theorem respondTo_finished_respond (hfresh : Fresh context) (attempt : ℕ → Attempt)
    (results : List (Except PyError BatchResponseItem)) :
    ∃ response, respondTo request
        (finished mw context (.ok (respond context.toBatchPipelineContext attempt results))) =
          .ok response ∧
      response.items = answers context.failFast (context.batchItems.zip results) ∧
      (response.success = true ↔ response.items.length -
        response.items.countP BatchResponseItem.success = 0) := by
  refine ⟨_, rfl, ?_, ?_⟩
  · show (collect _ _).processedItems = _
    rw [collect_processedItems]
    show context.processedItems ++ _ = _
    rw [hfresh.processedItems, List.nil_append]
  · exact decide_eq_true_iff

variable (mw request) in
theorem not_harmless_of_place (hfresh : Fresh context) (hitems : context.batchItems ≠ [])
    (hplaces : 1 ≤ context.maxConcurrency) (htime : hasTime context = true) :
    ∃ run, Finishes mw context run ∧ ¬Harmless request run := by
  obtain ⟨slots, hreach, hrest⟩ := Gather.exists_reach_atRest context.maxConcurrency
    (taskResults mw context.toBatchPipelineContext fun _ => .answered (.ok {}))
  have hslots := hreach.returned (hreach.finished_of_rest hplaces hrest)
  refine ⟨_, ⟨_, _, .gathered hitems (by omega) hreach hslots, ?_, rfl⟩, fun h => ?_⟩
  · rintro ⟨ms, hms, hle⟩
    rw [hasTime, hms, decide_eq_true_iff] at htime
    omega
  · obtain ⟨response, hresponse, hanswers, -⟩ := respondTo_finished_respond mw request
      hfresh (fun _ => .answered (.ok {}))
      (taskResults mw context.toBatchPipelineContext fun _ => .answered (.ok {}))
    have hfailing := h.failing response hresponse
    rw [zip_taskResults] at hanswers
    obtain ⟨first, rest, hcons⟩ := List.exists_cons_of_ne_nil hitems
    have hsucceeds : ∃ answer, processWithSemaphore mw context.toBatchPipelineContext first
        (.answered (.ok {})) = .ok answer ∧ answer.success = true := by
      rw [hasTime] at htime
      rw [processWithSemaphore]
      rcases hms : timeoutMs context.toBatchPipelineContext with text | ms
      · rw [hms] at htime
        cases htime
      · dsimp only
        rw [processItem]
        split
        · exact ⟨_, rfl, rfl⟩
        · exact ⟨_, rfl, rfl⟩
    obtain ⟨answer, hanswer, hsuccess⟩ := hsucceeds
    have htasks : ∃ more, withResults mw context.toBatchPipelineContext
        (tasks context.toBatchPipelineContext fun _ => .answered (.ok {})) =
          (first, .ok answer) :: more := by
      rw [tasks, hcons, List.zipIdx_cons, List.map_cons, withResults, List.map_cons, hanswer]
      exact ⟨_, rfl⟩
    obtain ⟨more, hmore⟩ := htasks
    rw [hmore, answers] at hanswers
    have hfalse := hfailing.items answer (hanswers ▸ List.mem_cons_self ..)
    rw [hsuccess] at hfalse
    cases hfalse

variable (mw request) in
/-- **The processing does no harm** exactly where no item can be processed. -/
theorem harmless_processing_iff (hfresh : Fresh context) :
    (∀ run, Finishes mw context run → Harmless request run) ↔ Inert context := by
  constructor
  · intro h
    have hitems : context.batchItems ≠ [] := by
      intro hnil
      have hharmless := h _ ⟨fun _ => .timedOut, _, .noItems hnil, fun _ _ => rfl, rfl⟩
      cases (hharmless.failing _ rfl).success
    refine ⟨hitems, ?_⟩
    by_contra hnot
    rw [not_or, Bool.not_eq_false] at hnot
    have hplaces := hfresh.maxConcurrency
    obtain ⟨run, hrun, hharm⟩ := not_harmless_of_place mw request hfresh hitems
      (by omega) hnot.2
    exact hharm (h run hrun)
  · rintro ⟨hitems, hinert⟩ run ⟨attempt, outcome, hprocessed, hlate, rfl⟩
    cases hprocessed with
    | noItems hnil => exact absurd hnil hitems
    | noSemaphore _ hneg => exact absurd hfresh.maxConcurrency (by omega)
    | @gathered slots results _ _ hreach hslots =>
      subst hslots
      rcases hinert with hzero | htime
      · -- without a place the tasks stay at the start
        have hstart := hreach.eq_start (by omega)
        obtain ⟨first, rest, hcons⟩ := List.exists_cons_of_ne_nil
          (taskResults_ne_nil mw attempt hitems)
        rw [hcons] at hstart
        rcases results with _ | ⟨result, more⟩
        · cases hstart
        · cases (List.cons.inj hstart).1
      · obtain ⟨response, hresponse, hanswers, hsuccess⟩ := respondTo_finished_respond mw
          request hfresh attempt results
        rw [Gather.Reach.results_eq hreach, zip_taskResults] at hanswers
        have hunsuccessful : ∀ result ∈ withResults mw context.toBatchPipelineContext
            (tasks context.toBatchPipelineContext attempt), Unsuccessful result.2 := by
          intro result hresult
          obtain ⟨task, htask, rfl⟩ := List.mem_map.mp hresult
          obtain ⟨indexed, -, rfl⟩ := List.mem_map.mp htask
          exact unsuccessful_of_not_hasTime htime (fun hms => hlate hms _) _
        obtain ⟨hall, hne⟩ := answers_of_unsuccessful context.failFast hunsuccessful
        rw [← hanswers] at hall hne
        have hcount : response.items.countP BatchResponseItem.success = 0 := by
          rw [List.countP_eq_zero]
          intro item hitem
          rw [hall item hitem]
          exact Bool.false_ne_true
        have htasks : withResults mw context.toBatchPipelineContext
            (tasks context.toBatchPipelineContext attempt) ≠ [] := by
          rw [withResults, Ne, List.map_eq_nil_iff, tasks_eq_nil_iff]
          exact hitems
        refine ⟨?_, fun response' hresponse' => ?_⟩
        · show context.called ++ calledFor mw context = []
          rw [hfresh.called, calledFor, htime, Bool.and_false, if_neg Bool.false_ne_true]
          rfl
        · rw [hresponse] at hresponse'
          cases hresponse'
          refine ⟨?_, hall⟩
          rw [← Bool.not_eq_true, hsuccess, hcount]
          have hlength := List.length_pos_of_ne_nil (hne htasks)
          omega

theorem Harmless.congr {run : Run ChainContext BatchError} (run' : Run ChainContext BatchError)
    (hcontext : run.context = run'.context) (herror : run.error = run'.error) :
    Harmless request run ↔ Harmless request run' := by
  have hrespond : respondTo request run = respondTo request run' := by
    rw [respondTo, respondTo, hcontext, herror]
  constructor
  · exact fun h => ⟨hcontext ▸ h.called, hrespond ▸ h.failing⟩
  · exact fun h => ⟨hcontext.symm ▸ h.called, hrespond ▸ h.failing⟩

variable (request) in
theorem harmless_returned_iff (hfresh : Fresh context)
    (steps : List (Step ChainContext BatchError)) :
    Harmless request ⟨steps, context, none⟩ ↔ context.batchResponse.isSome = true := by
  constructor
  · intro h
    cases hresponse : context.batchResponse with
    | some response => rfl
    | none =>
      have hsuccess := (h.failing (toBatchResponse context) rfl).success
      rw [toBatchResponse, hresponse] at hsuccess
      have hnone : context.failedItems = [] := hfresh.failedItems
      simp [hnone] at hsuccess
  · intro h
    obtain ⟨response, hresponse⟩ := Option.isSome_iff_exists.mp h
    refine ⟨hfresh.called, fun response' hrespond => ?_⟩
    have heq : toBatchResponse context = response' := Except.ok.inj hrespond
    rw [toBatchResponse, hresponse] at heq
    exact hfresh.batchResponse response' (hresponse.trans (congrArg some heq))

theorem harmless_raised (hfresh : Fresh context) (steps : List (Step ChainContext BatchError))
    (error : BatchError) : Harmless request ⟨steps, context, some error⟩ := by
  refine ⟨hfresh.called, fun response hrespond => ?_⟩
  cases error with
  | listed text =>
    obtain rfl : createBatchError request.batchId request.items.length = response :=
      Except.ok.inj hrespond
    exact ⟨rfl, fun item hitem => absurd hitem List.not_mem_nil⟩
  | _ => cases hrespond

theorem Finishes.not_listed {run : Run ChainContext BatchError} (h : Finishes mw context run)
    (text : String) : run.error ≠ some (.listed text) := by
  obtain ⟨attempt, outcome, -, -, rfl⟩ := h
  cases outcome with
  | ok batch => exact fun heq => by cases heq
  | error e => exact fun heq => by cases heq

end Tail

end EnhancedAgentBus.Batch
