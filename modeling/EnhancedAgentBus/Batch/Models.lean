import EnhancedAgentBus.Json
import Mathlib.Data.Int.Notation

/-!
# Batches

The items of a batch request, the items of its response, and the context that the middlewares of the
batch pipeline hand on.  Durations are left out: nothing is decided by them.
-/

namespace EnhancedAgentBus.Batch

abbrev JSONDict := List (String × Json)

/-- `BatchRequestItem`: one request of a batch. -/
structure BatchRequestItem where
  requestId : String
  content : JSONDict
  fromAgent : String := ""
  toAgent : String := ""
  messageType : String := "governance_request"
  tenantId : String := "default"
  priority : ℤ := 1
  metadata : JSONDict := []
  constitutionalHash : String := ""
  priority_ge : 0 ≤ priority := by decide
  priority_le : priority ≤ 3 := by decide

namespace BatchRequestItem

theorem default_priority_ge : (0 : ℤ) ≤ 1 := by decide

theorem default_priority_le : (1 : ℤ) ≤ 3 := by decide

end BatchRequestItem

inductive BatchItemStatus where
  | pending
  | processing
  | success
  | failed
  | skipped
  deriving DecidableEq

/-- `ValidationResult`, with the `validation_stage` of its metadata. -/
structure ValidationResult where
  isValid : Bool := true
  errors : List String := []
  decision : Option String := some "ALLOW"
  validationStage : Option String := none
  deriving DecidableEq

/-- `BatchResponseItem`: the answer to one request. -/
structure BatchResponseItem where
  requestId : String
  status : BatchItemStatus
  valid : Bool := false
  /-- The one member of `validation_result`, under its key. -/
  validationResult : Option (String × Option String) := none
  errorCode : Option String := none
  errorMessage : Option String := none
  constitutionalValidated : Bool := false
  deriving DecidableEq

namespace BatchResponseItem

def success (item : BatchResponseItem) : Bool := item.status = .success

def createSuccess (requestId : String) (valid : Bool) (details : Option (String × Option String)) :
    BatchResponseItem where
  requestId := requestId
  status := .success
  valid := valid
  validationResult := details
  constitutionalValidated := true

def createError (requestId errorCode errorMessage : String) : BatchResponseItem where
  requestId := requestId
  status := .failed
  errorCode := some errorCode
  errorMessage := some errorMessage

@[simp] theorem createError_success (requestId errorCode errorMessage : String) :
    (createError requestId errorCode errorMessage).success = false := rfl

end BatchResponseItem

structure BatchResponseStats where
  totalItems : ℕ
  successfulItems : ℕ := 0
  failedItems : ℕ := 0
  skipped : ℕ := 0
  validItems : ℕ := 0
  invalidItems : ℕ := 0
  deduplicatedCount : ℕ := 0
  deriving DecidableEq

structure BatchResponse where
  batchId : String
  success : Bool := true
  items : List BatchResponseItem := []
  stats : BatchResponseStats := { totalItems := 0 }
  deriving DecidableEq

inductive PyError where
  /-- One of the types that `BATCH_ITEM_PROCESSING_ERRORS` names. -/
  | listed (text : String)
  /-- Another `Exception`. -/
  | other (text : String)
  /-- No `Exception`: `asyncio.CancelledError`, or another `BaseException`. -/
  | base
  deriving DecidableEq

/-- `str(e)`, where it is an `Exception`. -/
def PyError.exceptionText : PyError → Option String
  | .listed text | .other text => some text
  | .base => none

/-- `BatchRequest`, as far as it is read here.  The property `timeout_ms` raises an `Exception`
where the option is no number. -/
structure BatchRequest where
  batchId : String
  timeoutMs : Except String ℤ := .ok 30000

structure BatchPipelineContext where
  batchRequest : Option BatchRequest := none
  batchResponse : Option BatchResponse := none
  batchItems : List BatchRequestItem := []
  processedItems : List BatchResponseItem := []
  failedItems : List (BatchRequestItem × String) := []
  batchSize : ℕ := 0
  maxConcurrency : ℤ := 100
  failFast : Bool := false
  deduplicate : Bool := true
  deduplicatedCount : ℕ := 0
  earlyResult : Option ValidationResult := none
  /-- `metadata["timeout_count"]` -/
  timeoutCount : Option ℕ := none

def BatchPipelineContext.addFailedItem (context : BatchPipelineContext) (item : BatchRequestItem)
    (error : String) : BatchPipelineContext :=
  { context with failedItems := context.failedItems ++ [(item, error)] }

def BatchPipelineContext.addProcessedItem (context : BatchPipelineContext)
    (item : BatchResponseItem) : BatchPipelineContext :=
  { context with processedItems := context.processedItems ++ [item] }

namespace BatchPipelineContext

variable (context : BatchPipelineContext) (item : BatchRequestItem) (error : String)
variable (response : BatchResponseItem)

@[simp] theorem addFailedItem_failFast :
    (context.addFailedItem item error).failFast = context.failFast := rfl

@[simp] theorem addFailedItem_processedItems :
    (context.addFailedItem item error).processedItems = context.processedItems := rfl

@[simp] theorem addProcessedItem_failFast :
    (context.addProcessedItem response).failFast = context.failFast := rfl

@[simp] theorem addProcessedItem_processedItems :
    (context.addProcessedItem response).processedItems = context.processedItems ++ [response] := rfl

end BatchPipelineContext

end EnhancedAgentBus.Batch
