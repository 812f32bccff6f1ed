import EnhancedAgentBus.Json.Text
import EnhancedAgentBus.SagaPersistence.Models
import Mathlib

/-!
# The wire forms of a saga

`to_dict` and `from_dict` of the four record types of `saga_persistence/models.py`, and the hash of
texts that `to_redis_hash` writes and `from_redis_hash` reads.

A reader can fail, which is an exception of the code or a record that the types do not admit, and it
draws an identifier for each one that may be absent, whether it is absent or not.  What a reader
answers is therefore said for every number of identifiers drawn before (`Answers`).  The texts of
dates and floats are the interpreter's own; a record is `Storable` when those that it holds are read
back.
-/

namespace EnhancedAgentBus.SagaPersistence

/-- The text of a float, as `repr` writes it and `float` reads it, and the float of an integer. -/
class FloatText where
  reprFloat : ℚ → PyFloat
  floatOfText : String → Option ℚ
  floatOfInt : ℤ → Option ℚ

/-- The `n`-th identifier that `str(uuid.uuid4())` draws. -/
class Uuid4 where
  uuid4 : ℕ → String

/-! ## Readers -/

abbrev Reader := StateT ℕ Option

namespace Reader

variable {α β : Type}

/-- The reader answers `a`, whatever has been drawn before. -/
def Answers (x : Reader α) (a : α) : Prop := ∀ drawn, ∃ drawn', x.run drawn = some (a, drawn')

theorem answers_pure (a : α) : Answers (pure a) a := fun drawn => ⟨drawn, rfl⟩

theorem answers_of_eq {a b : α} (h : a = b) : Answers (pure a) b := h ▸ answers_pure a

theorem answers_lift {x : Option α} {a : α} (h : x = some a) :
    Answers (liftM x : Reader α) a := by
  intro drawn
  exact ⟨drawn, by rw [h]; rfl⟩

theorem Answers.bind {x : Reader α} {a : α} {f : α → Reader β} {b : β} (hx : Answers x a)
    (hf : Answers (f a) b) : Answers (x >>= f) b := by
  intro drawn
  obtain ⟨drawn', hx⟩ := hx drawn
  obtain ⟨drawn'', hf⟩ := hf drawn'
  refine ⟨drawn'', ?_⟩
  rw [StateT.run_bind, hx]
  exact hf

theorem Answers.map {x : Reader α} {a : α} (f : α → β) (hx : Answers x a) :
    Answers (f <$> x) (f a) := by
  rw [map_eq_pure_bind]
  exact hx.bind (answers_pure (f a))

theorem answers_mapM {read : β → Reader α} {write : α → β} {xs : List α}
    (h : ∀ x ∈ xs, Answers (read (write x)) x) : Answers ((xs.map write).mapM read) xs := by
  induction xs with
  | nil => exact answers_pure []
  | cons x xs ih =>
    rw [List.map_cons, List.mapM_cons]
    refine (h x List.mem_cons_self).bind ?_
    exact (ih fun y hy => h y (List.mem_cons_of_mem _ hy)).bind (answers_pure _)

end Reader

open Reader

/-! ## Reading one value -/

section Values

variable [IsoText] [FloatText] [Uuid4] [PrintTable]

/-- `dateValue.isoformat() if dateValue else None` -/
def dateJson : Option Instant → Json
  | some t => .str (IsoText.isoformat t)
  | none => .null

/-- `text`, or `None` -/
def textJson : Option String → Json
  | some s => .str s
  | none => .null

/-- `str(data.get(key, fallback))` -/
def readText (fallback : String) : Option Json → String
  | some v => String.ofList v.pyStr
  | none => fallback

/-- `str(data.get(key, str(uuid.uuid4())))` -/
def readId (value : Option Json) : Reader String := fun drawn =>
  some (readText (Uuid4.uuid4 drawn) value, drawn + 1)

/-- A text or `None`, as it is. -/
def readOptText : Option Json → Option (Option String)
  | none | some .null => some none
  | some (.str s) => some (some s)
  | some _ => none

/-- `bool(data.get(key, False))` -/
def readBool : Option Json → Bool
  | some v => v.truthy
  | none => false

/-- `int(text)`: white space around the number and a sign are allowed. -/
def intOfText (text : String) : Option ℤ :=
  match (text.toList.dropWhile Char.isWhitespace).rdropWhile Char.isWhitespace with
  | '+' :: digits => (String.ofList digits).toNat?.map Int.ofNat
  | cs => (String.ofList cs).toInt?

/-- `int(value)` of a float: towards zero. -/
def truncate (q : ℚ) : ℤ := q.num.tdiv q.den

/-- `int(data.get(key, fallback))` -/
def readInt (fallback : ℤ) : Option Json → Option ℤ
  | none => some fallback
  | some (.int i) => some i
  | some (.bool b) => some (if b then 1 else 0)
  | some (.float f) => (FloatText.floatOfText f.text).map truncate
  | some (.str s) => intOfText s
  | some _ => none

/-- `float(data.get(key, 0.0))` -/
def readFloat : Option Json → Option ℚ
  | none => some 0
  | some (.int i) => FloatText.floatOfInt i
  | some (.bool b) => some (if b then 1 else 0)
  | some (.float f) => FloatText.floatOfText f.text
  | some (.str s) => FloatText.floatOfText s
  | some _ => none

/-- `datetime.fromisoformat(str(data[key])) if data.get(key) else None` -/
def readDate : Option Json → Option (Option Instant)
  | some v =>
    if v.truthy then (IsoText.fromisoformat (String.ofList v.pyStr)).map some else some none
  | none => some none

/-- A key and a value as `dict` takes them out of a sequence. -/
def pairOf : Json → Option (String × Json)
  | .arr [.str k, v] => some (k, v)
  | .obj [(k, _), (k', _)] => some (k, .str k')
  | .str s =>
    match s.toList with
    | [c, c'] => some (String.ofList [c], .str (String.ofList [c']))
    | _ => none
  | _ => none

/-- `dict(data.get(key, {})) if data.get(key) else {}` -/
def readDict : Option Json → Option JsonDict
  | none => some []
  | some v =>
    if v.truthy then
      match v with
      | .obj members => some members
      | .arr items => (items.mapM pairOf).map JsonText.dictOf
      | _ => none
    else some []

/-- `Enum(str(value)) if value else fallback` -/
def readEnum {α : Type} (parse : String → Option α) (fallback : α) : Option Json → Option α
  | some v => if v.truthy then parse (String.ofList v.pyStr) else some fallback
  | none => some fallback

/-- `data.get(key)` -/
def readJson (value : Option Json) : Json := value.getD .null

/-- `[str(d) for d in value] if isinstance(value, list) else []` -/
def readTexts : Option Json → List String
  | some (.arr items) => items.map fun v => String.ofList v.pyStr
  | _ => []

/-- The members of `value` if `isinstance(value, dict)`. -/
def asDict : Json → Option JsonDict
  | .obj members => some members
  | _ => none

/-- `[read(item) for item in value if isinstance(item, dict)] if isinstance(value, list) else []` -/
def readRecords {α : Type} (read : JsonDict → Reader α) : Option Json → Reader (List α)
  | some (.arr items) => (items.filterMap asDict).mapM read
  | _ => pure []

end Values

/-! ## Reading one text -/

/-- `json.dumps(value)` -/
def dumps (value : Json) : String := String.ofList (JsonText.write JsonText.compact 0 value)

/-- `dateValue.isoformat() if dateValue else ""` -/
def dateText [IsoText] : Option Instant → String
  | some t => IsoText.isoformat t
  | none => ""

/-- `datetime.fromisoformat(data[key]) if data.get(key) else None` -/
def readDateText [IsoText] : Option String → Option (Option Instant)
  | some text => if text ≠ "" then (IsoText.fromisoformat text).map some else some none
  | none => some none

/-- `json.loads(text) if text else empty` for `text = data.get(key, json.dumps(empty))` -/
def readLoads (empty : Json) : Option String → Option Json
  | some text => if text ≠ "" then JsonText.loads text.toList else some empty
  | none => some empty

/-- `[read(item) for item in value if isinstance(item, dict)]` -/
def readItems {α : Type} (read : JsonDict → Reader α) : Json → Reader (List α)
  | .arr items => (items.filterMap asDict).mapM read
  -- the keys of a dictionary and the characters of a text are texts
  | .obj _ | .str _ => pure []
  | _ => failure

/-- `Enum(text) if text else fallback` -/
def readEnumText {α : Type} (parse : String → Option α) (fallback : α) : Option String → Option α
  | some text => if text ≠ "" then parse text else some fallback
  | none => some fallback

/-- `int(data.get(key, str(fallback)))` -/
def readIntText (fallback : ℤ) : Option String → Option ℤ
  | some text => intOfText text
  | none => some fallback

/-- `float(data.get(key, "0.0"))` -/
def readFloatText [FloatText] : Option String → Option ℚ
  | some text => FloatText.floatOfText text
  | none => some 0

/-- `data.get(key, str(uuid.uuid4()))` -/
def readIdText [Uuid4] (value : Option String) : Reader String := fun drawn =>
  some (value.getD (Uuid4.uuid4 drawn), drawn + 1)

/-! ## What is read back -/

def ReadsDate [IsoText] (t : Instant) : Prop :=
  IsoText.isoformat t ≠ "" ∧ IsoText.fromisoformat (IsoText.isoformat t) = some t

/-- The text of a float is one that `repr` writes and is read back. -/
def ReadsFloat [FloatText] (q : ℚ) : Prop :=
  JsonText.isRepr (FloatText.reprFloat q) = true ∧
    FloatText.floatOfText (FloatText.reprFloat q).text = some q

theorem truthy_str {s : String} : (Json.str s).truthy = true ↔ s ≠ "" := by
  simp [Json.truthy]

theorem readText_str [PrintTable] (fallback s : String) : readText fallback (some (.str s)) = s := by
  rw [readText, Json.pyStr, String.ofList_toList]

theorem readDate_dateJson [IsoText] [PrintTable] {t : Option Instant} (h : ∀ i ∈ t, ReadsDate i) :
    readDate (some (dateJson t)) = some t := by
  rcases t with _ | i
  · rfl
  · obtain ⟨hne, hread⟩ := h i rfl
    rw [dateJson, readDate, if_pos (truthy_str.mpr hne), Json.pyStr, String.ofList_toList, hread]
    rfl

theorem readOptText_textJson (s : Option String) : readOptText (some (textJson s)) = some s := by
  cases s <;> rfl

theorem readFloat_reprFloat [FloatText] {q : ℚ} (h : ReadsFloat q) :
    readFloat (some (.float (FloatText.reprFloat q))) = some q := h.2

theorem readEnum_value [PrintTable] {α : Type} {parse : String → Option α} {text : String}
    {a : α} (fallback : α) (hne : text ≠ "") (h : parse text = some a) :
    readEnum parse fallback (some (.str text)) = some a := by
  rw [readEnum, if_pos (truthy_str.mpr hne), Json.pyStr, String.ofList_toList, h]

theorem readDict_obj (members : JsonDict) : readDict (some (.obj members)) = some members := by
  cases members <;> rfl

theorem readTexts_map [PrintTable] (texts : List String) :
    readTexts (some (.arr (texts.map .str))) = texts := by
  rw [readTexts, List.map_map]
  exact (List.map_congr_left fun s _ => by
    rw [Function.comp_apply, Json.pyStr, String.ofList_toList, id]).trans (List.map_id texts)

theorem answers_readId [Uuid4] [PrintTable] (s : String) : Answers (readId (some (.str s))) s := by
  intro drawn
  exact ⟨drawn + 1, congrArg (fun text => some (text, drawn + 1)) (readText_str _ s)⟩

theorem readDateText_dateText [IsoText] {t : Option Instant} (h : ∀ i ∈ t, ReadsDate i) :
    readDateText (some (dateText t)) = some t := by
  rcases t with _ | i
  · rfl
  · obtain ⟨hne, hread⟩ := h i rfl
    rw [dateText, readDateText, if_pos hne, hread]
    rfl

theorem readLoads_dumps (empty : Json) {value : Json} (h : JsonText.dumpable value = true) :
    readLoads empty (some (dumps value)) = some value := by
  have hread : JsonText.loads (dumps value).toList = some value := by
    rw [dumps, String.toList_ofList]
    exact JsonText.loads_write _ h
  have hne : dumps value ≠ "" := by
    intro hempty
    rw [hempty] at hread
    cases hread
  rw [readLoads, if_pos hne, hread]

theorem not_isWhitespace_of_isNumberChar {c : Char} (h : JsonText.isNumberChar c = true) :
    c.isWhitespace = false := by
  by_contra hspace
  rw [Bool.not_eq_false, Char.isWhitespace] at hspace
  simp only [Bool.or_eq_true, decide_eq_true_eq] at hspace
  rcases hspace with ((rfl | rfl) | rfl) | rfl <;> cases h

theorem readNumber_plus (cs : List Char) : JsonText.readNumber ('+' :: cs) = none := by
  rfl

theorem intOfText_repr (i : ℤ) : intOfText i.repr = some i := by
  have hnot : ∀ c ∈ i.repr.toList, ¬c.isWhitespace = true := fun c hc => by
    rw [not_isWhitespace_of_isNumberChar (JsonText.all_isNumberChar_int i c hc)]
    exact Bool.false_ne_true
  have hstrip : (i.repr.toList.dropWhile Char.isWhitespace).rdropWhile Char.isWhitespace =
      i.repr.toList := by
    rw [List.dropWhile_eq_self_iff.mpr fun _ => hnot _ (List.getElem_mem _),
      List.rdropWhile_eq_self_iff.mpr fun _ => hnot _ (List.getLast_mem _)]
  rw [intOfText, hstrip]
  split
  · rename_i digits heq
    have hread := JsonText.readNumber_int i
    rw [heq, readNumber_plus] at hread
    cases hread
  · rw [String.ofList_toList, Int.toInt?_repr]

theorem filterMap_asDict {α : Type} (write : α → JsonDict) (xs : List α) :
    (xs.map fun x => Json.obj (write x)).filterMap asDict = xs.map write := by
  rw [List.filterMap_map]
  exact congrFun List.filterMap_eq_map xs

theorem answers_readRecords {α : Type} {read : JsonDict → Reader α} {write : α → JsonDict}
    {xs : List α} (h : ∀ x ∈ xs, Answers (read (write x)) x) :
    Answers (readRecords read (some (.arr (xs.map fun x => .obj (write x))))) xs := by
  rw [readRecords, filterMap_asDict]
  exact answers_mapM h

theorem answers_readIdText [Uuid4] (s : String) : Answers (readIdText (some s)) s :=
  fun drawn => ⟨drawn + 1, rfl⟩

theorem readEnumText_value {α : Type} {parse : String → Option α} {text : String} {a : α}
    (fallback : α) (hne : text ≠ "") (h : parse text = some a) :
    readEnumText parse fallback (some text) = some a := by
  rw [readEnumText, if_pos hne, h]

theorem answers_readItems {α : Type} {read : JsonDict → Reader α} {write : α → JsonDict}
    {xs : List α} (h : ∀ x ∈ xs, Answers (read (write x)) x) :
    Answers (readItems read (.arr (xs.map fun x => .obj (write x)))) xs := by
  rw [readItems, filterMap_asDict]
  exact answers_mapM h

/-! ### What can be dumped -/

theorem dumpable_str (s : String) : JsonText.dumpable (.str s) = true := rfl

theorem dumpable_int (i : ℤ) : JsonText.dumpable (.int i) = true := rfl

theorem dumpable_bool (b : Bool) : JsonText.dumpable (.bool b) = true := rfl

theorem dumpable_textJson (s : Option String) : JsonText.dumpable (textJson s) = true := by
  cases s <;> rfl

theorem dumpable_arr {α : Type} {write : α → Json} {xs : List α}
    (h : ∀ x ∈ xs, JsonText.dumpable (write x) = true) :
    JsonText.dumpable (.arr (xs.map write)) = true := by
  refine (JsonText.dumpableItems_iff _).mpr fun v hv => ?_
  obtain ⟨x, hx, rfl⟩ := List.mem_map.mp hv
  exact h x hx

theorem dumpable_obj {members : JsonDict} (hkeys : (members.map (·.1)).Nodup)
    (h : JsonText.dumpableMembers members = true) : JsonText.dumpable (.obj members) = true := by
  rw [JsonText.dumpable, decide_eq_true hkeys, h, Bool.and_self]

theorem dumpable_float [FloatText] {q : ℚ} (h : ReadsFloat q) :
    JsonText.dumpable (.float (FloatText.reprFloat q)) = true := h.1

theorem dumpable_dateJson [IsoText] (t : Option Instant) :
    JsonText.dumpable (dateJson t) = true := by
  cases t <;> rfl

/-! ## Enumerations -/

namespace SagaState

def value : SagaState → String
  | initialized => "INITIALIZED"
  | running => "RUNNING"
  | compensating => "COMPENSATING"
  | completed => "COMPLETED"
  | compensated => "COMPENSATED"
  | failed => "FAILED"

/-- `SagaState(text)`; `none` is the `ValueError`. -/
def parse (text : String) : Option SagaState := all.find? (·.value = text)

theorem parse_value (s : SagaState) : parse s.value = some s := by cases s <;> rfl

theorem value_ne (s : SagaState) : s.value ≠ "" := by cases s <;> simp [value]

end SagaState

namespace StepState

def value : StepState → String
  | pending => "PENDING"
  | running => "RUNNING"
  | completed => "COMPLETED"
  | failed => "FAILED"
  | compensated => "COMPENSATED"
  | skipped => "SKIPPED"

/-- `StepState(text)`; `none` is the `ValueError`. -/
def parse (text : String) : Option StepState :=
  [pending, running, completed, failed, compensated, skipped].find? (·.value = text)

theorem parse_value (s : StepState) : parse s.value = some s := by cases s <;> rfl

theorem value_ne (s : StepState) : s.value ≠ "" := by cases s <;> simp [value]

end StepState

namespace CompensationStrategy

def value : CompensationStrategy → String
  | lifo => "LIFO"
  | parallel => "PARALLEL"
  | selective => "SELECTIVE"

/-- `CompensationStrategy(text)`; `none` is the `ValueError`. -/
def parse (text : String) : Option CompensationStrategy :=
  [lifo, parallel, selective].find? (·.value = text)

theorem parse_value (s : CompensationStrategy) : parse s.value = some s := by
  cases s <;> rfl

theorem value_ne (s : CompensationStrategy) : s.value ≠ "" := by cases s <;> simp [value]

end CompensationStrategy

theorem FlywheelRunStage.parse_value (s : FlywheelRunStage) : parse s.value = some s := by
  cases s <;> rfl

theorem EvaluationMode.parse_value (m : EvaluationMode) : parse m.value = some m := by
  cases m <;> decide +kernel

section Records

variable [IsoText] [FloatText] [Uuid4] [PrintTable]

/-! ## Dictionaries -/

namespace CompensationEntry

def toDict (entry : CompensationEntry) : JsonDict :=
  [("compensation_id", .str entry.compensationId), ("step_id", .str entry.stepId),
    ("step_name", .str entry.stepName), ("executed", .bool entry.executed),
    ("executed_at", dateJson entry.executedAt),
    ("duration_ms", .float (FloatText.reprFloat entry.durationMs)), ("result", entry.result),
    ("error", textJson entry.error), ("retry_count", .int entry.retryCount),
    ("max_retries", .int entry.maxRetries),
    ("constitutional_hash", .str entry.constitutionalHash)]

def fromDict (data : JsonDict) : Reader CompensationEntry := do
  let get key := Json.lookup key data
  let executedAt ← readDate (get "executed_at")
  let compensationId ← readId (get "compensation_id")
  let durationMs ← readFloat (get "duration_ms")
  let error ← readOptText (get "error")
  let retryCount ← readInt 0 (get "retry_count")
  let maxRetries ← readInt 3 (get "max_retries")
  return {
    compensationId
    stepId := readText "" (get "step_id")
    stepName := readText "" (get "step_name")
    executed := readBool (get "executed")
    executedAt
    durationMs
    result := readJson (get "result")
    error
    retryCount
    maxRetries
    constitutionalHash :=
      readText SagaPersistence.constitutionalHash (get "constitutional_hash") }

end CompensationEntry

namespace PersistedStepSnapshot

/-- `compensation.to_dict() if compensation else None` -/
def compensationJson : Option CompensationEntry → Json
  | some entry => .obj entry.toDict
  | none => .null

def toDict (step : PersistedStepSnapshot) : JsonDict :=
  [("step_id", .str step.stepId), ("step_name", .str step.stepName),
    ("step_index", .int step.stepIndex), ("state", .str step.state.value),
    ("input_data", .obj step.inputData), ("output_data", step.outputData),
    ("error_message", textJson step.errorMessage), ("started_at", dateJson step.startedAt),
    ("completed_at", dateJson step.completedAt),
    ("duration_ms", .float (FloatText.reprFloat step.durationMs)),
    ("retry_count", .int step.retryCount), ("max_retries", .int step.maxRetries),
    ("timeout_ms", .int step.timeoutMs), ("dependencies", .arr (step.dependencies.map .str)),
    ("compensation", compensationJson step.compensation), ("metadata", .obj step.metadata),
    ("constitutional_hash", .str step.constitutionalHash)]

def readCompensation : Option Json → Reader (Option CompensationEntry)
  | some (.obj (member :: members)) => some <$> CompensationEntry.fromDict (member :: members)
  | _ => pure none

def fromDict (data : JsonDict) : Reader PersistedStepSnapshot := do
  let get key := Json.lookup key data
  let startedAt ← readDate (get "started_at")
  let completedAt ← readDate (get "completed_at")
  let compensation ← readCompensation (get "compensation")
  let state ← readEnum StepState.parse .pending (get "state")
  let stepId ← readId (get "step_id")
  let stepIndex ← readInt 0 (get "step_index")
  let inputData ← readDict (get "input_data")
  let errorMessage ← readOptText (get "error_message")
  let durationMs ← readFloat (get "duration_ms")
  let retryCount ← readInt 0 (get "retry_count")
  let maxRetries ← readInt 3 (get "max_retries")
  let timeoutMs ← readInt 30000 (get "timeout_ms")
  let metadata ← readDict (get "metadata")
  return {
    stepId
    stepName := readText "" (get "step_name")
    stepIndex
    state
    inputData
    outputData := readJson (get "output_data")
    errorMessage
    startedAt
    completedAt
    durationMs
    retryCount
    maxRetries
    timeoutMs
    dependencies := readTexts (get "dependencies")
    compensation
    metadata
    constitutionalHash :=
      readText SagaPersistence.constitutionalHash (get "constitutional_hash") }

end PersistedStepSnapshot

namespace PersistedSagaState

def toDict (saga : PersistedSagaState) : JsonDict :=
  [("saga_id", .str saga.sagaId), ("saga_name", .str saga.sagaName),
    ("tenant_id", .str saga.tenantId), ("correlation_id", .str saga.correlationId),
    ("state", .str saga.state.value),
    ("compensation_strategy", .str saga.compensationStrategy.value),
    ("steps", .arr (saga.steps.map fun step => .obj step.toDict)),
    ("current_step_index", .int saga.currentStepIndex), ("context", .obj saga.context),
    ("metadata", .obj saga.metadata),
    ("compensation_log", .arr (saga.compensationLog.map fun entry => .obj entry.toDict)),
    ("created_at", .str (IsoText.isoformat saga.createdAt)),
    ("started_at", dateJson saga.startedAt), ("completed_at", dateJson saga.completedAt),
    ("failed_at", dateJson saga.failedAt), ("compensated_at", dateJson saga.compensatedAt),
    ("total_duration_ms", .float (FloatText.reprFloat saga.totalDurationMs)),
    ("failure_reason", textJson saga.failureReason), ("timeout_ms", .int saga.timeoutMs),
    ("version", .int saga.version), ("constitutional_hash", .str saga.constitutionalHash)]

def fromDict (now : Instant) (data : JsonDict) : Reader PersistedSagaState := do
  let get key := Json.lookup key data
  let createdAt ← readDate (get "created_at")
  let startedAt ← readDate (get "started_at")
  let completedAt ← readDate (get "completed_at")
  let failedAt ← readDate (get "failed_at")
  let compensatedAt ← readDate (get "compensated_at")
  let steps ← readRecords PersistedStepSnapshot.fromDict (get "steps")
  let compensationLog ← readRecords CompensationEntry.fromDict (get "compensation_log")
  let state ← readEnum SagaState.parse .initialized (get "state")
  let compensationStrategy ←
    readEnum CompensationStrategy.parse .lifo (get "compensation_strategy")
  let sagaId ← readId (get "saga_id")
  let correlationId ← readId (get "correlation_id")
  let currentStepIndex ← readInt 0 (get "current_step_index")
  let context ← readDict (get "context")
  let metadata ← readDict (get "metadata")
  let totalDurationMs ← readFloat (get "total_duration_ms")
  let failureReason ← readOptText (get "failure_reason")
  let timeoutMs ← readInt 300000 (get "timeout_ms")
  let version ← readInt 1 (get "version")
  return {
    sagaId
    sagaName := readText "" (get "saga_name")
    tenantId := readText "" (get "tenant_id")
    correlationId
    state
    compensationStrategy
    steps
    currentStepIndex
    context
    metadata
    compensationLog
    createdAt := createdAt.getD now
    startedAt
    completedAt
    failedAt
    compensatedAt
    totalDurationMs
    failureReason
    timeoutMs
    version
    constitutionalHash :=
      readText SagaPersistence.constitutionalHash (get "constitutional_hash") }

end PersistedSagaState

/-! ## The hash of texts -/

namespace PersistedSagaState

def toRedisStrings (saga : PersistedSagaState) : List (String × String) :=
  [("saga_id", saga.sagaId), ("saga_name", saga.sagaName), ("tenant_id", saga.tenantId),
    ("correlation_id", saga.correlationId), ("state", saga.state.value),
    ("compensation_strategy", saga.compensationStrategy.value),
    ("steps", dumps (.arr (saga.steps.map fun step => .obj step.toDict))),
    ("current_step_index", saga.currentStepIndex.repr), ("context", dumps (.obj saga.context)),
    ("metadata", dumps (.obj saga.metadata)),
    ("compensation_log", dumps (.arr (saga.compensationLog.map fun entry => .obj entry.toDict))),
    ("created_at", IsoText.isoformat saga.createdAt), ("started_at", dateText saga.startedAt),
    ("completed_at", dateText saga.completedAt), ("failed_at", dateText saga.failedAt),
    ("compensated_at", dateText saga.compensatedAt),
    ("total_duration_ms", (FloatText.reprFloat saga.totalDurationMs).text),
    ("failure_reason", saga.failureReason.getD ""), ("timeout_ms", saga.timeoutMs.repr),
    ("version", saga.version.repr), ("constitutional_hash", saga.constitutionalHash)]

def fromRedisStrings (now : Instant) (data : List (String × String)) :
    Reader PersistedSagaState := do
  let get key := data.lookup key
  let stepsData ← readLoads (.arr []) (get "steps")
  let steps ← readItems PersistedStepSnapshot.fromDict stepsData
  let contextData ← readLoads (.obj []) (get "context")
  let context ← asDict contextData
  let metadataData ← readLoads (.obj []) (get "metadata")
  let metadata ← asDict metadataData
  let compensationLogData ← readLoads (.arr []) (get "compensation_log")
  let compensationLog ← readItems CompensationEntry.fromDict compensationLogData
  let createdAt ← readDateText (get "created_at")
  let startedAt ← readDateText (get "started_at")
  let completedAt ← readDateText (get "completed_at")
  let failedAt ← readDateText (get "failed_at")
  let compensatedAt ← readDateText (get "compensated_at")
  let state ← readEnumText SagaState.parse .initialized (get "state")
  let compensationStrategy ←
    readEnumText CompensationStrategy.parse .lifo (get "compensation_strategy")
  let sagaId ← readIdText (get "saga_id")
  let correlationId ← readIdText (get "correlation_id")
  let currentStepIndex ← readIntText 0 (get "current_step_index")
  let totalDurationMs ← readFloatText (get "total_duration_ms")
  let timeoutMs ← readIntText 300000 (get "timeout_ms")
  let version ← readIntText 1 (get "version")
  return {
    sagaId
    sagaName := (get "saga_name").getD ""
    tenantId := (get "tenant_id").getD ""
    correlationId
    state
    compensationStrategy
    steps
    currentStepIndex
    context
    metadata
    compensationLog
    createdAt := createdAt.getD now
    startedAt
    completedAt
    failedAt
    compensatedAt
    totalDurationMs
    -- `data.get("failure_reason") or None`
    failureReason := (get "failure_reason").filter (· ≠ "")
    timeoutMs
    version
    constitutionalHash :=
      (get "constitutional_hash").getD SagaPersistence.constitutionalHash }

end PersistedSagaState

/-! ## What can be stored -/

/-- The dates and the duration are read back, and the result is a value for `json.dumps`. -/
structure CompensationEntry.Storable (entry : CompensationEntry) : Prop where
  executedAt : ∀ t ∈ entry.executedAt, ReadsDate t
  durationMs : ReadsFloat entry.durationMs
  result : JsonText.dumpable entry.result = true

structure PersistedStepSnapshot.Storable (step : PersistedStepSnapshot) : Prop where
  startedAt : ∀ t ∈ step.startedAt, ReadsDate t
  completedAt : ∀ t ∈ step.completedAt, ReadsDate t
  durationMs : ReadsFloat step.durationMs
  inputData : JsonText.dumpable (.obj step.inputData) = true
  outputData : JsonText.dumpable step.outputData = true
  metadata : JsonText.dumpable (.obj step.metadata) = true
  compensation : ∀ entry ∈ step.compensation, entry.Storable

structure PersistedSagaState.Storable (saga : PersistedSagaState) : Prop where
  createdAt : ReadsDate saga.createdAt
  startedAt : ∀ t ∈ saga.startedAt, ReadsDate t
  completedAt : ∀ t ∈ saga.completedAt, ReadsDate t
  failedAt : ∀ t ∈ saga.failedAt, ReadsDate t
  compensatedAt : ∀ t ∈ saga.compensatedAt, ReadsDate t
  totalDurationMs : ReadsFloat saga.totalDurationMs
  context : JsonText.dumpable (.obj saga.context) = true
  metadata : JsonText.dumpable (.obj saga.metadata) = true
  steps : ∀ step ∈ saga.steps, step.Storable
  compensationLog : ∀ entry ∈ saga.compensationLog, entry.Storable

/-! ## Dictionaries are read back -/

theorem CompensationEntry.answers_fromDict {entry : CompensationEntry} (h : entry.Storable) :
    Answers (fromDict entry.toDict) entry := by
  refine (answers_lift (readDate_dateJson h.executedAt)).bind ?_
  refine (answers_readId entry.compensationId).bind ?_
  refine (answers_lift (readFloat_reprFloat h.durationMs)).bind ?_
  refine (answers_lift (readOptText_textJson entry.error)).bind ?_
  refine (answers_lift (a := entry.retryCount) rfl).bind ?_
  refine (answers_lift (a := entry.maxRetries) rfl).bind ?_
  refine answers_of_eq ?_
  show { entry with
    stepId := readText "" (some (.str entry.stepId))
    stepName := readText "" (some (.str entry.stepName))
    constitutionalHash :=
      readText SagaPersistence.constitutionalHash (some (.str entry.constitutionalHash)) } = entry
  rw [readText_str, readText_str, readText_str]

theorem PersistedStepSnapshot.answers_readCompensation {compensation : Option CompensationEntry}
    (h : ∀ entry ∈ compensation, entry.Storable) :
    Answers (readCompensation (some (compensationJson compensation))) compensation := by
  rcases compensation with _ | entry
  · exact answers_pure none
  · exact (CompensationEntry.answers_fromDict (h entry rfl)).map some

theorem PersistedStepSnapshot.answers_fromDict {step : PersistedStepSnapshot}
    (h : step.Storable) : Answers (fromDict step.toDict) step := by
  refine (answers_lift (readDate_dateJson h.startedAt)).bind ?_
  refine (answers_lift (readDate_dateJson h.completedAt)).bind ?_
  refine (answers_readCompensation h.compensation).bind ?_
  refine (answers_lift (readEnum_value _ step.state.value_ne step.state.parse_value)).bind ?_
  refine (answers_readId step.stepId).bind ?_
  refine (answers_lift (a := step.stepIndex) rfl).bind ?_
  refine (answers_lift (readDict_obj step.inputData)).bind ?_
  refine (answers_lift (readOptText_textJson step.errorMessage)).bind ?_
  refine (answers_lift (readFloat_reprFloat h.durationMs)).bind ?_
  refine (answers_lift (a := step.retryCount) rfl).bind ?_
  refine (answers_lift (a := step.maxRetries) rfl).bind ?_
  refine (answers_lift (a := step.timeoutMs) rfl).bind ?_
  refine (answers_lift (readDict_obj step.metadata)).bind ?_
  refine answers_of_eq ?_
  show { step with
    stepName := readText "" (some (.str step.stepName))
    dependencies := readTexts (some (.arr (step.dependencies.map .str)))
    constitutionalHash :=
      readText SagaPersistence.constitutionalHash (some (.str step.constitutionalHash)) } = step
  rw [readText_str, readText_str, readTexts_map]

theorem PersistedSagaState.answers_fromDict (now : Instant) {saga : PersistedSagaState}
    (h : saga.Storable) : Answers (fromDict now saga.toDict) saga := by
  have hcreated : readDate (some (dateJson (some saga.createdAt))) = some (some saga.createdAt) :=
    readDate_dateJson fun _ ht => Option.some_inj.mp ht ▸ h.createdAt
  refine (answers_lift hcreated).bind ?_
  refine (answers_lift (readDate_dateJson h.startedAt)).bind ?_
  refine (answers_lift (readDate_dateJson h.completedAt)).bind ?_
  refine (answers_lift (readDate_dateJson h.failedAt)).bind ?_
  refine (answers_lift (readDate_dateJson h.compensatedAt)).bind ?_
  refine (answers_readRecords fun step hstep =>
    PersistedStepSnapshot.answers_fromDict (h.steps step hstep)).bind ?_
  refine (answers_readRecords fun entry hentry =>
    CompensationEntry.answers_fromDict (h.compensationLog entry hentry)).bind ?_
  refine (answers_lift (readEnum_value _ saga.state.value_ne saga.state.parse_value)).bind ?_
  refine (answers_lift (readEnum_value _ saga.compensationStrategy.value_ne
    saga.compensationStrategy.parse_value)).bind ?_
  refine (answers_readId saga.sagaId).bind ?_
  refine (answers_readId saga.correlationId).bind ?_
  refine (answers_lift (a := saga.currentStepIndex) rfl).bind ?_
  refine (answers_lift (readDict_obj saga.context)).bind ?_
  refine (answers_lift (readDict_obj saga.metadata)).bind ?_
  refine (answers_lift (readFloat_reprFloat h.totalDurationMs)).bind ?_
  refine (answers_lift (readOptText_textJson saga.failureReason)).bind ?_
  refine (answers_lift (a := saga.timeoutMs) rfl).bind ?_
  refine (answers_lift (a := saga.version) rfl).bind ?_
  refine answers_of_eq ?_
  show { saga with
    sagaName := readText "" (some (.str saga.sagaName))
    tenantId := readText "" (some (.str saga.tenantId))
    constitutionalHash :=
      readText SagaPersistence.constitutionalHash (some (.str saga.constitutionalHash)) } = saga
  rw [readText_str, readText_str, readText_str]

/-! ## Hashes are read back -/

section Dumpable

omit [Uuid4] [PrintTable]

theorem CompensationEntry.dumpable_toDict {entry : CompensationEntry} (h : entry.Storable) :
    JsonText.dumpable (.obj entry.toDict) = true := by
  refine dumpable_obj (by simp [toDict]) ?_
  simp only [toDict, JsonText.dumpableMembers, dumpable_str, dumpable_int, dumpable_bool,
    dumpable_textJson, dumpable_dateJson, dumpable_float h.durationMs, h.result, Bool.and_self]

theorem PersistedStepSnapshot.dumpable_compensationJson {compensation : Option CompensationEntry}
    (h : ∀ entry ∈ compensation, entry.Storable) :
    JsonText.dumpable (compensationJson compensation) = true := by
  rcases compensation with _ | entry
  · rfl
  · exact CompensationEntry.dumpable_toDict (h entry rfl)

theorem PersistedStepSnapshot.dumpable_toDict {step : PersistedStepSnapshot} (h : step.Storable) :
    JsonText.dumpable (.obj step.toDict) = true := by
  refine dumpable_obj (by simp [toDict]) ?_
  simp only [toDict, JsonText.dumpableMembers, dumpable_str, dumpable_int, dumpable_textJson,
    dumpable_dateJson, dumpable_float h.durationMs, dumpable_arr fun s _ => dumpable_str s,
    dumpable_compensationJson h.compensation, h.inputData, h.outputData, h.metadata,
    Bool.and_self]

end Dumpable

theorem PersistedSagaState.answers_fromRedisStrings (fresh : Fresh) {saga : PersistedSagaState}
    (h : saga.Storable) :
    Answers (fromRedisStrings fresh.now saga.toRedisStrings)
      (fromRedisHash fresh saga.toRedisHash) := by
  have hsteps := dumpable_arr fun step hstep =>
    PersistedStepSnapshot.dumpable_toDict (h.steps step hstep)
  have hlog := dumpable_arr fun entry hentry =>
    CompensationEntry.dumpable_toDict (h.compensationLog entry hentry)
  have hcreated : readDateText (some (dateText (some saga.createdAt))) =
      some (some saga.createdAt) :=
    readDateText_dateText fun _ ht => Option.some_inj.mp ht ▸ h.createdAt
  refine (answers_lift (readLoads_dumps _ hsteps)).bind ?_
  refine (answers_readItems fun step hstep =>
    PersistedStepSnapshot.answers_fromDict (h.steps step hstep)).bind ?_
  refine (answers_lift (readLoads_dumps _ h.context)).bind ?_
  refine (answers_lift (a := saga.context) rfl).bind ?_
  refine (answers_lift (readLoads_dumps _ h.metadata)).bind ?_
  refine (answers_lift (a := saga.metadata) rfl).bind ?_
  refine (answers_lift (readLoads_dumps _ hlog)).bind ?_
  refine (answers_readItems fun entry hentry =>
    CompensationEntry.answers_fromDict (h.compensationLog entry hentry)).bind ?_
  refine (answers_lift hcreated).bind ?_
  refine (answers_lift (readDateText_dateText h.startedAt)).bind ?_
  refine (answers_lift (readDateText_dateText h.completedAt)).bind ?_
  refine (answers_lift (readDateText_dateText h.failedAt)).bind ?_
  refine (answers_lift (readDateText_dateText h.compensatedAt)).bind ?_
  refine (answers_lift (readEnumText_value _ saga.state.value_ne saga.state.parse_value)).bind ?_
  refine (answers_lift (readEnumText_value _ saga.compensationStrategy.value_ne
    saga.compensationStrategy.parse_value)).bind ?_
  refine (answers_readIdText saga.sagaId).bind ?_
  refine (answers_readIdText saga.correlationId).bind ?_
  refine (answers_lift (intOfText_repr saga.currentStepIndex)).bind ?_
  refine (answers_lift h.totalDurationMs.2).bind ?_
  refine (answers_lift (intOfText_repr saga.timeoutMs)).bind ?_
  refine (answers_lift (intOfText_repr saga.version)).bind ?_
  exact answers_pure _

end Records

/-! ## Flywheel runs -/

namespace FlywheelRunRecord

theorem lookup_updateDict_of_notMem {key : String} {entries : JsonDict}
    (h : key ∉ entries.map (·.1)) (d : JsonDict) :
    Json.lookup key (updateDict d entries) = Json.lookup key d := by
  induction entries generalizing d with
  | nil => rfl
  | cons entry entries ih =>
    rw [List.map_cons, List.mem_cons, not_or] at h
    exact (ih h.2 _).trans (Json.lookup_assign_of_ne _ _ h.1)

theorem lookup_updateDict {key : String} {value : Json} {entries : JsonDict}
    (hkeys : (entries.map (·.1)).Nodup) (h : (key, value) ∈ entries) (d : JsonDict) :
    Json.lookup key (updateDict d entries) = some value := by
  induction entries generalizing d with
  | nil => cases h
  | cons entry entries ih =>
    rw [List.map_cons, List.nodup_cons] at hkeys
    rcases List.mem_cons.mp h with rfl | h
    · exact (lookup_updateDict_of_notMem hkeys.1 _).trans (Json.lookup_assign_self _ _ _)
    · exact ih hkeys.2 h _

theorem filter_assign {p : String → Bool} {key : String} (hkey : p key = false)
    (value : Json) (d : JsonDict) :
    (Json.assign key value d).filter (fun entry => p entry.1) =
      d.filter fun entry => p entry.1 := by
  induction d with
  | nil => simp [Json.assign, hkey]
  | cons entry d ih =>
    obtain ⟨k, v⟩ := entry
    by_cases hk : k = key
    · simp [Json.assign, hk, hkey]
    · simp only [Json.assign, if_neg hk, List.filter_cons, ih]

theorem filter_updateDict {p : String → Bool} {entries : JsonDict}
    (h : ∀ entry ∈ entries, p entry.1 = false) (d : JsonDict) :
    (updateDict d entries).filter (fun entry => p entry.1) =
      d.filter fun entry => p entry.1 := by
  induction entries generalizing d with
  | nil => rfl
  | cons entry entries ih =>
    exact (ih (fun e he => h e (List.mem_cons_of_mem _ he)) _).trans
      (filter_assign (h entry List.mem_cons_self) _ _)

variable [IsoText]

def ownEntries (run : FlywheelRunRecord) : JsonDict :=
  [("flywheel_run", .bool true), ("workload_key", .str run.workloadKey),
    ("stage", .str run.stage.value), ("candidate_id", run.candidateId),
    ("dataset_snapshot_id", run.datasetSnapshotId), ("evidence_id", run.evidenceId),
    ("evaluation_mode", .str run.evaluationMode.value), ("paused", .bool run.paused),
    ("updated_at", .str (IsoText.isoformat run.updatedAt))]

theorem keys_ownEntries (run : FlywheelRunRecord) :
    run.ownEntries.map (·.1) = metadataKeys := rfl

theorem lookup_toSagaState {run : FlywheelRunRecord} {key : String} {value : Json}
    (h : (key, value) ∈ run.ownEntries) :
    Json.lookup key run.toSagaState.metadata = some value := by
  refine lookup_updateDict ?_ h run.metadata
  rw [keys_ownEntries]
  decide +kernel

theorem filter_toSagaState (run : FlywheelRunRecord) :
    (run.toSagaState.metadata.filter fun entry => entry.1 ∉ metadataKeys) =
      run.metadata.filter fun entry => entry.1 ∉ metadataKeys := by
  have hown : ∀ entry ∈ run.ownEntries, decide (entry.1 ∉ metadataKeys) = false := by
    intro entry hentry
    rw [← keys_ownEntries run]
    exact decide_eq_false (not_not.mpr (List.mem_map_of_mem hentry))
  exact filter_updateDict (p := fun key => decide (key ∉ metadataKeys)) hown run.metadata

variable [PrintTable]

theorem fromSagaState_toSagaState {run : FlywheelRunRecord} (h : ReadsDate run.updatedAt) :
    fromSagaState run.toSagaState = some { run with
      candidateId := orNone (some run.candidateId)
      datasetSnapshotId := orNone (some run.datasetSnapshotId)
      evidenceId := orNone (some run.evidenceId)
      metadata := run.metadata.filter fun entry => entry.1 ∉ metadataKeys } := by
  have hworkload : Json.lookup "workload_key" run.toSagaState.metadata =
      some (.str run.workloadKey) := lookup_toSagaState (by simp [ownEntries])
  have hstage : Json.lookup "stage" run.toSagaState.metadata = some (.str run.stage.value) :=
    lookup_toSagaState (by simp [ownEntries])
  have hcandidate : Json.lookup "candidate_id" run.toSagaState.metadata = some run.candidateId :=
    lookup_toSagaState (by simp [ownEntries])
  have hdataset : Json.lookup "dataset_snapshot_id" run.toSagaState.metadata =
      some run.datasetSnapshotId := lookup_toSagaState (by simp [ownEntries])
  have hevidence : Json.lookup "evidence_id" run.toSagaState.metadata = some run.evidenceId :=
    lookup_toSagaState (by simp [ownEntries])
  have hmode : Json.lookup "evaluation_mode" run.toSagaState.metadata =
      some (.str run.evaluationMode.value) := lookup_toSagaState (by simp [ownEntries])
  have hpaused : Json.lookup "paused" run.toSagaState.metadata = some (.bool run.paused) :=
    lookup_toSagaState (by simp [ownEntries])
  have hupdated : Json.lookup "updated_at" run.toSagaState.metadata =
      some (.str (IsoText.isoformat run.updatedAt)) := lookup_toSagaState (by simp [ownEntries])
  have hname : ¬run.toSagaState.sagaName ≠ flywheelRunSagaName := fun h => h rfl
  rw [fromSagaState]
  simp only [getText, hupdated, hstage, hmode, hworkload, hpaused, hcandidate, hdataset, hevidence,
    if_neg hname, if_pos (truthy_str.mpr h.1), Json.pyStr, String.ofList_toList, h.2,
    FlywheelRunStage.parse_value, EvaluationMode.parse_value, filter_toSagaState]
  rfl

end FlywheelRunRecord

/-! ## The round trips -/

section RoundTrips

variable [IsoText] [FloatText] [Uuid4] [PrintTable]

/-- A saga and a run are read back from each of their forms as they were; from a hash, an empty
reason may be read back as none. -/
structure CodecsLossless (saga : PersistedSagaState) (run : FlywheelRunRecord) : Prop where
  dict : ∀ now, Answers (PersistedSagaState.fromDict now saga.toDict) saga
  hash : ∀ now, ∃ saga',
    Answers (PersistedSagaState.fromRedisStrings now saga.toRedisStrings) saga' ∧
      (saga' = saga ∨
        saga.failureReason = some "" ∧ saga' = { saga with failureReason := none })
  run : FlywheelRunRecord.fromSagaState run.toSagaState = some run

omit [IsoText] [FloatText] [Uuid4] [PrintTable] in
theorem fromRedisHash_toRedisHash_cases (fresh : Fresh) (saga : PersistedSagaState) :
    PersistedSagaState.fromRedisHash fresh saga.toRedisHash = saga ∨
      saga.failureReason = some "" ∧
        PersistedSagaState.fromRedisHash fresh saga.toRedisHash =
          { saga with failureReason := none } := by
  rw [PersistedSagaState.fromRedisHash_toRedisHash]
  by_cases hreason : saga.failureReason = some ""
  · exact Or.inr ⟨hreason, by rw [hreason]; rfl⟩
  · have hfilter : saga.failureReason.filter (· ≠ "") = saga.failureReason := by
      rcases hcase : saga.failureReason with _ | reason
      · rfl
      · have hne : reason ≠ "" := fun hempty => hreason (hcase.trans (congrArg some hempty))
        rw [Option.filter_some, if_pos (decide_eq_true hne)]
    exact Or.inl (by rw [hfilter])

omit [IsoText] [FloatText] [Uuid4] [PrintTable] in
theorem FlywheelRunRecord.orNone_eq_self_iff (value : Json) :
    orNone (some value) = value ↔ value.truthy = true ∨ value = .null := by
  unfold orNone
  by_cases h : value.truthy = true
  · simp [h]
  · simp [h, eq_comm]

/-- The saga is always read back; the run is exactly when no key of its metadata is one of its own
and none of its identifiers is falsy without being none. -/
theorem codecsLossless_iff {saga : PersistedSagaState} {run : FlywheelRunRecord}
    (hsaga : saga.Storable) (hrun : ReadsDate run.updatedAt) :
    CodecsLossless saga run ↔
      (∀ entry ∈ run.metadata, entry.1 ∉ FlywheelRunRecord.metadataKeys) ∧
        ∀ value ∈ [run.candidateId, run.datasetSnapshotId, run.evidenceId],
          value.truthy = true ∨ value = .null := by
  have hread := FlywheelRunRecord.fromSagaState_toSagaState hrun
  constructor
  · intro h
    have heq := Option.some_inj.mp (hread.symm.trans h.run)
    refine ⟨fun entry hentry => ?_, fun value hvalue => ?_⟩
    · have hmetadata := congrArg FlywheelRunRecord.metadata heq
      exact of_decide_eq_true (List.filter_eq_self.mp hmetadata entry hentry)
    · rw [← FlywheelRunRecord.orNone_eq_self_iff]
      simp only [List.mem_cons, List.not_mem_nil, or_false] at hvalue
      rcases hvalue with rfl | rfl | rfl
      · exact congrArg FlywheelRunRecord.candidateId heq
      · exact congrArg FlywheelRunRecord.datasetSnapshotId heq
      · exact congrArg FlywheelRunRecord.evidenceId heq
  · rintro ⟨hkeys, hvalues⟩
    refine ⟨fun now => PersistedSagaState.answers_fromDict now hsaga, fun now => ?_, ?_⟩
    · exact ⟨_, PersistedSagaState.answers_fromRedisStrings ⟨now, "", ""⟩ hsaga,
        fromRedisHash_toRedisHash_cases _ saga⟩
    · have hkept : ∀ value ∈ [run.candidateId, run.datasetSnapshotId, run.evidenceId],
          FlywheelRunRecord.orNone (some value) = value := fun value hvalue =>
        (FlywheelRunRecord.orNone_eq_self_iff value).mpr (hvalues value hvalue)
      have hfilter : (run.metadata.filter fun entry =>
          entry.1 ∉ FlywheelRunRecord.metadataKeys) = run.metadata :=
        List.filter_eq_self.mpr fun entry hentry => decide_eq_true (hkeys entry hentry)
      rw [hread, hkept run.candidateId (by simp), hkept run.datasetSnapshotId (by simp),
        hkept run.evidenceId (by simp), hfilter]

end RoundTrips

/-! ### A key of the user that the run has too -/

@[reducible] def epochOnly : IsoText where
  isoformat t := if t = 0 then "1970-01-01T00:00:00+00:00" else ""
  fromisoformat text := if text = "1970-01-01T00:00:00+00:00" then some 0 else none

@[reducible] def zeroOnly : FloatText where
  reprFloat _ := ⟨"0.0", by decide +kernel⟩
  floatOfText text := if text = "0.0" then some 0 else none
  floatOfInt i := some i

@[reducible] def sameUuid : Uuid4 := ⟨fun _ => "00000000-0000-4000-8000-000000000000"⟩

def compensatedSaga : PersistedSagaState :=
  { sagaId := "order", correlationId := "c", state := .compensated, createdAt := 0
    steps := [{ stepId := "reserve", state := .compensated, startedAt := some 0
                compensation := some { compensationId := "release", result := .arr [.null] } }] }

def reviewRun (metadata : JsonDict) : FlywheelRunRecord where
  runId := "run"
  tenantId := "t"
  workloadKey := "w"
  constitutionalHash := constitutionalHash
  state := .running
  stage := .evaluation
  candidateId := .str "candidate"
  datasetSnapshotId := .null
  evidenceId := .null
  evaluationMode := .shadow
  currentStepIndex := 0
  paused := false
  context := []
  metadata := metadata
  correlationId := "c"
  createdAt := 0
  updatedAt := 0
  startedAt := none
  completedAt := none
  failedAt := none
  failureReason := none
  timeoutMs := 300000
  version := 1

theorem epoch_readsDate : @ReadsDate epochOnly 0 := by
  refine ⟨?_, ?_⟩ <;> decide +kernel

theorem zero_readsFloat : @ReadsFloat zeroOnly 0 := by
  refine ⟨?_, ?_⟩ <;> decide +kernel

theorem epoch_of_mem {t : Instant} (h : t ∈ some (0 : Instant)) : @ReadsDate epochOnly t :=
  Option.some_inj.mp h ▸ epoch_readsDate

theorem none_readsDate {t : Instant} (h : t ∈ (none : Option Instant)) : @ReadsDate epochOnly t :=
  nomatch h

theorem compensatedSaga_storable :
    @PersistedSagaState.Storable epochOnly zeroOnly compensatedSaga := by
  refine @PersistedSagaState.Storable.mk epochOnly zeroOnly _ epoch_readsDate
    (fun _ => none_readsDate) (fun _ => none_readsDate) (fun _ => none_readsDate)
    (fun _ => none_readsDate) zero_readsFloat rfl rfl (fun step hstep => ?_) nofun
  obtain rfl := List.mem_singleton.mp hstep
  refine @PersistedStepSnapshot.Storable.mk epochOnly zeroOnly _ (fun _ => epoch_of_mem)
    (fun _ => none_readsDate) zero_readsFloat rfl rfl rfl fun entry hentry => ?_
  obtain rfl := Option.some_inj.mp hentry
  exact @CompensationEntry.Storable.mk epochOnly zeroOnly _ (fun _ => none_readsDate)
    zero_readsFloat rfl

/-- The metadata say which stage a reviewer is at, under the key of the run's own stage. -/
theorem reviewRun_not_codecsLossless :
    @PersistedSagaState.Storable epochOnly zeroOnly compensatedSaga ∧
      @ReadsDate epochOnly (reviewRun [("stage", .str "legal")]).updatedAt ∧
      ¬@CodecsLossless epochOnly zeroOnly sameUuid asciiPrintable compensatedSaga
        (reviewRun [("stage", .str "legal")]) := by
  refine ⟨compensatedSaga_storable, epoch_readsDate, fun h => ?_⟩
  have hread := @FlywheelRunRecord.fromSagaState_toSagaState epochOnly asciiPrintable
    (reviewRun [("stage", .str "legal")]) epoch_readsDate
  have hmetadata := congrArg FlywheelRunRecord.metadata
    (Option.some_inj.mp (hread.symm.trans (@CodecsLossless.run epochOnly zeroOnly sameUuid
      asciiPrintable _ _ h)))
  exact absurd (congrArg List.length hmetadata) (by decide +kernel)

theorem reviewRun_codecsLossless :
    @CodecsLossless epochOnly zeroOnly sameUuid asciiPrintable compensatedSaga
      (reviewRun [("reviewer", .str "legal")]) :=
  (@codecsLossless_iff epochOnly zeroOnly sameUuid asciiPrintable _ _ compensatedSaga_storable
    epoch_readsDate).mpr
    ⟨by decide +kernel, by
      rintro value (_ | ⟨_, _ | ⟨_, _ | ⟨_, ⟨⟩⟩⟩⟩)
      · exact Or.inl (by decide +kernel)
      · exact Or.inr rfl
      · exact Or.inr rfl⟩

end EnhancedAgentBus.SagaPersistence
