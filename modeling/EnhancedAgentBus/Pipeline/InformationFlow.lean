import EnhancedAgentBus.Json
import EnhancedAgentBus.Pipeline.Middleware

/-!
# Information flow control in the pipeline

The middleware compares the label of the context with the clearance of the receiver.  Its branch for
a forbidden flow reads `context.trace_id`, and then calls `context.add_violation`; the context of
the pipeline has neither, so the branch ends in an `AttributeError`, whatever the configuration says
(`enforces_iff`).

The context is generic in the data that the other middlewares keep in it.  The metadata of a result
is left out.
-/

namespace EnhancedAgentBus.Pipeline

/-! ## Labels -/

/-- Confidentiality lattice ordered from least to most sensitive. -/
inductive Confidentiality where
  | publicLevel
  | internal
  | confidential
  | secret
  deriving DecidableEq

/-- Integrity lattice ordered from least to most trusted. -/
inductive Integrity where
  | untrusted
  | low
  | medium
  | high
  | trusted
  deriving DecidableEq

def Confidentiality.value : Confidentiality → ℕ
  | publicLevel => 0
  | internal => 1
  | confidential => 2
  | secret => 3

def Integrity.value : Integrity → ℕ
  | untrusted => 0
  | low => 1
  | medium => 2
  | high => 3
  | trusted => 4

/-- Security label combining confidentiality and integrity. -/
structure IFCLabel where
  confidentiality : Confidentiality := .publicLevel
  integrity : Integrity := .medium
  deriving DecidableEq

def IFCLabel.canFlowTo (label target : IFCLabel) : Bool :=
  decide (label.confidentiality.value ≤ target.confidentiality.value) &&
    decide (target.integrity.value ≤ label.integrity.value)

def IFCLabel.toDict (label : IFCLabel) : Json :=
  .obj [("confidentiality", .int label.confidentiality.value),
    ("integrity", .int label.integrity.value)]

structure IFCViolation where
  sourceLabel : IFCLabel
  targetLabel : IFCLabel
  policy : String
  detail : String := ""

def IFCViolation.toDict (violation : IFCViolation) : Json :=
  .obj [("source_label", violation.sourceLabel.toDict),
    ("target_label", violation.targetLabel.toDict), ("policy", .str violation.policy),
    ("detail", .str violation.detail)]

/-! ## The context and the router -/

/-- A message, as far as the pipeline itself reads it. -/
structure AgentMessage where
  messageId : String
  ifcLabel : Option IFCLabel := none

structure ValidationResult where
  isValid : Bool := true
  errors : List String := []
  decision : String := "ALLOW"

/-- `PipelineContext`, with the data of the middlewares. -/
structure PipelineContext (δ : Type) where
  message : AgentMessage
  earlyResult : Option ValidationResult := none
  strategyResult : Option ValidationResult := none
  ifcLabel : IFCLabel := {}
  ifcViolations : List IFCViolation := []
  data : δ

/-- An exception of the pipeline; `other` is one that another middleware raises. -/
inductive PipelineError (ε : Type) where
  | securityException (message detectionMethod : String) (details : Json)
  | attributeError (text : String)
  | other (error : ε)

namespace PipelineContext

variable {δ ε : Type}

def ofMessage (message : AgentMessage) (data : δ) : PipelineContext δ where
  message := message
  ifcLabel := message.ifcLabel.getD {}
  data := data

def recordIfcViolation (context : PipelineContext δ) (violation : IFCViolation) :
    PipelineContext δ :=
  { context with ifcViolations := context.ifcViolations ++ [violation] }

def toValidationResult (context : PipelineContext δ) : ValidationResult :=
  context.strategyResult.getD { isValid := false, errors := ["No strategy result produced"] }

/-- `context.trace_id`: the class has no such attribute. -/
def traceId (_ : PipelineContext δ) : Except (PipelineError ε) String :=
  .error (.attributeError "'PipelineContext' object has no attribute 'trace_id'")

/-- `context.add_violation(kind, violation)`: nor has it this method. -/
def addViolation (_ : PipelineContext δ) (_kind : String) (_violation : Json) :
    Except (PipelineError ε) (PipelineContext δ) :=
  .error (.attributeError "'PipelineContext' object has no attribute 'add_violation'")

end PipelineContext

/-- `PipelineMessageRouter.process`: what it raises or returns. -/
def processMessage {δ ε : Type}
    (middlewares : List (BaseMiddleware (PipelineContext δ) (PipelineError ε)))
    (context : PipelineContext δ) : Except (PipelineError ε) ValidationResult :=
  let run := (buildChain middlewares).start context
  match run.error with
  | some error => .error error
  | none => .ok (run.context.earlyResult.getD run.context.toValidationResult)

/-! ## The middleware -/

structure IFCConfig where
  receiverClearance : IFCLabel := {}
  auditOnly : Bool := false
  failClosed : Bool := true

section

variable {δ ε : Type}

/-- `IFCMiddleware.process` -/
def IFCConfig.work (config : IFCConfig) (context : PipelineContext δ) :
    Work (PipelineContext δ) (PipelineError ε) :=
  if context.ifcLabel.canFlowTo config.receiverClearance then .callNext context
  else
    let violation : IFCViolation :=
      { sourceLabel := context.ifcLabel
        targetLabel := config.receiverClearance
        policy := "IFC Enforcement"
        detail := "Message " ++ context.message.messageId ++ " violated flow policy" }
    -- the warning that is logged has the id of the trace
    match (context.traceId : Except (PipelineError ε) String) with
    | .error error => .raises error context
    | .ok _ =>
      match context.addViolation "ifc" violation.toDict with
      | .error error => .raises error context
      | .ok context =>
        if !config.auditOnly && config.failClosed then
          .raises (.securityException "Information Flow Control policy violation"
            "IFCMiddleware" violation.toDict) context
        else .callNext context

def IFCConfig.middleware (config : IFCConfig) (object : ℕ) :
    BaseMiddleware (PipelineContext δ) (PipelineError ε) where
  object := object
  work := config.work

theorem IFCConfig.object_middleware (config : IFCConfig) (object : ℕ) :
    (config.middleware object : BaseMiddleware (PipelineContext δ) (PipelineError ε)).object =
      object := rfl

theorem IFCConfig.work_of_forbidden {config : IFCConfig} {context : PipelineContext δ}
    (h : ¬context.ifcLabel.canFlowTo config.receiverClearance = true) :
    (config.work context : Work (PipelineContext δ) (PipelineError ε)) =
      .raises (.attributeError "'PipelineContext' object has no attribute 'trace_id'") context :=
  if_neg h

theorem IFCConfig.work_of_allowed {config : IFCConfig} {context : PipelineContext δ}
    (h : context.ifcLabel.canFlowTo config.receiverClearance = true) :
    (config.work context : Work (PipelineContext δ) (PipelineError ε)) = .callNext context :=
  if_pos h

end

/-! ## Runs with and without a middleware -/

section Compare

variable {γ ε : Type}

def Step.middleware : Step γ ε → BaseMiddleware γ ε
  | called middleware => middleware
  | wentOn middleware _ => middleware

/-- The steps of the middlewares other than one object. -/
def Run.others (object : ℕ) (run : Run γ ε) : List (Step γ ε) :=
  run.steps.filter fun step => step.middleware.object ≠ object

/-- The context that comes behind the front of a pipeline, if it does. -/
def arrival : List (BaseMiddleware γ ε) → γ → Option γ
  | [], context => some context
  | middleware :: rest, context =>
    match middleware.work context with
    | .callNext context => passed rest context
    | _ => none

/-- One run does what the other does, apart from the steps of one object. -/
structure Alike (object : ℕ) (run run' : Run γ ε) : Prop where
  others : run.others object = run'.steps
  context : run.context = run'.context
  error : run.error = run'.error

variable {object : ℕ} {middleware : BaseMiddleware γ ε} {front : List (BaseMiddleware γ ε)}
variable {onward onward' : γ → Run γ ε} {context : γ}

theorem Alike.returned (context : γ) :
    Alike object (.returned context : Run γ ε) (.returned context) := ⟨rfl, rfl, rfl⟩

theorem process_of_callNext {context' : γ} (h : middleware.work context = .callNext context') :
    middleware.process onward context =
      ⟨Step.called middleware :: (onward context').steps ++
          [Step.wentOn middleware (onward context').error],
        (middleware.afterwards (onward context').context (onward context').error).1,
        (middleware.afterwards (onward context').context (onward context').error).2⟩ := by
  rw [BaseMiddleware.process, h]

theorem others_process_of_callNext (hother : middleware.object ≠ object) {context' : γ}
    (h : middleware.work context = .callNext context') :
    (middleware.process onward context).others object =
      Step.called middleware :: (onward context').others object ++
        [Step.wentOn middleware (onward context').error] := by
  rw [process_of_callNext h, Run.others, List.filter_append, List.filter_cons_of_pos]
  · simp [Run.others, Step.middleware, hother]
  · exact decide_eq_true hother

theorem alike_called (hother : middleware.object ≠ object) (context : γ) (error : Option ε) :
    Alike object (⟨[Step.called middleware], context, error⟩ : Run γ ε)
      ⟨[Step.called middleware], context, error⟩ :=
  ⟨List.filter_cons_of_pos (decide_eq_true hother), rfl, rfl⟩

theorem alike_process (hother : middleware.object ≠ object)
    (h : ∀ context', middleware.work context = .callNext context' →
      Alike object (onward context') (onward' context')) :
    Alike object (middleware.process onward context) (middleware.process onward' context) := by
  cases hwork : middleware.work context with
  | callNext context' =>
    obtain ⟨hothers, hcontext, herror⟩ := h context' hwork
    refine ⟨?_, ?_, ?_⟩
    · rw [others_process_of_callNext hother hwork, process_of_callNext hwork, hothers, herror]
    · rw [process_of_callNext hwork, process_of_callNext hwork, hcontext, herror]
    · rw [process_of_callNext hwork, process_of_callNext hwork, hcontext, herror]
  | ends context' => simp [BaseMiddleware.process, hwork, alike_called hother]
  | raises error context' => simp [BaseMiddleware.process, hwork, alike_called hother]

theorem others_of_own (hown : middleware.object = object) (steps : List (Step γ ε))
    (error : Option ε) (context : γ) (error' : Option ε) :
    (⟨Step.called middleware :: steps ++ [Step.wentOn middleware error], context, error'⟩ :
      Run γ ε).others object = steps.filter fun step => step.middleware.object ≠ object := by
  simp [Run.others, Step.middleware, hown]

theorem others_called_own (hown : middleware.object = object) (context : γ) (error : Option ε) :
    (⟨[Step.called middleware], context, error⟩ : Run γ ε).others object = [] := by
  simp [Run.others, Step.middleware, hown]

theorem alike_through (hothers : ∀ m ∈ front, m.object ≠ object)
    (h : ∀ context', passed front context = some context' →
      Alike object (onward context') (onward' context')) :
    Alike object (through front onward context) (through front onward' context) := by
  induction front generalizing context with
  | nil => exact h context rfl
  | cons m rest ih =>
    by_cases henabled : m.enabled = true
    · rw [through_of_enabled henabled, through_of_enabled henabled]
      refine alike_process (hothers m (List.mem_cons_self ..)) fun context' hwork => ?_
      refine ih (fun m' hm' => hothers m' (List.mem_cons_of_mem _ hm')) fun context'' hpassed => ?_
      refine h context'' ?_
      rw [passed, if_pos henabled, hwork]
      exact hpassed
    · rw [through_of_disabled henabled, through_of_disabled henabled]
      exact .returned context

theorem steps_of_process (hother : middleware.object ≠ object) {context' : γ}
    (hwork : middleware.work context = .callNext context')
    (h : (middleware.process onward context).others object =
      (middleware.process onward' context).steps) :
    (onward context').others object = (onward' context').steps ∧
      (onward context').error = (onward' context').error := by
  rw [others_process_of_callNext hother hwork, process_of_callNext hwork] at h
  obtain ⟨hsteps, hlast⟩ := List.append_inj' (List.cons.inj h).2 rfl
  exact ⟨hsteps, (Step.wentOn.inj (List.cons.inj hlast).1).2⟩

theorem steps_of_through (hothers : ∀ m ∈ front, m.object ≠ object) {context' : γ}
    (hpassed : passed front context = some context')
    (h : (through front onward context).others object = (through front onward' context).steps)
    (herror : (through front onward context).error = (through front onward' context).error) :
    (onward context').others object = (onward' context').steps ∧
      (onward context').error = (onward' context').error := by
  induction front generalizing context with
  | nil =>
    cases hpassed
    exact ⟨h, herror⟩
  | cons m rest ih =>
    rw [passed] at hpassed
    split at hpassed
    · rename_i henabled
      split at hpassed
      · rename_i context'' hwork
        rw [through_of_enabled henabled, through_of_enabled henabled] at h
        obtain ⟨hsteps, herrors⟩ :=
          steps_of_process (hothers m (List.mem_cons_self ..)) hwork h
        exact ih (fun m' hm' => hothers m' (List.mem_cons_of_mem _ hm')) hpassed hsteps
          herrors
      · cases hpassed
    · cases hpassed

theorem eq_returned_of_steps {middlewares : List (BaseMiddleware γ ε)}
    (h : (through middlewares .returned context).steps = []) :
    through middlewares .returned context = .returned context := by
  rcases middlewares with _ | ⟨m, rest⟩
  · rfl
  · by_cases henabled : m.enabled = true
    · rw [through_of_enabled henabled] at h
      refine absurd ?_ (process_ne_returned m (through rest .returned) context)
      rw [Run.calls, h]
      rfl
    · exact through_of_disabled henabled ..

end Compare

/-! ## Enforcement -/

section Enforcement

variable {δ ε : Type}

/-- The run of a pipeline, with the middleware between the two lists. -/
def IFCConfig.runWith (config : IFCConfig) (object : ℕ)
    (before after : List (BaseMiddleware (PipelineContext δ) (PipelineError ε)))
    (context : PipelineContext δ) : Run (PipelineContext δ) (PipelineError ε) :=
  (buildChain (before ++ config.middleware object :: after)).start context

/-- The middleware is given a label that must not flow to the receiver. -/
def IFCConfig.forbids (config : IFCConfig)
    (before : List (BaseMiddleware (PipelineContext δ) (PipelineError ε)))
    (context : PipelineContext δ) : Bool :=
  (arrival before context).any fun context => !context.ifcLabel.canFlowTo config.receiverClearance

/-- What the middleware is there for.  In audit mode it only adds a violation, where a flow is
forbidden; where it is to block, a forbidden flow ends there, and all else is as without it. -/
structure Enforces (config : IFCConfig) (object : ℕ)
    (before after : List (BaseMiddleware (PipelineContext δ) (PipelineError ε)))
    (context : PipelineContext δ) : Prop where
  audits : config.auditOnly = true →
    (config.runWith object before after context).others object =
        ((buildChain (before ++ after)).start context).steps ∧
      processMessage (before ++ config.middleware object :: after) context =
        processMessage (before ++ after) context ∧
      (config.runWith object before after context).context.ifcViolations.length =
        ((buildChain (before ++ after)).start context).context.ifcViolations.length +
          (config.forbids before context).toNat
  blocks : config.auditOnly = false → config.failClosed = true →
    ∀ arrived, arrival before context = some arrived →
      arrived.ifcLabel.canFlowTo config.receiverClearance = false →
        ∃ text method details,
          ((config.middleware object).process (through after .returned) arrived).error =
              some (.securityException text method details) ∧
            ((config.middleware object).process (through after .returned) arrived).calls =
              [config.middleware object]
  allows : config.auditOnly = false → config.failClosed = true →
    config.forbids before context = false →
      Alike object (config.runWith object before after context)
        ((buildChain (before ++ after)).start context)

/-- The head of a pipeline that begins with a disabled middleware is run all the same; with the
middleware in front of it, it is not. -/
def DisabledHead (before after : List (BaseMiddleware (PipelineContext δ) (PipelineError ε))) :
    Prop :=
  before = [] ∧ ∃ head ∈ after.head?, head.enabled = false

variable {config : IFCConfig} {object : ℕ}
variable {before after : List (BaseMiddleware (PipelineContext δ) (PipelineError ε))}
variable {context arrived : PipelineContext δ}

theorem process_of_forbidden
    (h : arrived.ifcLabel.canFlowTo config.receiverClearance = false)
    (callNext : PipelineContext δ → Run (PipelineContext δ) (PipelineError ε)) :
    (config.middleware object).process callNext arrived =
      ⟨[Step.called (config.middleware object)], arrived, some
        (.attributeError "'PipelineContext' object has no attribute 'trace_id'")⟩ := by
  have hwork : (config.middleware object : BaseMiddleware _ (PipelineError ε)).work arrived =
      .raises (.attributeError "'PipelineContext' object has no attribute 'trace_id'") arrived :=
    IFCConfig.work_of_forbidden (by rw [h]; exact Bool.false_ne_true)
  rw [BaseMiddleware.process, hwork]

theorem alike_of_allowed (hafter : ∀ m ∈ after, m.object ≠ object)
    (h : arrived.ifcLabel.canFlowTo config.receiverClearance = true) :
    Alike object ((config.middleware object).process (through after .returned) arrived)
      (through after .returned arrived) := by
  have hwork : (config.middleware object : BaseMiddleware _ (PipelineError ε)).work arrived =
      .callNext arrived := IFCConfig.work_of_allowed h
  have hself : Alike object (through after .returned arrived) (through after .returned arrived) :=
    alike_through hafter fun context' _ => .returned context'
  rw [process_of_callNext hwork]
  refine ⟨?_, rfl, rfl⟩
  rw [others_of_own (IFCConfig.object_middleware ..)]
  exact hself.others

theorem through_middleware (context : PipelineContext δ) :
    through (config.middleware object :: after) .returned context =
      (config.middleware object).process (through after .returned) context :=
  through_of_enabled rfl ..

theorem runWith_cons (head : BaseMiddleware (PipelineContext δ) (PipelineError ε)) :
    config.runWith object (head :: before) after context =
      head.process (through before (through (config.middleware object :: after) .returned))
        context := by
  rw [IFCConfig.runWith, List.cons_append, start_buildChain_cons, through_append]

theorem start_cons_append (head : BaseMiddleware (PipelineContext δ) (PipelineError ε)) :
    (buildChain (head :: before ++ after)).start context =
      head.process (through before (through after .returned)) context := by
  rw [List.cons_append, start_buildChain_cons, through_append]

theorem runWith_nil :
    config.runWith object [] after context =
      (config.middleware object).process (through after .returned) context :=
  start_buildChain_cons ..

theorem forbids_eq_false :
    config.forbids before context = false ↔
      ∀ arrived, arrival before context = some arrived →
        arrived.ifcLabel.canFlowTo config.receiverClearance = true := by
  simp [IFCConfig.forbids, Option.any_eq_false]

theorem alike_of_forbids_eq_false (hothers : ∀ m ∈ before ++ after, m.object ≠ object)
    (hforbids : config.forbids before context = false) (hhead : ¬DisabledHead before after) :
    Alike object (config.runWith object before after context)
      ((buildChain (before ++ after)).start context) := by
  have hafter : ∀ m ∈ after, m.object ≠ object :=
    fun m hm => hothers m (List.mem_append_right _ hm)
  rw [forbids_eq_false] at hforbids
  rcases before with _ | ⟨head, rest⟩
  · have hon : ∀ m ∈ after.head?, m.enabled = true := by
      intro m hm
      by_contra hdisabled
      exact hhead ⟨rfl, m, hm, by simpa using hdisabled⟩
    rw [runWith_nil, List.nil_append, start_buildChain_of_enabled hon]
    exact alike_of_allowed hafter (hforbids context rfl)
  · rw [runWith_cons, start_cons_append]
    refine alike_process (hothers head (List.mem_append_left _ (List.mem_cons_self ..))) ?_
    intro context' hwork
    refine alike_through (fun m hm =>
      hothers m (List.mem_append_left _ (List.mem_cons_of_mem _ hm))) ?_
    intro arrived hpassed
    rw [through_middleware]
    refine alike_of_allowed hafter (hforbids arrived ?_)
    rw [arrival, hwork]
    exact hpassed

theorem not_alike_of_forbidden (hothers : ∀ m ∈ before ++ after, m.object ≠ object)
    (harrival : arrival before context = some arrived)
    (hforbidden : arrived.ifcLabel.canFlowTo config.receiverClearance = false)
    (hsteps : (config.runWith object before after context).others object =
      ((buildChain (before ++ after)).start context).steps)
    (hresult : processMessage (before ++ config.middleware object :: after) context =
      processMessage (before ++ after) context) : False := by
  rcases before with _ | ⟨head, rest⟩
  · cases harrival
    rw [runWith_nil, process_of_forbidden hforbidden,
      others_called_own (IFCConfig.object_middleware ..), List.nil_append] at hsteps
    rcases after with _ | ⟨head, rest⟩
    · rw [processMessage, List.nil_append, start_buildChain_cons,
        process_of_forbidden hforbidden] at hresult
      cases hresult
    · rw [start_buildChain_cons] at hsteps
      refine process_ne_returned head (through rest .returned) context ?_
      rw [Run.calls, ← hsteps]
      rfl
  · rw [runWith_cons, start_cons_append] at hsteps
    rw [arrival] at harrival
    split at harrival
    · rename_i context' hwork
      obtain ⟨hsteps, herror⟩ := steps_of_process
        (hothers head (List.mem_append_left _ (List.mem_cons_self ..))) hwork hsteps
      obtain ⟨hsteps, herror⟩ := steps_of_through (fun m hm =>
        hothers m (List.mem_append_left _ (List.mem_cons_of_mem _ hm))) harrival hsteps herror
      rw [through_middleware, process_of_forbidden hforbidden] at hsteps herror
      rw [others_called_own (IFCConfig.object_middleware ..)] at hsteps
      rw [eq_returned_of_steps hsteps.symm] at herror
      cases herror
    · cases harrival

/-- **When information flow is enforced as it is configured**: where the middleware is to audit or
to block, no forbidden flow comes to it, and it does not stand in front of a disabled head. -/
theorem enforces_iff (hothers : ∀ m ∈ before ++ after, m.object ≠ object) :
    Enforces config object before after context ↔
      (config.auditOnly = true ∨ config.failClosed = true →
        config.forbids before context = false ∧ ¬DisabledHead before after) := by
  constructor
  · intro h hmode
    have hforbids : config.forbids before context = false := by
      rw [forbids_eq_false]
      intro arrived harrival
      by_contra hforbidden
      rw [Bool.not_eq_true] at hforbidden
      by_cases haudit : config.auditOnly = true
      · obtain ⟨hsteps, hresult, -⟩ := h.audits haudit
        exact not_alike_of_forbidden hothers harrival hforbidden hsteps hresult
      · obtain ⟨text, method, details, herror, -⟩ := h.blocks (Bool.not_eq_true _ ▸ haudit)
          (hmode.resolve_left haudit) arrived harrival hforbidden
        rw [process_of_forbidden hforbidden] at herror
        cases herror
    refine ⟨hforbids, ?_⟩
    have hsteps : (config.runWith object before after context).others object =
        ((buildChain (before ++ after)).start context).steps := by
      by_cases haudit : config.auditOnly = true
      · exact (h.audits haudit).1
      · exact (h.allows (Bool.not_eq_true _ ▸ haudit) (hmode.resolve_left haudit) hforbids).others
    -- with the middleware in front of it the disabled head is not called
    rintro ⟨rfl, head, hhead, hdisabled⟩
    rcases after with _ | ⟨m, rest⟩
    · cases hhead
    · cases hhead
      have hallowed := forbids_eq_false.mp hforbids context rfl
      have hafter : ∀ m' ∈ head :: rest, m'.object ≠ object := hothers
      rw [runWith_nil, (alike_of_allowed hafter hallowed).others,
        through_of_disabled (by rw [hdisabled]; exact Bool.false_ne_true), List.nil_append,
        start_buildChain_cons] at hsteps
      refine process_ne_returned head (through rest .returned) context ?_
      rw [Run.calls, ← hsteps]
      rfl
  · intro h
    refine ⟨fun haudit => ?_, fun haudit hclosed arrived harrival hforbidden => ?_,
      fun haudit hclosed _ => ?_⟩
    · obtain ⟨hforbids, hhead⟩ := h (Or.inl haudit)
      have halike := alike_of_forbids_eq_false hothers hforbids hhead
      refine ⟨halike.others, ?_, ?_⟩
      · rw [processMessage, processMessage, ← halike.error, ← halike.context]
        rfl
      · rw [hforbids, halike.context]
        rfl
    · have hallowed := forbids_eq_false.mp (h (Or.inr hclosed)).1 arrived harrival
      rw [hforbidden] at hallowed
      cases hallowed
    · obtain ⟨hforbids, hhead⟩ := h (Or.inr hclosed)
      exact alike_of_forbids_eq_false hothers hforbids hhead

/-- A public message to a receiver cleared for it. -/
theorem enforces_public :
    Enforces {} 0 ([] : List (BaseMiddleware (PipelineContext Unit) (PipelineError Empty))) []
      (.ofMessage { messageId := "m" } ()) :=
  (enforces_iff (by simp)).mpr fun _ => ⟨by decide, by rintro ⟨-, head, hhead, -⟩; cases hhead⟩

/-- In audit mode, a secret message to a public receiver ends in an exception. -/
theorem not_enforces_secret :
    ¬Enforces { auditOnly := true } 0
      ([] : List (BaseMiddleware (PipelineContext Unit) (PipelineError Empty))) []
      (.ofMessage { messageId := "m", ifcLabel := some { confidentiality := .secret } } ()) := by
  intro h
  obtain ⟨-, hresult, -⟩ := h.audits rfl
  cases hresult

end Enforcement

end EnhancedAgentBus.Pipeline
