import EnhancedAgentBus.Persistence.Repository

/-!
# Replay from the event log

`ReplayEngine` rebuilds an instance by folding over the events of the log, as the repository
returns them.  A field the first event does not carry gets the default the engine reads it
with.
-/

namespace EnhancedAgentBus.Persistence

/-- `event_data.get(key, default)`, for a field that must be a string. -/
def strField (data : JSONDict) (key fallback : String) : Except PyExc String :=
  match Json.lookup key data with
  | none => .ok fallback
  | some (.str s) => .ok s
  | some _ => .error ⟨.operation, "Input should be a valid string"⟩

/-- `event_data.get(key)`, for a field that must be a dict or `None`. -/
def dictField (data : JSONDict) (key : String) : Except PyExc (Option JSONDict) :=
  match Json.lookup key data with
  | none | some .null => .ok none
  | some (.obj members) => .ok (some members)
  | some _ => .error ⟨.operation, "Input should be a valid dictionary"⟩

/-- `event_data.get(key)`, for a text or `None`. -/
def textField (data : JSONDict) (key : String) : Option String :=
  match Json.lookup key data with
  | some (.str s) => some s
  | _ => none

namespace ReplayEngine

/-- The instance a `WORKFLOW_STARTED` event gives. -/
def startedInstance (constitutionalHash : String) (instanceId : UUID) (data : JSONDict) :
    Except PyExc WorkflowInstance := do
  let workflowType ← strField data "workflow_type" ""
  let workflowId ← strField data "workflow_id" instanceId.str
  let tenantId ← strField data "tenant_id" "default"
  let input ← dictField data "input"
  return { id := instanceId, workflowType, workflowId, tenantId, input, status := .running
           constitutionalHash }

def applyEvent (constitutionalHash : String) (instanceId : UUID)
    (inst : Option WorkflowInstance) (event : WorkflowEvent) :
    Except PyExc (Option WorkflowInstance) :=
  match event.eventType with
  | .workflowStarted => some <$> startedInstance constitutionalHash instanceId event.eventData
  | .workflowCompleted =>
    .ok (inst.map fun wf =>
      { wf with
        status := .completed
        output := (Json.lookup "output" event.eventData).getD .null })
  | .workflowFailed =>
    .ok (inst.map fun wf =>
      { wf with status := .failed, error := textField event.eventData "error" })
  | .workflowCancelled =>
    .ok (inst.map fun wf =>
      { wf with status := .cancelled, error := textField event.eventData "reason" })
  | _ => .ok inst

def reconstructFromEvents (constitutionalHash : String) (instanceId : UUID)
    (events : List WorkflowEvent) : Except PyExc WorkflowInstance := do
  let inst ← events.foldlM (applyEvent constitutionalHash instanceId) none
  match inst with
  | some wf => return wf
  | none =>
    throw ⟨.operation, "Could not reconstruct workflow - missing WORKFLOW_STARTED event"⟩

/-- The events up to a sequence number; `None` and 0 keep them all. -/
def eventsUpTo (upToSequence : Option ℕ) (events : List WorkflowEvent) : List WorkflowEvent :=
  match upToSequence.filter (· ≠ 0) with
  | some n => events.filter fun e => e.sequenceNumber ≤ n
  | none => events

def replayWorkflow (constitutionalHash : String) (b : Backend) (w : World) (instanceId : UUID)
    (upToSequence : Option ℕ := none) : Except PyExc WorkflowInstance :=
  let id := instanceId.str
  let events := eventsUpTo upToSequence (w.getEvents b instanceId)
  if events.isEmpty then
    .error ⟨.operation, s!"No events found for workflow {id}"⟩
  else
    reconstructFromEvents constitutionalHash instanceId events

end ReplayEngine

end EnhancedAgentBus.Persistence
