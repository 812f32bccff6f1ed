import EnhancedAgentBus.Json
import EnhancedAgentBus.Lib.Dict
import EnhancedAgentBus.Lib.Machine
import Mathlib.Algebra.Order.Ring.Rat
import Mathlib.Data.List.MinMax
import Mathlib.Data.List.Infix

/-!
# The swarm coordinator

Agents, tasks and the queue of the tasks that wait for an agent.  The queue holds the task objects
of the table, so it is modelled by their identifiers.  No method gives up control while it holds the
coordinator's lock or a task that it has taken from the queue, so a call is one step.

The counters that only the statistics read are left out, and so are the message bus and the
consensus mechanism (`Swarm.Consensus`).  Proficiencies and durations are rational numbers: the
code's floats, without their rounding.
-/

namespace EnhancedAgentBus.Swarm

abbrev Seconds := ℚ

/-! ## The records -/

inductive AgentState where
  | initializing
  | ready
  | busy
  | waiting
  | error
  | terminated
  deriving DecidableEq

inductive TaskPriority where
  | critical
  | high
  | normal
  | low
  | deferred
  deriving DecidableEq

def TaskPriority.value : TaskPriority → ℕ
  | critical => 1
  | high => 2
  | normal => 3
  | low => 4
  | deferred => 5

structure AgentCapability where
  name : String
  proficiency : ℚ := 1

structure SwarmTask where
  id : String
  description : String
  requiredCapabilities : List String
  priority : TaskPriority := .normal
  dependencies : List String := []
  retryCount : ℕ := 0
  startedAt : Option Seconds := none
  completedAt : Option Seconds := none
  assignedAgent : Option String := none
  result : Json := .null
  error : Option String := none

structure SwarmAgent where
  id : String
  name : String
  capabilities : List AgentCapability
  state : AgentState := .initializing
  currentTask : Option String := none
  tasksCompleted : ℕ := 0
  tasksFailed : ℕ := 0
  totalExecutionTime : ℚ := 0
  lastActive : Seconds

/-- `if text:` for a text that may be missing. -/
def truthy (text : Option String) : Bool := text.any fun t => t ≠ ""

/-! ## Matching -/

namespace CapabilityMatcher

/-- `agent_caps.get(name)`: of capabilities with one name the last counts. -/
def capability (agent : SwarmAgent) (name : String) : Option AgentCapability :=
  agent.capabilities.reverse.find? fun c => c.name = name

def calculateMatchScore (task : SwarmTask) (agent : SwarmAgent) : ℚ :=
  if task.requiredCapabilities = [] then 1
  else
    let matched := task.requiredCapabilities.filterMap (capability agent)
    if matched = [] then 0
    else (matched.length / task.requiredCapabilities.length) *
      ((matched.map AgentCapability.proficiency).sum / matched.length)

/-- `find_best_agent`: of the ready agents with the best positive score, the first. -/
def findBestAgent (task : SwarmTask) (agents : List SwarmAgent) : Option SwarmAgent :=
  let available := agents.filter fun a => a.state = .ready
  let scored := available.filter fun a => 0 < calculateMatchScore task a
  scored.argmax (calculateMatchScore task)

end CapabilityMatcher

/-! ## Decomposition -/

namespace TaskDecomposer

def subtask (task : SwarmTask) (part description : String) (requiredCapabilities : List String)
    (after : Option String := none) (priority : TaskPriority := task.priority) : SwarmTask where
  id := task.id ++ part
  description := description ++ task.description
  requiredCapabilities := requiredCapabilities
  priority := priority
  dependencies := (after.map fun other => task.id ++ other).toList

def decomposeCodeGeneration (task : SwarmTask) : List SwarmTask :=
  [subtask task "_design" "Design architecture for: " ["architecture", "design"],
    subtask task "_implement" "Implement code for: " ["coding", "implementation"] (some "_design"),
    subtask task "_test" "Write tests for: " ["testing", "qa"] (some "_implement"),
    subtask task "_review" "Review code for: " ["code_review"] (some "_test")]

def decomposeTesting (task : SwarmTask) : List SwarmTask :=
  [subtask task "_unit" "Unit tests for: " ["unit_testing"],
    subtask task "_integration" "Integration tests for: " ["integration_testing"] (some "_unit"),
    subtask task "_e2e" "E2E tests for: " ["e2e_testing"] (some "_integration")]

def decomposeDocumentation (task : SwarmTask) : List SwarmTask :=
  [subtask task "_api" "API documentation for: " ["technical_writing"],
    subtask task "_user" "User documentation for: " ["user_documentation"]]

def decomposeRefactoring (task : SwarmTask) : List SwarmTask :=
  [subtask task "_analyze" "Analyze code for refactoring: " ["code_analysis", "refactoring"],
    subtask task "_refactor" "Execute refactoring: " ["refactoring", "coding"] (some "_analyze"),
    subtask task "_validate" "Validate refactoring: " ["testing", "validation"] (some "_refactor")]

def decomposeBugFix (task : SwarmTask) : List SwarmTask :=
  [subtask task "_reproduce" "Reproduce bug: " ["debugging", "testing"] none
      (if task.priority.value ≤ 2 then .high else task.priority),
    subtask task "_root_cause" "Identify root cause: " ["debugging", "analysis"]
      (some "_reproduce"),
    subtask task "_fix" "Implement fix: " ["coding", "debugging"] (some "_root_cause"),
    subtask task "_verify" "Verify fix and add regression test: " ["testing", "qa"] (some "_fix")]

def decompositionRules : List (String × (SwarmTask → List SwarmTask)) :=
  [("code_generation", decomposeCodeGeneration), ("testing", decomposeTesting),
    ("documentation", decomposeDocumentation), ("refactoring", decomposeRefactoring),
    ("bug_fix", decomposeBugFix)]

/-- `decompose`: by the first rule whose name is in the description.  The names are ASCII letters
that no other letter becomes in `lower()`. -/
def decompose (task : SwarmTask) : List SwarmTask :=
  let descriptionLower := task.description.toList.map Char.toLower
  match decompositionRules.find? fun rule => rule.1.toList <:+: descriptionLower with
  | some rule => rule.2 task
  | none => [task]

end TaskDecomposer

/-- The tasks are new, and their identifiers distinct extensions of the identifier. -/
structure Parts (taskId : String) (tasks : List SwarmTask) : Prop where
  ids : ∃ parts : List String, parts.Nodup ∧ tasks.map SwarmTask.id = parts.map (taskId ++ ·)
  new : ∀ task ∈ tasks, task.completedAt = none ∧ task.assignedAgent = none

theorem Parts.nodup {taskId : String} {tasks : List SwarmTask} (h : Parts taskId tasks) :
    (tasks.map SwarmTask.id).Nodup := by
  obtain ⟨parts, hparts, hids⟩ := h.ids
  rw [hids]
  refine hparts.map fun x y hxy => ?_
  simpa using hxy

namespace TaskDecomposer

theorem rule_parts (task : SwarmTask) : ∀ rule ∈ decompositionRules, Parts task.id (rule.2 task) ∧
    ∃ first rest, rule.2 task = first :: rest ∧ rest ≠ [] ∧ first.dependencies = [] := by
  intro rule hrule
  simp only [decompositionRules, List.mem_cons, List.not_mem_nil, or_false] at hrule
  rcases hrule with rfl | rfl | rfl | rfl | rfl
  · refine ⟨⟨⟨["_design", "_implement", "_test", "_review"], by decide, rfl⟩, ?_⟩, _, _, rfl,
      List.cons_ne_nil _ _, rfl⟩
    simp [decomposeCodeGeneration, subtask]
  · refine ⟨⟨⟨["_unit", "_integration", "_e2e"], by decide, rfl⟩, ?_⟩, _, _, rfl,
      List.cons_ne_nil _ _, rfl⟩
    simp [decomposeTesting, subtask]
  · refine ⟨⟨⟨["_api", "_user"], by decide, rfl⟩, ?_⟩, _, _, rfl, List.cons_ne_nil _ _, rfl⟩
    simp [decomposeDocumentation, subtask]
  · refine ⟨⟨⟨["_analyze", "_refactor", "_validate"], by decide, rfl⟩, ?_⟩, _, _, rfl,
      List.cons_ne_nil _ _, rfl⟩
    simp [decomposeRefactoring, subtask]
  · refine ⟨⟨⟨["_reproduce", "_root_cause", "_fix", "_verify"], by decide, rfl⟩, ?_⟩, _, _, rfl,
      List.cons_ne_nil _ _, rfl⟩
    simp [decomposeBugFix, subtask]

theorem decompose_cases (task : SwarmTask) : decompose task = [task] ∨
    ∃ rule ∈ decompositionRules, decompose task = rule.2 task := by
  simp only [decompose]
  split
  · next rule hrule => exact .inr ⟨rule, List.mem_of_find?_eq_some hrule, rfl⟩
  · exact .inl rfl

end TaskDecomposer

/-! ## The coordinator -/

/-- `ACGSValidationError` -/
structure ValidationError where
  message : String
  errorCode : String

structure SwarmCoordinator where
  maxAgents : ℕ := 8
  agents : Dict String SwarmAgent := .empty
  tasks : Dict String SwarmTask := .empty
  taskQueue : List String := []

def maxAssignIterations : ℕ := 1000

namespace SwarmCoordinator

/-- `spawn_agent`, with the identifier that `uuid4` draws. -/
def spawnAgent (C : SwarmCoordinator) (name : String) (capabilities : List AgentCapability)
    (uuid : String) (now : Seconds) : Except ValidationError (Option String) × SwarmCoordinator :=
  if name.length < 1 then
    (.error ⟨"Agent name must be at least 1 character", "SWARM_AGENT_NAME_TOO_SHORT"⟩, C)
  else if 255 < name.length then
    (.error ⟨"Agent name must not exceed 255 characters", "SWARM_AGENT_NAME_TOO_LONG"⟩, C)
  else if capabilities = [] then
    (.error ⟨"At least one capability is required", "SWARM_NO_CAPABILITIES"⟩, C)
  else if C.maxAgents ≤ C.agents.keys.length then (.ok none, C)
  else
    (.ok (some uuid), { C with
      agents := C.agents.set uuid
        { id := uuid, name := name, capabilities := capabilities, state := .ready,
          lastActive := now } })

def terminateAgent (C : SwarmCoordinator) (agentId : String) : Bool × SwarmCoordinator :=
  match C.agents.get agentId with
  | none => (false, C)
  | some _ => (true, { C with agents := C.agents.erase agentId })

/-- The tasks that `submit_task` stores: the subtasks, if there are any, or the task. -/
def prepared (task : SwarmTask) (decompose : Bool) : List SwarmTask :=
  if decompose = true ∧ 1 < (TaskDecomposer.decompose task).length then
    TaskDecomposer.decompose task
  else [task]

theorem prepared_cases (task : SwarmTask) (decompose : Bool) :
    prepared task decompose = [task] ∨
      Parts task.id (prepared task decompose) ∧ ∃ first rest,
        prepared task decompose = first :: rest ∧ rest ≠ [] ∧ first.dependencies = [] := by
  unfold prepared
  split
  · rename_i h
    obtain hwhole | ⟨rule, hrule, hparts⟩ := TaskDecomposer.decompose_cases task
    · exact .inl hwhole
    · exact .inr (hparts ▸ TaskDecomposer.rule_parts task rule hrule)
  · exact .inl rfl

theorem prepared_parts (task : SwarmTask) (decompose : Bool) (hdone : task.completedAt = none)
    (hfree : task.assignedAgent = none) :
    Parts task.id (prepared task decompose) := by
  obtain hwhole | ⟨hparts, -⟩ := prepared_cases task decompose
  · rw [hwhole]
    exact ⟨⟨[""], by decide, by simp⟩, by simp [hdone, hfree]⟩
  · exact hparts

def store (C : SwarmCoordinator) (task : SwarmTask) : SwarmCoordinator :=
  { C with tasks := C.tasks.set task.id task, taskQueue := C.taskQueue ++ [task.id] }

/-- What `submit_task` refuses. -/
def validateTask (description : String) (requiredCapabilities : List String) :
    Option ValidationError :=
  if description.length < 1 then some ⟨"Task description is required", "SWARM_TASK_EMPTY"⟩
  else if 10000 < description.length then
    some ⟨"Task description must not exceed 10000 characters", "SWARM_TASK_TOO_LONG"⟩
  else if requiredCapabilities = [] then
    some ⟨"At least one required capability must be specified", "SWARM_TASK_NO_CAPABILITIES"⟩
  else none

/-- `submit_task`, with the identifier that `uuid4` draws. -/
def submitTask (C : SwarmCoordinator) (description : String) (requiredCapabilities : List String)
    (priority : TaskPriority) (dependencies : List String) (decompose : Bool) (uuid : String) :
    Except ValidationError String × SwarmCoordinator :=
  match validateTask description requiredCapabilities with
  | some error => (.error error, C)
  | none =>
    let task : SwarmTask :=
      { id := uuid, description := description, requiredCapabilities := requiredCapabilities,
        priority := priority, dependencies := dependencies }
    (.ok uuid, (prepared task decompose).foldl store C)

def dependenciesSatisfied (C : SwarmCoordinator) (task : SwarmTask) : Bool :=
  task.dependencies.all fun depId =>
    match C.tasks.get depId with
    | none => false
    | some depTask => depTask.completedAt.isSome

def assign (C : SwarmCoordinator) (taskId : String) (task : SwarmTask) (agent : SwarmAgent)
    (now : Seconds) : SwarmCoordinator :=
  { C with
    tasks := C.tasks.set taskId { task with assignedAgent := some agent.id, startedAt := some now }
    agents := C.agents.set agent.id { agent with state := .busy, currentTask := some taskId } }

/-- `await self._task_queue.put(task)` -/
def put (C : SwarmCoordinator) (taskId : String) : SwarmCoordinator :=
  { C with taskQueue := C.taskQueue ++ [taskId] }

/-- The loop of `assign_tasks`, with the iterations it has left. -/
def assignLoop (clock : ℕ → Seconds) :
    ℕ → List String → ℕ → SwarmCoordinator → ℕ × SwarmCoordinator
  | 0, _, assigned, C => (assigned, C)
  | iterations + 1, seenTasks, assigned, C =>
    match C.taskQueue with
    | [] => (assigned, C)
    | taskId :: rest =>
      match C.tasks.get taskId with
      -- the queue holds tasks of the table
      | none => (assigned, C)
      | some task =>
        let taken := { C with taskQueue := rest }
        if taskId ∈ seenTasks then (assigned, taken.put taskId)
        else if !taken.dependenciesSatisfied task then
          assignLoop clock iterations (taskId :: seenTasks) assigned (taken.put taskId)
        else match CapabilityMatcher.findBestAgent task taken.agents.values with
          | some agent =>
            assignLoop clock iterations seenTasks (assigned + 1)
              (taken.assign taskId task agent (clock assigned))
          -- no suitable agent
          | none => (assigned, taken.put taskId)

def assignTasks (C : SwarmCoordinator) (clock : ℕ → Seconds) : ℕ × SwarmCoordinator :=
  assignLoop clock maxAssignIterations [] 0 C

def released (agent : SwarmAgent) (task : SwarmTask) (error : Option String) (now : Seconds) :
    SwarmAgent :=
  { agent with
    state := .ready
    currentTask := none
    tasksFailed := agent.tasksFailed + (if truthy error then 1 else 0)
    tasksCompleted := agent.tasksCompleted + (if truthy error then 0 else 1)
    totalExecutionTime := agent.totalExecutionTime + (task.startedAt.map (now - ·)).getD 0 }

/-- The agent of a task that is completed becomes ready. -/
def release (C : SwarmCoordinator) (task : SwarmTask) (error : Option String) (now : Seconds) :
    SwarmCoordinator :=
  match task.assignedAgent.filter (· ≠ "") with
  | none => C
  | some agentId =>
    match C.agents.get agentId with
    | none => C
    | some agent => { C with agents := C.agents.set agentId (released agent task error now) }

@[simp] theorem release_tasks (C : SwarmCoordinator) (task : SwarmTask) (error : Option String)
    (now : Seconds) : (C.release task error now).tasks = C.tasks := by
  unfold release
  split
  · rfl
  · split <;> rfl

@[simp] theorem release_taskQueue (C : SwarmCoordinator) (task : SwarmTask) (error : Option String)
    (now : Seconds) : (C.release task error now).taskQueue = C.taskQueue := by
  unfold release
  split
  · rfl
  · split <;> rfl

def completeTask (C : SwarmCoordinator) (taskId : String) (result : Json) (error : Option String)
    (now : Seconds) : Bool × SwarmCoordinator :=
  match C.tasks.get taskId with
  | none => (false, C)
  | some task =>
    (true, { C with
      tasks := C.tasks.set taskId
        { task with completedAt := some now, result := result, error := error }
    }.release task error now)

/-- The current task of the agent goes back to the queue. -/
def requeue (C : SwarmCoordinator) (agent : SwarmAgent) : SwarmCoordinator :=
  match agent.currentTask.filter (· ≠ "") with
  | none => C
  | some taskId =>
    match C.tasks.get taskId with
    | none => C
    | some task =>
      { C with
        tasks := C.tasks.set taskId
          { task with
            assignedAgent := none
            startedAt := none
            retryCount := task.retryCount + 1 } }.put taskId

/-- `perform_self_healing`, for the action of a health result. -/
def performSelfHealing (C : SwarmCoordinator) (agentId : String) (action : Option String) :
    Bool × SwarmCoordinator :=
  match C.agents.get agentId with
  | none => (false, C)
  | some agent =>
    let idle := { agent with state := .ready, currentTask := none }
    if action = some "terminate" then (true, (C.terminateAgent agentId).2)
    else if action = some "restart" then
      (true, { C with agents := C.agents.set agentId idle })
    else if action = some "restart_task" then
      (true, { C.requeue agent with agents := C.agents.set agentId idle })
    else (false, C)

end SwarmCoordinator

/-! ## Runs -/

inductive SwarmCall where
  | spawn (name : String) (capabilities : List AgentCapability) (uuid : String) (now : Seconds)
  | terminate (agentId : String)
  | submit (description : String) (requiredCapabilities : List String) (priority : TaskPriority)
      (dependencies : List String) (decompose : Bool) (uuid : String)
  | assign (clock : ℕ → Seconds)
  | complete (taskId : String) (result : Json) (error : Option String) (now : Seconds)
  | checkHealth (agentId : String) (maxTaskDuration maxHeartbeatAge : ℚ) (now : Seconds)
  | heal (agentId : String) (action : Option String)

namespace SwarmCoordinator

def step (C : SwarmCoordinator) : SwarmCall → SwarmCoordinator
  | .spawn name capabilities uuid now => (C.spawnAgent name capabilities uuid now).2
  | .terminate agentId => (C.terminateAgent agentId).2
  | .submit description requiredCapabilities priority dependencies decompose uuid =>
    (C.submitTask description requiredCapabilities priority dependencies decompose uuid).2
  | .assign clock => (C.assignTasks clock).2
  | .complete taskId result error now => (C.completeTask taskId result error now).2
  | .checkHealth .. => C
  | .heal agentId action => (C.performSelfHealing agentId action).2

end SwarmCoordinator

end EnhancedAgentBus.Swarm
