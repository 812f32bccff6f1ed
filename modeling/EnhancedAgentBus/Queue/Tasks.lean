import EnhancedAgentBus.Json
import EnhancedAgentBus.Lib.Dict
import EnhancedAgentBus.Lib.Machine
import Mathlib.Algebra.Order.Ring.Rat

/-!
# The deliberation queue

The tasks of a `DeliberationQueue` and the calls that change them.  A call gives up control in two
places only: where it waits for a lock, and where `update_status` and the monitor of a task save the
queue while they hold the global lock.  So a call is one step up to the global lock and one step
under it, and `System` is the queue together with that lock and the calls that wait for it.

Votes and thresholds are rational numbers: the code's floats, without their rounding.  Left out are
`updated_at`, the time of a vote, the metrics of `record_override`, `stop`, and what `resolve_task`
does to the message after it has updated the status.  Nothing here reads any of them.
-/

namespace EnhancedAgentBus.Queue

universe u

variable {M : Type u}

abbrev Time := ℤ

/-! ## The records -/

inductive DeliberationStatus where
  | pending
  | underReview
  | approved
  | rejected
  | timedOut
  | consensusReached
  deriving DecidableEq

namespace DeliberationStatus

def value : DeliberationStatus → String
  | pending => "pending"
  | underReview => "under_review"
  | approved => "approved"
  | rejected => "rejected"
  | timedOut => "timed_out"
  | consensusReached => "consensus_reached"

def all : List DeliberationStatus :=
  [pending, underReview, approved, rejected, timedOut, consensusReached]

/-- `DeliberationStatus(text.lower())`.  No letter outside ASCII becomes one of these values'
letters in `lower()`. -/
def ofText (text : String) : Option DeliberationStatus :=
  all.find? fun status => status.value.toList = text.toList.map Char.toLower

theorem ofText_value (status : DeliberationStatus) : ofText status.value = some status := by
  cases status <;> decide

def complete (status : DeliberationStatus) : Bool :=
  status ∈ [approved, rejected, timedOut]

end DeliberationStatus

inductive VoteType where
  | approve
  | reject
  | abstain
  deriving DecidableEq

structure AgentVote where
  agentId : String
  vote : VoteType
  reasoning : String
  confidenceScore : ℚ := 1
  deriving DecidableEq

def defaultRequiredVotes : ℤ := 3

def defaultConsensusThreshold : ℚ := 66 / 100

/-- `DEFAULT_DELIBERATION_TIMEOUT_SECONDS` -/
def defaultTimeoutSeconds : ℤ := 300

structure DeliberationTask (M : Type u) where
  taskId : String
  message : Option M := none
  status : DeliberationStatus := .pending
  requiredVotes : ℤ := defaultRequiredVotes
  consensusThreshold : ℚ := defaultConsensusThreshold
  timeoutSeconds : ℤ := defaultTimeoutSeconds
  currentVotes : List AgentVote := []
  metadata : Json := .obj []
  createdAt : Time
  humanReviewer : Option String := none
  humanDecision : Option DeliberationStatus := none
  humanReasoning : Option String := none

namespace DeliberationTask

def isComplete (task : DeliberationTask M) : Bool := task.status.complete

/-- `metadata["requires_human"]` -/
def requiresHuman (task : DeliberationTask M) : Bool :=
  match task.metadata with
  | .obj members =>
    match Dict.lookup "requires_human" members with
    | some (.bool required) => required
    | _ => false
  | _ => false

def withVote (task : DeliberationTask M) (vote : AgentVote) : DeliberationTask M :=
  { task with
    currentVotes := (task.currentVotes.filter fun v => v.agentId ≠ vote.agentId) ++ [vote] }

def approvals (task : DeliberationTask M) : ℕ :=
  task.currentVotes.countP fun v => v.vote = .approve

def checkConsensus (task : DeliberationTask M) : Bool :=
  if task.requiredVotes = 0 ∨ (task.currentVotes.length : ℤ) < task.requiredVotes then false
  else task.consensusThreshold ≤ (task.approvals : ℚ) / task.currentVotes.length

end DeliberationTask

/-- The counters of `stats` that the queue changes. -/
structure Stats where
  totalQueued : ℕ := 0
  approved : ℕ := 0
  rejected : ℕ := 0
  timedOut : ℕ := 0
  deriving DecidableEq

structure DeliberationQueue (M : Type u) where
  tasks : Dict String (DeliberationTask M) := .empty
  consensusThreshold : ℚ := 66 / 100
  defaultTimeout : ℤ := 300
  stats : Stats := {}

/-- The `status` of `update_status`. -/
inductive StatusArgument where
  | status (status : DeliberationStatus)
  | text (text : String)
  deriving DecidableEq

def StatusArgument.parsed : StatusArgument → Option DeliberationStatus
  | status known => some known
  | text t => DeliberationStatus.ofText t

/-! ## The calls, between two locks -/

namespace DeliberationQueue

/-- The insertion of `enqueue_for_deliberation`, under the identifier that `uuid4` draws. -/
def enqueueForDeliberation (q : DeliberationQueue M) (taskId : String) (message : M)
    (requiresHumanReview requiresMultiAgentVote : Bool) (timeoutSeconds : Option ℤ) (now : Time) :
    DeliberationQueue M :=
  { q with
    tasks := q.tasks.set taskId
      { taskId := taskId
        message := some message
        timeoutSeconds := (timeoutSeconds.filter (· ≠ 0)).getD q.defaultTimeout
        requiredVotes := if requiresMultiAgentVote then 5 else 0
        consensusThreshold := q.consensusThreshold
        metadata := .obj [("requires_human", .bool requiresHumanReview),
          ("requires_vote", .bool requiresMultiAgentVote)]
        createdAt := now } }

def countQueued (q : DeliberationQueue M) : DeliberationQueue M :=
  { q with stats := { q.stats with totalQueued := q.stats.totalQueued + 1 } }

def countApproved (q : DeliberationQueue M) : DeliberationQueue M :=
  { q with stats := { q.stats with approved := q.stats.approved + 1 } }

def countRejected (q : DeliberationQueue M) : DeliberationQueue M :=
  { q with stats := { q.stats with rejected := q.stats.rejected + 1 } }

def countTimedOut (q : DeliberationQueue M) : DeliberationQueue M :=
  { q with stats := { q.stats with timedOut := q.stats.timedOut + 1 } }

/-- `submit_agent_vote` under the lock of the task's partition: nothing if the vote is refused, and
otherwise whether it reaches consensus, and the queue. -/
def recordVote (q : DeliberationQueue M) (itemId : String) (vote : AgentVote) :
    Option (Bool × DeliberationQueue M) :=
  match q.tasks.get itemId with
  | none => none
  | some task =>
    if task.isComplete then none
    else
      let voted := task.withVote vote
      if voted.checkConsensus then
        some (true, { q with tasks := q.tasks.set itemId { voted with status := .approved } })
      else some (false, { q with tasks := q.tasks.set itemId voted })

theorem recordVote_cases (q : DeliberationQueue M) (itemId : String) (vote : AgentVote) :
    (q.recordVote itemId vote = none ∧
      ∀ task, q.tasks.get itemId = some task → task.isComplete = true) ∨
    ∃ task, q.tasks.get itemId = some task ∧ task.isComplete = false ∧
      (((task.withVote vote).checkConsensus = false ∧ q.recordVote itemId vote =
        some (false, { q with tasks := q.tasks.set itemId (task.withVote vote) })) ∨
      ((task.withVote vote).checkConsensus = true ∧ q.recordVote itemId vote =
        some (true, { q with
          tasks := q.tasks.set itemId { task.withVote vote with status := .approved } }))) := by
  unfold recordVote
  rcases hget : q.tasks.get itemId with _ | task
  · exact .inl ⟨rfl, fun _ h => by cases h⟩
  · cases hcomplete : task.isComplete with
    | true =>
      refine .inl ⟨by simp [hcomplete], fun t ht => ?_⟩
      cases ht
      exact hcomplete
    | false =>
      refine .inr ⟨task, rfl, hcomplete, ?_⟩
      cases hconsensus : (task.withVote vote).checkConsensus with
      | true => exact .inr ⟨rfl, by simp [hcomplete, hconsensus]⟩
      | false => exact .inl ⟨rfl, by simp [hcomplete, hconsensus]⟩

/-- `submit_human_decision` under the lock of the task's partition: nothing if the decision is
refused. -/
def recordDecision (q : DeliberationQueue M) (itemId reviewer : String)
    (decision : DeliberationStatus) (reasoning : String) : Option (DeliberationQueue M) :=
  match q.tasks.get itemId with
  | none => none
  | some task =>
    if task.isComplete then none
    -- only what is under review already
    else if task.status ≠ .underReview then none
    else
      some { q with
        tasks := q.tasks.set itemId
          { task with
            humanReviewer := some reviewer
            humanDecision := some decision
            humanReasoning := some reasoning
            status := decision } }

theorem recordDecision_cases (q : DeliberationQueue M) (itemId reviewer : String)
    (decision : DeliberationStatus) (reasoning : String) :
    (q.recordDecision itemId reviewer decision reasoning = none ∧
      ∀ task, q.tasks.get itemId = some task → task.status ≠ .underReview) ∨
    ∃ task task', q.tasks.get itemId = some task ∧ task.status = .underReview ∧
      task'.status = decision ∧ q.recordDecision itemId reviewer decision reasoning =
        some { q with tasks := q.tasks.set itemId task' } := by
  unfold recordDecision
  rcases hget : q.tasks.get itemId with _ | task
  · exact .inl ⟨rfl, fun _ h => by cases h⟩
  · by_cases hreview : task.status = .underReview
    · have hcomplete : task.isComplete = false := by
        rw [DeliberationTask.isComplete, hreview]
        rfl
      refine .inr ⟨task, { task with
        humanReviewer := some reviewer
        humanDecision := some decision
        humanReasoning := some reasoning
        status := decision }, rfl, hreview, rfl, ?_⟩
      simp only [hcomplete, Bool.false_eq_true, if_false, if_neg (not_not_intro hreview)]
    · refine .inl ⟨by simp only [ne_eq, hreview, not_false_eq_true, if_true, ite_self], ?_⟩
      intro t ht
      cases ht
      exact hreview

def countDecision (q : DeliberationQueue M) (decision : DeliberationStatus) : DeliberationQueue M :=
  if decision = .approved then q.countApproved else q.countRejected

/-- `update_status` under the global lock: nothing if there is no such task. -/
def updateStatus (q : DeliberationQueue M) (taskId : String) (status : StatusArgument) :
    Option (DeliberationQueue M) :=
  match q.tasks.get taskId with
  | none => none
  | some task =>
    match status.parsed with
    -- a text that is no status changes nothing
    | none => some q
    | some status => some { q with tasks := q.tasks.set taskId { task with status := status } }

/-- `_monitor_task` once the timeout is reached, under the global lock: nothing if the task is
complete. -/
def timeout (q : DeliberationQueue M) (taskId : String) : Option (DeliberationQueue M) :=
  match q.tasks.get taskId with
  | none => none
  | some task =>
    if task.isComplete then none
    else some ({ q with tasks := q.tasks.set taskId { task with status := .timedOut } }
      : DeliberationQueue M).countTimedOut

end DeliberationQueue

/-! ## The global lock -/

inductive Waiter where
  /-- the statistics of `enqueue_for_deliberation` -/
  | queued (taskId : String)
  /-- the statistics of a vote that has reached consensus -/
  | approved (itemId : String)
  /-- the statistics of a human decision -/
  | decided (decision : DeliberationStatus)
  | update (taskId : String) (status : StatusArgument)
  | timeout (taskId : String)

structure System (M : Type u) where
  queue : DeliberationQueue M
  /-- a call holds the global lock and saves the queue -/
  saving : Bool := false
  /-- the calls that wait for the global lock, in the order in which they get it -/
  waiting : List Waiter := []
  /-- the tasks that a monitor watches -/
  monitored : List String := []

namespace System

/-- A call under the global lock, up to the point where it lets go of it or starts to save. -/
def critical (S : System M) : Waiter → System M
  | .queued taskId =>
    { S with queue := S.queue.countQueued, monitored := taskId :: S.monitored }
  | .approved _ => { S with queue := S.queue.countApproved }
  | .decided decision => { S with queue := S.queue.countDecision decision }
  | .update taskId status =>
    match S.queue.updateStatus taskId status with
    | none => S
    | some queue => { S with queue := queue, saving := true }
  | .timeout taskId =>
    match S.queue.timeout taskId with
    | none => S
    | some queue => { S with queue := queue, saving := true }

def Free (S : System M) : Prop := S.saving = false ∧ S.waiting = []

instance (S : System M) : Decidable S.Free :=
  decidable_of_iff (S.saving = false ∧ S.waiting.isEmpty) (by simp [Free])

/-- `async with self._lock:` -/
def withLock (S : System M) (waiter : Waiter) : System M :=
  if S.Free then S.critical waiter else { S with waiting := S.waiting ++ [waiter] }

def partitionTaken (partition : String → Fin 4) (S : System M) (taskId : String) : Bool :=
  S.waiting.any fun waiter =>
    match waiter with
    | .approved itemId => partition itemId = partition taskId
    | _ => false

end System

/-! ## Runs -/

/-- A call gets as far as it can, or the lock passes on.  A call that needs the lock of a partition
is made when it has it. -/
inductive Event (M : Type u) where
  | enqueue (taskId : String) (message : M) (requiresHumanReview requiresMultiAgentVote : Bool)
      (timeoutSeconds : Option ℤ) (now : Time)
  | vote (itemId : String) (vote : AgentVote)
  | decide (itemId reviewer : String) (decision : DeliberationStatus) (reasoning : String)
  | update (taskId : String) (status : StatusArgument)
  | resolve (taskId : String) (approved : Bool)
  /-- the monitor of a task reaches the end of its timeout -/
  | timeout (taskId : String)
  /-- the first call that waits for the global lock gets it -/
  | resume
  /-- the queue is saved -/
  | saved

/-- The status that `resolve_task` gives. -/
def resolution (approved : Bool) : DeliberationStatus :=
  if approved then .approved else .rejected

namespace System

def step (partition : String → Fin 4) (S : System M) : Event M → System M
  | .enqueue taskId message requiresHumanReview requiresMultiAgentVote timeoutSeconds now =>
    -- `uuid4` draws a new identifier
    if taskId ∈ S.queue.tasks.keys ∨ S.partitionTaken partition taskId then S
    else
      let queue := S.queue.enqueueForDeliberation taskId message requiresHumanReview
        requiresMultiAgentVote timeoutSeconds now
      { S with queue := queue }.withLock (.queued taskId)
  | .vote itemId vote =>
    if S.partitionTaken partition itemId then S
    else match S.queue.recordVote itemId vote with
      | none => S
      | some (false, queue) => { S with queue := queue }
      | some (true, queue) => { S with queue := queue }.withLock (.approved itemId)
  | .decide itemId reviewer decision reasoning =>
    if S.partitionTaken partition itemId then S
    else match S.queue.recordDecision itemId reviewer decision reasoning with
      | none => S
      | some queue => { S with queue := queue }.withLock (.decided decision)
  | .update taskId status => S.withLock (.update taskId status)
  | .resolve taskId approved => S.withLock (.update taskId (.status (resolution approved)))
  | .timeout taskId =>
    if taskId ∈ S.monitored then
      { S with monitored := S.monitored.erase taskId }.withLock (.timeout taskId)
    else S
  | .resume =>
    if S.saving then S
    else match S.waiting with
      | [] => S
      | waiter :: rest => { S with waiting := rest }.critical waiter
  | .saved => { S with saving := false }

def start (tasks : Dict String (DeliberationTask M)) (consensusThreshold : ℚ)
    (defaultTimeout : ℤ) : System M where
  queue :=
    { tasks := tasks, consensusThreshold := consensusThreshold, defaultTimeout := defaultTimeout }

end System

end EnhancedAgentBus.Queue
