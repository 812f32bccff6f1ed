import EnhancedAgentBus.Queue.Tasks
import Mathlib.Data.Fintype.EquivFin
import Mathlib.Algebra.Order.Field.Basic
import Mathlib.Tactic.FieldSimp
import Mathlib.Tactic.Linarith

/-!
# A queue that is saved and loaded again

`_save_tasks` keeps the message, the status, the metadata and the time of creation of a task, and
`_load_tasks` makes a new task of these: with the defaults of the dataclass for the votes that it
requires and for its threshold, and without the votes that are cast.  `reload_preserves_iff` says for
which queues that is nothing lost.

A file holds JSON, of which status and time are read as they were written.  The encoding of the
messages is a parameter; a message is refused with a `KeyError` or a `ValueError`, which ends the
loading.
-/

namespace EnhancedAgentBus.Queue

universe u

variable {M : Type u}

/-! ## The file -/

/-- `to_dict_raw` and `from_dict` of a message, which may refuse what it reads. -/
structure MessageCodec (M : Type u) where
  toDictRaw : M → Json
  fromDict : Json → Option M

structure SavedTask where
  message : Json
  status : String
  metadata : Json
  createdAt : Time

namespace MessageCodec

variable (codec : MessageCodec M)

/-- What `_save_tasks` writes of a task. -/
def saved (task : DeliberationTask M) : SavedTask where
  message := match task.message with
    | some message => codec.toDictRaw message
    | none => .obj []
  status := task.status.value
  metadata := task.metadata
  createdAt := task.createdAt

/-- What `_load_tasks` makes of an entry, if it does not raise. -/
def loaded (taskId : String) (data : SavedTask) : Option (DeliberationTask M) :=
  match codec.fromDict data.message with
  | none => none
  | some message =>
    match DeliberationStatus.ofText data.status with
    | none => none
    | some status =>
      some
        { taskId := taskId
          message := some message
          status := status
          metadata := data.metadata
          createdAt := data.createdAt }

/-- The loop of `_load_tasks`, which an exception ends. -/
def loadTasks : List (String × SavedTask) → Dict String (DeliberationTask M) →
    Dict String (DeliberationTask M)
  | [], tasks => tasks
  | (taskId, data) :: rest, tasks =>
    match codec.loaded taskId data with
    | none => tasks
    | some task => loadTasks rest (tasks.set taskId task)

def Loads (task : DeliberationTask M) : Prop :=
  (codec.fromDict (codec.saved task).message).isSome

instance (task : DeliberationTask M) : Decidable (codec.Loads task) :=
  inferInstanceAs (Decidable (_ = true))

end MessageCodec

/-- The entries that `_save_tasks` writes. -/
def DeliberationQueue.saveTasks (codec : MessageCodec M) (q : DeliberationQueue M) :
    List (String × SavedTask) :=
  q.tasks.entries.map fun entry => (entry.1, codec.saved entry.2)

/-- A fresh queue of the same configuration that reads what a queue has saved. -/
def DeliberationQueue.reload (codec : MessageCodec M) (q : DeliberationQueue M) :
    DeliberationQueue M where
  tasks := codec.loadTasks (q.saveTasks codec) .empty
  consensusThreshold := q.consensusThreshold
  defaultTimeout := q.defaultTimeout

/-! ## Continuations -/

inductive Call where
  | vote (itemId : String) (vote : AgentVote)
  | decide (itemId reviewer : String) (decision : DeliberationStatus) (reasoning : String)
  | update (taskId : String) (status : StatusArgument)

namespace DeliberationQueue

/-- A call from beginning to end: whether it is accepted, if it says so, and the queue. -/
def perform (q : DeliberationQueue M) : Call → Option Bool × DeliberationQueue M
  | .vote itemId vote =>
    match q.recordVote itemId vote with
    | none => (some false, q)
    | some (false, queue) => (some true, queue)
    | some (true, queue) => (some true, queue.countApproved)
  | .decide itemId reviewer decision reasoning =>
    match q.recordDecision itemId reviewer decision reasoning with
    | none => (some false, q)
    | some queue => (some true, queue.countDecision decision)
  | .update taskId status => (none, (q.updateStatus taskId status).getD q)

def performAll (q : DeliberationQueue M) (calls : List Call) : DeliberationQueue M :=
  calls.foldl (fun q call => (q.perform call).2) q

/-- The status of a task, if there is such a task. -/
def status (q : DeliberationQueue M) (taskId : String) : Option DeliberationStatus :=
  (q.tasks.get taskId).map DeliberationTask.status

/-- Two queues give the same answers to a series of calls, and have the same statuses before and
after each of them. -/
def Agree : DeliberationQueue M → DeliberationQueue M → List Call → Prop
  | q, r, [] => q.status = r.status
  | q, r, call :: calls => q.status = r.status ∧ (q.perform call).1 = (r.perform call).1 ∧
      Agree (q.perform call).2 (r.perform call).2 calls

theorem Agree.status_eq {q r : DeliberationQueue M} {calls : List Call} (h : Agree q r calls) :
    (q.performAll calls).status = (r.performAll calls).status := by
  induction calls generalizing q r with
  | nil => exact h
  | cons call calls ih => exact ih h.2.2

/-- The reloaded queue behaves as the queue did, whatever is done with them. -/
def Survives (codec : MessageCodec M) (q : DeliberationQueue M) : Prop :=
  ∀ calls, q.Agree (q.reload codec) calls

end DeliberationQueue

/-! ## What is loaded -/

namespace MessageCodec

variable {codec : MessageCodec M}

/-- The task that a task is after it has been saved and loaded. -/
def reloaded (codec : MessageCodec M) (taskId : String) (task : DeliberationTask M) :
    Option (DeliberationTask M) :=
  (codec.fromDict (codec.saved task).message).map fun message =>
    { taskId := taskId
      message := some message
      status := task.status
      metadata := task.metadata
      createdAt := task.createdAt }

theorem loaded_saved (taskId : String) (task : DeliberationTask M) :
    codec.loaded taskId (codec.saved task) = codec.reloaded taskId task := by
  unfold loaded reloaded
  rcases codec.fromDict (codec.saved task).message with _ | message
  · rfl
  · dsimp only [saved]
    rw [DeliberationStatus.ofText_value]
    rfl

theorem exists_reloaded {task : DeliberationTask M} (h : codec.Loads task) (taskId : String) :
    ∃ task', codec.reloaded taskId task = some task' := by
  obtain ⟨message, hmessage⟩ := Option.isSome_iff_exists.mp h
  rw [reloaded, hmessage]
  exact ⟨_, rfl⟩

theorem get_loadTasks_of_not_loads {entries : List (String × DeliberationTask M)}
    (hnodup : (entries.map Prod.fst).Nodup) {entry : String × DeliberationTask M}
    (hentry : entry ∈ entries) (hloads : ¬ codec.Loads entry.2)
    {tasks : Dict String (DeliberationTask M)} (hnew : tasks.get entry.1 = none) :
    (codec.loadTasks (entries.map fun e => (e.1, codec.saved e.2)) tasks).get entry.1 = none := by
  induction entries generalizing tasks with
  | nil => cases hentry
  | cons e rest ih =>
    rw [List.map_cons, List.nodup_cons] at hnodup
    rw [List.map_cons, loadTasks, loaded_saved]
    rcases hread : codec.reloaded e.1 e.2 with _ | task
    · exact hnew
    · rcases List.mem_cons.mp hentry with rfl | hrest
      · unfold reloaded at hread
        rw [Option.map_eq_some_iff] at hread
        obtain ⟨message, hmessage, -⟩ := hread
        exact absurd (by rw [Loads, hmessage]; rfl) hloads
      · refine ih hnodup.2 hrest ?_
        rw [Dict.get_set, if_neg, hnew]
        intro heq
        exact hnodup.1 (heq ▸ List.mem_map_of_mem hrest)

theorem get_loadTasks {entries : List (String × DeliberationTask M)}
    (hnodup : (entries.map Prod.fst).Nodup) (hloads : ∀ entry ∈ entries, codec.Loads entry.2)
    (tasks : Dict String (DeliberationTask M)) (taskId : String) :
    (codec.loadTasks (entries.map fun e => (e.1, codec.saved e.2)) tasks).get taskId =
      ((Dict.lookup taskId entries).bind (codec.reloaded taskId)).or (tasks.get taskId) := by
  induction entries generalizing tasks with
  | nil => rfl
  | cons e rest ih =>
    rw [List.map_cons, List.nodup_cons] at hnodup
    obtain ⟨task, hread⟩ := exists_reloaded (hloads e List.mem_cons_self) e.1
    rw [List.map_cons, loadTasks, loaded_saved, hread]
    dsimp only
    rw [ih hnodup.2 fun entry hentry => hloads entry (List.mem_cons_of_mem _ hentry),
      Dict.get_set, Dict.lookup]
    by_cases hid : taskId = e.1
    · have hnone : Dict.lookup taskId rest = none := by
        rw [Option.eq_none_iff_forall_ne_some]
        intro t ht
        exact hnodup.1 (hid ▸ List.mem_map_of_mem (Dict.mem_of_lookup ht))
      rw [hnone, if_pos hid, if_pos hid.symm, hid, Option.bind_some, hread]
      rfl
    · rw [if_neg hid, if_neg fun h => hid h.symm]

end MessageCodec

/-! ## Tasks that behave alike -/

structure Alike (task task' : DeliberationTask M) : Prop where
  status : task.status = task'.status
  currentVotes : task.currentVotes = task'.currentVotes
  requiredVotes : task.requiredVotes = task'.requiredVotes
  consensusThreshold : task.consensusThreshold = task'.consensusThreshold

namespace Alike

variable {task task' : DeliberationTask M}

theorem isComplete (h : Alike task task') : task.isComplete = task'.isComplete := by
  rw [DeliberationTask.isComplete, DeliberationTask.isComplete, h.status]

theorem withVote (h : Alike task task') (vote : AgentVote) :
    Alike (task.withVote vote) (task'.withVote vote) where
  status := h.status
  currentVotes := by
    unfold DeliberationTask.withVote
    rw [h.currentVotes]
  requiredVotes := h.requiredVotes
  consensusThreshold := h.consensusThreshold

theorem checkConsensus (h : Alike task task') : task.checkConsensus = task'.checkConsensus := by
  unfold DeliberationTask.checkConsensus DeliberationTask.approvals
  rw [h.currentVotes, h.requiredVotes, h.consensusThreshold]

theorem withStatus (h : Alike task task') (status : DeliberationStatus) :
    Alike { task with status := status } { task' with status := status } :=
  ⟨rfl, h.currentVotes, h.requiredVotes, h.consensusThreshold⟩

end Alike

/-- The same tasks, up to what decides of no call. -/
def Similar (tasks tasks' : Dict String (DeliberationTask M)) : Prop :=
  ∀ taskId, (tasks.get taskId = none ∧ tasks'.get taskId = none) ∨
    ∃ task task', tasks.get taskId = some task ∧ tasks'.get taskId = some task' ∧ Alike task task'

theorem Similar.set {tasks tasks' : Dict String (DeliberationTask M)} (h : Similar tasks tasks')
    (taskId : String) {task task' : DeliberationTask M} (htask : Alike task task') :
    Similar (tasks.set taskId task) (tasks'.set taskId task') := by
  intro id
  rw [Dict.get_set, Dict.get_set]
  split
  · exact .inr ⟨task, task', rfl, rfl, htask⟩
  · exact h id

namespace DeliberationQueue

variable {q r : DeliberationQueue M}

theorem status_eq_of_similar (h : Similar q.tasks r.tasks) : q.status = r.status := by
  funext taskId
  unfold status
  obtain ⟨hget, hget'⟩ | ⟨task, task', hget, hget', halike⟩ := h taskId
  · rw [hget, hget']
  · rw [hget, hget', Option.map_some, Option.map_some, halike.status]

@[simp] theorem countDecision_tasks (q : DeliberationQueue M) (decision : DeliberationStatus) :
    (q.countDecision decision).tasks = q.tasks := by
  unfold countDecision
  split <;> rfl

theorem perform_similar (h : Similar q.tasks r.tasks) (call : Call) :
    (q.perform call).1 = (r.perform call).1 ∧
      Similar (q.perform call).2.tasks (r.perform call).2.tasks := by
  cases call with
  | vote itemId vote =>
    unfold perform recordVote
    dsimp only
    obtain ⟨hget, hget'⟩ | ⟨task, task', hget, hget', halike⟩ := h itemId
    · rw [hget, hget']
      exact ⟨rfl, h⟩
    · have hvoted := halike.withVote vote
      rw [hget, hget']
      dsimp only
      rw [halike.isComplete, hvoted.checkConsensus]
      by_cases hcomplete : task'.isComplete = true
      · rw [if_pos hcomplete, if_pos hcomplete]
        exact ⟨rfl, h⟩
      · rw [if_neg hcomplete, if_neg hcomplete]
        by_cases hconsensus : (task'.withVote vote).checkConsensus = true
        · rw [if_pos hconsensus, if_pos hconsensus]
          exact ⟨rfl, h.set itemId (hvoted.withStatus .approved)⟩
        · rw [if_neg hconsensus, if_neg hconsensus]
          exact ⟨rfl, h.set itemId hvoted⟩
  | decide itemId reviewer decision reasoning =>
    unfold perform recordDecision
    dsimp only
    obtain ⟨hget, hget'⟩ | ⟨task, task', hget, hget', halike⟩ := h itemId
    · rw [hget, hget']
      exact ⟨rfl, h⟩
    · rw [hget, hget']
      dsimp only
      rw [halike.isComplete, halike.status]
      by_cases hcomplete : task'.isComplete = true
      · rw [if_pos hcomplete, if_pos hcomplete]
        exact ⟨rfl, h⟩
      · rw [if_neg hcomplete, if_neg hcomplete]
        by_cases hreview : task'.status ≠ .underReview
        · rw [if_pos hreview, if_pos hreview]
          exact ⟨rfl, h⟩
        · rw [if_neg hreview, if_neg hreview]
          refine ⟨rfl, ?_⟩
          rw [countDecision_tasks, countDecision_tasks]
          exact h.set itemId ⟨rfl, halike.currentVotes, halike.requiredVotes,
            halike.consensusThreshold⟩
  | update taskId status =>
    refine ⟨rfl, ?_⟩
    unfold perform updateStatus
    dsimp only
    obtain ⟨hget, hget'⟩ | ⟨task, task', hget, hget', halike⟩ := h taskId
    · rw [hget, hget']
      exact h
    · rw [hget, hget']
      rcases status.parsed with _ | known
      · exact h
      · exact h.set taskId (halike.withStatus known)

theorem agree_of_similar (h : Similar q.tasks r.tasks) (calls : List Call) : q.Agree r calls := by
  induction calls generalizing q r with
  | nil => exact status_eq_of_similar h
  | cons call calls ih =>
    obtain ⟨hanswer, hnext⟩ := perform_similar h call
    exact ⟨status_eq_of_similar h, hanswer, ih hnext⟩

end DeliberationQueue

/-! ## Ballots -/

namespace DeliberationTask

/-- The task after a vote on it, if it was not complete. -/
def cast (task : DeliberationTask M) (vote : AgentVote) : DeliberationTask M :=
  { task.withVote vote with
    status := if (task.withVote vote).checkConsensus then .approved else .pending }

theorem foldl_cast_currentVotes (task : DeliberationTask M) (votes : List AgentVote)
    (hnodup : (votes.map AgentVote.agentId).Nodup) :
    (votes.foldl cast task).currentVotes =
      (task.currentVotes.filter fun v => v.agentId ∉ votes.map AgentVote.agentId) ++ votes := by
  induction votes generalizing task with
  | nil => simp
  | cons vote rest ih =>
    rw [List.map_cons, List.nodup_cons] at hnodup
    rw [List.foldl_cons, ih _ hnodup.2]
    dsimp only [cast, withVote]
    have hlast : [vote].filter (fun v => v.agentId ∉ rest.map AgentVote.agentId) = [vote] := by
      rw [List.filter_singleton, decide_eq_true hnodup.1]
      rfl
    rw [List.filter_append, List.filter_filter, hlast, List.append_assoc]
    congr 1
    refine List.filter_congr fun v _ => ?_
    rw [← Bool.decide_and]
    exact decide_eq_decide.mpr (by rw [List.map_cons, List.mem_cons, not_or, and_comm])

theorem foldl_cast_requiredVotes (task : DeliberationTask M) (votes : List AgentVote) :
    (votes.foldl cast task).requiredVotes = task.requiredVotes := by
  induction votes generalizing task with
  | nil => rfl
  | cons vote rest ih => exact ih _

theorem foldl_cast_consensusThreshold (task : DeliberationTask M) (votes : List AgentVote) :
    (votes.foldl cast task).consensusThreshold = task.consensusThreshold := by
  induction votes generalizing task with
  | nil => rfl
  | cons vote rest ih => exact ih _

theorem foldl_cast_status (task : DeliberationTask M) {votes : List AgentVote} (hvotes : votes ≠ []) :
    (votes.foldl cast task).status = .approved ↔
      (votes.foldl cast task).checkConsensus = true := by
  obtain ⟨init, last, rfl⟩ := (List.eq_nil_or_concat votes).resolve_left hvotes
  rw [List.concat_eq_append, List.foldl_append, List.foldl_cons, List.foldl_nil]
  have hsame (t : DeliberationTask M) :
      (t.cast last).checkConsensus = (t.withVote last).checkConsensus := rfl
  rw [hsame]
  unfold cast
  dsimp only
  split
  · next h => exact ⟨fun _ => h, fun _ => rfl⟩
  · next h => exact ⟨fun h' => (by cases h'), fun h' => absurd h' h⟩

end DeliberationTask

/-- Votes on a task, each after the task has been reopened. -/
def ballot (itemId : String) (votes : List AgentVote) : List Call :=
  votes.flatMap fun vote => [.update itemId (.status .pending), .vote itemId vote]

namespace DeliberationQueue

theorem get_performAll_ballot (q : DeliberationQueue M) {itemId : String}
    {task : DeliberationTask M} (hget : q.tasks.get itemId = some task) (votes : List AgentVote) :
    (q.performAll (ballot itemId votes)).tasks.get itemId =
      some (votes.foldl DeliberationTask.cast task) := by
  induction votes generalizing q task with
  | nil => exact hget
  | cons vote rest ih =>
    unfold performAll ballot
    rw [List.flatMap_cons, List.foldl_append]
    refine ih _ ?_
    have hopen : (q.perform (.update itemId (.status .pending))).2.tasks =
        q.tasks.set itemId { task with status := .pending } := by
      unfold perform updateStatus
      dsimp only
      rw [hget]
      rfl
    set q' := (q.perform (.update itemId (.status .pending))).2
    have hget' : q'.tasks.get itemId = some { task with status := .pending } := by
      rw [hopen, Dict.get_set, if_pos rfl]
    change (q'.perform (.vote itemId vote)).2.tasks.get itemId = _
    unfold perform
    dsimp only
    obtain ⟨-, hrefused⟩ | ⟨task', hget'', -, hvoted⟩ := q'.recordVote_cases itemId vote
    · cases hrefused _ hget'
    · rw [hget', Option.some_inj] at hget''
      subst hget''
      unfold DeliberationTask.cast
      obtain ⟨hconsensus, hsome⟩ | ⟨hconsensus, hsome⟩ := hvoted
      · have hnot : (task.withVote vote).checkConsensus = false := hconsensus
        rw [hsome, hnot]
        exact (Dict.get_set ..).trans (if_pos rfl)
      · have hreached : (task.withVote vote).checkConsensus = true := hconsensus
        rw [hsome, hreached]
        exact (Dict.get_set ..).trans (if_pos rfl)

end DeliberationQueue

/-! ## What ballots tell of a task -/

theorem exists_agents (taken : List String) (n : ℕ) :
    ∃ agents : List String, agents.Nodup ∧ agents.length = n ∧ ∀ agent ∈ agents, agent ∉ taken := by
  induction n with
  | zero => exact ⟨[], List.nodup_nil, rfl, fun _ h => by cases h⟩
  | succ n ih =>
    obtain ⟨agents, hnodup, hlength, hnew⟩ := ih
    obtain ⟨agent, hagent⟩ := Infinite.exists_notMem_finset (taken ++ agents).toFinset
    rw [List.mem_toFinset, List.mem_append, not_or] at hagent
    refine ⟨agent :: agents, List.nodup_cons.mpr ⟨hagent.2, hnodup⟩, by rw [List.length_cons, hlength],
      fun a ha => ?_⟩
    rcases List.mem_cons.mp ha with rfl | ha
    · exact hagent.1
    · exact hnew a ha

/-- Votes to approve of some agents, and votes to reject of others. -/
def votesOf (approving rejecting : List String) : List AgentVote :=
  (approving.map fun agent => ⟨agent, .approve, "", 1⟩) ++
    rejecting.map fun agent => ⟨agent, .reject, "", 1⟩

@[simp] theorem votesOf_agents (approving rejecting : List String) :
    (votesOf approving rejecting).map AgentVote.agentId = approving ++ rejecting := by
  simp [votesOf, Function.comp_def]

@[simp] theorem votesOf_length (approving rejecting : List String) :
    (votesOf approving rejecting).length = approving.length + rejecting.length := by
  simp [votesOf]

@[simp] theorem votesOf_approvals (approving rejecting : List String) :
    (votesOf approving rejecting).countP (fun v => v.vote = .approve) = approving.length := by
  simp [votesOf, List.countP_eq_length_filter, List.filter_map, Function.comp_def]

namespace DeliberationTask

theorem checkConsensus_iff (task : DeliberationTask M) :
    task.checkConsensus = true ↔ task.requiredVotes ≠ 0 ∧
      task.requiredVotes ≤ task.currentVotes.length ∧
      task.consensusThreshold ≤ (task.approvals : ℚ) / task.currentVotes.length := by
  unfold checkConsensus
  by_cases hskip : task.requiredVotes = 0 ∨ (task.currentVotes.length : ℤ) < task.requiredVotes
  · rw [if_pos hskip]
    constructor
    · intro h
      cases h
    · rintro ⟨hzero, hlength, -⟩
      rcases hskip with h | h <;> omega
  · rw [if_neg hskip, decide_eq_true_iff]
    rw [not_or, not_lt] at hskip
    exact ⟨fun h => ⟨hskip.1, hskip.2, h⟩, fun h => h.2.2⟩

theorem foldl_cast_fresh (task : DeliberationTask M) {approving rejecting : List String}
    (hnodup : (approving ++ rejecting).Nodup)
    (hnew : ∀ agent ∈ approving ++ rejecting, agent ∉ task.currentVotes.map AgentVote.agentId) :
    ((votesOf approving rejecting).foldl cast task).checkConsensus = true ↔
      task.requiredVotes ≠ 0 ∧
      task.requiredVotes ≤ task.currentVotes.length + (approving.length + rejecting.length : ℕ) ∧
      task.consensusThreshold ≤ ((task.approvals + approving.length : ℕ) : ℚ) /
        (task.currentVotes.length + (approving.length + rejecting.length) : ℕ) := by
  have hvotes : ((votesOf approving rejecting).foldl cast task).currentVotes =
      task.currentVotes ++ votesOf approving rejecting := by
    rw [foldl_cast_currentVotes _ _ (by rwa [votesOf_agents]), votesOf_agents]
    congr 1
    refine List.filter_eq_self.mpr fun v hv => decide_eq_true fun hmem => ?_
    exact hnew v.agentId hmem (List.mem_map_of_mem hv)
  rw [checkConsensus_iff, foldl_cast_requiredVotes, foldl_cast_consensusThreshold, approvals, hvotes,
    List.length_append, List.countP_append, votesOf_length, votesOf_approvals]
  push_cast
  rfl

def SameBallots (task task' : DeliberationTask M) : Prop :=
  ∀ votes, votes ≠ [] →
    (votes.foldl cast task).checkConsensus = (votes.foldl cast task').checkConsensus

/-- A task on which nobody has voted, with the defaults of the dataclass for what decides of
consensus. -/
structure Plain (task : DeliberationTask M) : Prop where
  currentVotes : task.currentVotes = []
  requiredVotes : task.requiredVotes = defaultRequiredVotes
  consensusThreshold : task.consensusThreshold = defaultConsensusThreshold

variable {task task' : DeliberationTask M}

theorem SameBallots.fresh (h : SameBallots task task') (hplain : Plain task') (k j : ℕ)
    (hpos : 0 < k + j) :
    (task.requiredVotes ≠ 0 ∧ task.requiredVotes ≤ task.currentVotes.length + (k + j : ℕ) ∧
      task.consensusThreshold ≤ ((task.approvals + k : ℕ) : ℚ) /
        (task.currentVotes.length + (k + j) : ℕ)) ↔
    3 ≤ k + j ∧ (66 / 100 : ℚ) ≤ k / (k + j : ℕ) := by
  obtain ⟨agents, hnodup, hlength, hnew⟩ :=
    exists_agents (task.currentVotes.map AgentVote.agentId) (k + j)
  set approving := agents.take k
  set rejecting := agents.drop k
  have happend : approving ++ rejecting = agents := List.take_append_drop k agents
  have hk : approving.length = k := by
    rw [List.length_take, hlength]
    omega
  have hj : rejecting.length = j := by
    rw [List.length_drop, hlength]
    omega
  have hsame := h (votesOf approving rejecting) fun hnil => by
    have := congrArg List.length hnil
    rw [votesOf_length, hk, hj, List.length_nil] at this
    omega
  have htask := foldl_cast_fresh task (happend ▸ hnodup) (happend ▸ hnew)
  have htask' := foldl_cast_fresh task' (happend ▸ hnodup)
    (fun _ _ => by rw [hplain.currentVotes]; exact List.not_mem_nil)
  rw [hk, hj] at htask htask'
  rw [← htask, hsame, htask', approvals, hplain.currentVotes, hplain.requiredVotes,
    hplain.consensusThreshold, defaultRequiredVotes, defaultConsensusThreshold]
  simp only [List.length_nil, List.countP_nil, Nat.cast_zero, zero_add]
  constructor
  · rintro ⟨-, hlength, hthreshold⟩
    exact ⟨by exact_mod_cast hlength, hthreshold⟩
  · rintro ⟨hlength, hthreshold⟩
    exact ⟨by norm_num, by exact_mod_cast hlength, hthreshold⟩

theorem SameBallots.currentVotes (h : SameBallots task task') (hplain : Plain task') :
    task.currentVotes = [] ∧ task.requiredVotes = 3 := by
  set m := task.currentVotes.length
  set a := task.approvals
  -- three votes to approve are enough, two are not, and one of three may be against
  have hthree := (h.fresh hplain 3 0 (by norm_num)).mpr ⟨le_rfl, by norm_num⟩
  have htwo := mt (h.fresh hplain 2 0 (by norm_num)).mp fun hle => absurd hle.1 (by norm_num)
  have hmixed := (h.fresh hplain 2 1 (by norm_num)).mpr ⟨le_rfl, by norm_num⟩
  have hthreshold : task.consensusThreshold ≤ ((a + 2 : ℕ) : ℚ) / (m + (2 + 0) : ℕ) := by
    refine hmixed.2.2.trans ?_
    gcongr
    omega
  have hrequired : task.requiredVotes = m + 3 := by
    have hle := hthree.2.1
    have hlt : ¬ task.requiredVotes ≤ m + (2 + 0 : ℕ) := fun hle' =>
      htwo ⟨hthree.1, hle', hthreshold⟩
    push_cast at hle hlt
    omega
  have hnil : task.currentVotes = [] := by
    by_contra hne
    obtain ⟨voter, rest, hvotes⟩ := List.exists_cons_of_ne_nil hne
    -- an agent that has voted votes again, and two others do
    obtain ⟨agents, hnodup, hlength, hnew⟩ :=
      exists_agents (task.currentVotes.map AgentVote.agentId) 2
    have hvoter : voter.agentId ∉ agents := fun hmem =>
      hnew _ hmem (hvotes ▸ List.mem_cons_self)
    have hagents : (voter.agentId :: agents ++ []).Nodup := by
      rw [List.append_nil]
      exact List.nodup_cons.mpr ⟨hvoter, hnodup⟩
    have hreached := (foldl_cast_fresh task' hagents fun _ _ => by
      rw [hplain.currentVotes]
      exact List.not_mem_nil).mpr ⟨by rw [hplain.requiredVotes]; decide, by
        rw [hplain.requiredVotes, hplain.currentVotes, List.length_cons, hlength]
        decide, by
        rw [hplain.consensusThreshold, approvals, hplain.currentVotes, List.length_cons, hlength]
        norm_num [defaultConsensusThreshold]⟩
    rw [← h _ (by simp [votesOf]), checkConsensus_iff, foldl_cast_requiredVotes, hrequired,
      foldl_cast_currentVotes _ _ (by rwa [votesOf_agents]), votesOf_agents] at hreached
    have hfewer : (task.currentVotes.filter fun v =>
        v.agentId ∉ voter.agentId :: agents ++ []).length < m := by
      refine List.length_filter_lt_length_iff_exists.mpr ⟨voter, hvotes ▸ List.mem_cons_self, ?_⟩
      simp
    have hle := hreached.2.1
    rw [List.length_append, votesOf_length, List.length_cons, hlength, List.length_nil] at hle
    push_cast at hle
    omega
  refine ⟨hnil, ?_⟩
  rw [hrequired]
  show ((task.currentVotes.length : ℕ) : ℤ) + 3 = 3
  rw [hnil]
  rfl

/-- **What the ballots of a task tell**: everything that decides of consensus on it. -/
theorem SameBallots.plain (h : SameBallots task task') (hplain : Plain task') : Plain task := by
  obtain ⟨hnil, hrequired⟩ := h.currentVotes hplain
  have hfraction (k j : ℕ) (hle : 3 ≤ k + j) :
      task.consensusThreshold ≤ (k : ℚ) / (k + j : ℕ) ↔
        (66 / 100 : ℚ) ≤ (k : ℚ) / (k + j : ℕ) := by
    have hfresh := h.fresh hplain k j (by omega)
    rw [approvals, hnil, hrequired, List.length_nil, List.countP_nil, Nat.zero_add,
      Nat.zero_add] at hfresh
    constructor
    · intro hthreshold
      exact (hfresh.mp ⟨by norm_num, by push_cast; omega, hthreshold⟩).2
    · intro hthreshold
      exact (hfresh.mpr ⟨hle, hthreshold⟩).2.2
  refine ⟨hnil, hrequired, le_antisymm ?_ ?_⟩
  · have hle := (hfraction 33 17 (by norm_num)).mpr (by norm_num)
    exact hle.trans (by norm_num [defaultConsensusThreshold])
  · by_contra hlt
    rw [not_le, defaultConsensusThreshold] at hlt
    -- the threshold is a fraction of some votes, unless nobody has to approve
    obtain hzero | hpos := le_or_gt task.consensusThreshold 0
    · have hle := (hfraction 0 3 le_rfl).mp (by norm_num [hzero])
      norm_num at hle
    · set θ := task.consensusThreshold
      obtain ⟨num, hnum⟩ := Int.eq_ofNat_of_zero_le (Rat.num_nonneg.mpr hpos.le)
      have hden : (0 : ℚ) < θ.den := by exact_mod_cast θ.den_pos
      have hθ : θ = (num : ℚ) / θ.den := by
        conv_lhs => rw [← Rat.num_div_den θ, hnum]
        rfl
      have hle : num ≤ θ.den := by
        have hone : (num : ℚ) / θ.den ≤ 1 := by
          rw [← hθ]
          linarith
        exact_mod_cast (div_le_one hden).mp hone
      have hsum : 3 * num + (3 * θ.den - 3 * num) = 3 * θ.den := by omega
      have hequal : ((3 * num : ℕ) : ℚ) / (3 * num + (3 * θ.den - 3 * num) : ℕ) = θ := by
        rw [hsum]
        conv_rhs => rw [hθ]
        push_cast
        exact mul_div_mul_left _ _ (by norm_num)
      have hreached := (hfraction (3 * num) (3 * θ.den - 3 * num)
        (by have := θ.den_pos; omega)).mp hequal.ge
      rw [hequal] at hreached
      linarith

end DeliberationTask

/-! ## The reload -/

/-- What a queue has to be for a reload to lose nothing that matters: every message is read again,
nobody has voted, and what decides of consensus is what the dataclass defaults to. -/
structure Reloadable (codec : MessageCodec M) (task : DeliberationTask M) : Prop where
  loads : codec.Loads task
  plain : task.Plain

theorem plain_of_reloaded {codec : MessageCodec M} {taskId : String} {task task' : DeliberationTask M}
    (h : codec.reloaded taskId task = some task') : task'.Plain := by
  obtain ⟨message, -, rfl⟩ := Option.map_eq_some_iff.mp h
  exact ⟨rfl, rfl, rfl⟩

theorem alike_of_reloaded {codec : MessageCodec M} {taskId : String} {task task' : DeliberationTask M}
    (hplain : task.Plain) (h : codec.reloaded taskId task = some task') : Alike task task' := by
  obtain ⟨message, -, rfl⟩ := Option.map_eq_some_iff.mp h
  exact ⟨rfl, hplain.currentVotes, hplain.requiredVotes, hplain.consensusThreshold⟩

/-- **A reload loses nothing exactly where there was nothing to lose**: the reloaded queue agrees
with the queue on every series of votes, decisions and updates if and only if every task of the
queue is `Reloadable`. -/
theorem reload_survives_iff (codec : MessageCodec M) (q : DeliberationQueue M) :
    q.Survives codec ↔ ∀ taskId task, q.tasks.get taskId = some task → Reloadable codec task := by
  have hget (hloads : ∀ entry ∈ q.tasks.entries, codec.Loads entry.2) (taskId : String) :
      (q.reload codec).tasks.get taskId =
        (q.tasks.get taskId).bind (codec.reloaded taskId) := by
    have h := MessageCodec.get_loadTasks q.tasks.nodup hloads .empty taskId
    rw [Dict.get_empty, Option.or_none] at h
    exact h
  constructor
  · intro h
    have hloads : ∀ entry ∈ q.tasks.entries, codec.Loads entry.2 := by
      intro entry hentry
      by_contra hnot
      have hnone : (q.reload codec).tasks.get entry.1 = none :=
        MessageCodec.get_loadTasks_of_not_loads q.tasks.nodup hentry hnot rfl
      have hsome : q.tasks.get entry.1 = some entry.2 := Dict.lookup_of_mem q.tasks.nodup hentry
      have hstatus := congrFun (h []) entry.1
      rw [DeliberationQueue.status, DeliberationQueue.status, hsome, hnone] at hstatus
      cases hstatus
    intro taskId task htask
    have hload := hloads (taskId, task) (Dict.mem_entries_of_get htask)
    obtain ⟨task', hreloaded⟩ := MessageCodec.exists_reloaded hload taskId
    have htask' : (q.reload codec).tasks.get taskId = some task' := by
      rw [hget hloads, htask, Option.bind_some, hreloaded]
    refine ⟨hload, DeliberationTask.SameBallots.plain (fun votes hvotes => ?_)
      (plain_of_reloaded hreloaded)⟩
    have hstatus := congrFun (h (ballot taskId votes)).status_eq taskId
    rw [DeliberationQueue.status, DeliberationQueue.status, q.get_performAll_ballot htask,
      (q.reload codec).get_performAll_ballot htask', Option.map_some, Option.map_some,
      Option.some_inj] at hstatus
    rw [Bool.eq_iff_iff, ← task.foldl_cast_status hvotes, ← task'.foldl_cast_status hvotes, hstatus]
  · intro h calls
    have hloads : ∀ entry ∈ q.tasks.entries, codec.Loads entry.2 := fun entry hentry =>
      (h entry.1 entry.2 (Dict.lookup_of_mem q.tasks.nodup hentry)).loads
    refine DeliberationQueue.agree_of_similar (fun taskId => ?_) calls
    rw [hget hloads taskId]
    rcases htask : q.tasks.get taskId with _ | task
    · exact .inl ⟨rfl, rfl⟩
    · obtain ⟨hload, hplain⟩ := h taskId task htask
      obtain ⟨task', hreloaded⟩ := MessageCodec.exists_reloaded hload taskId
      exact .inr ⟨task, task', rfl, hreloaded, alike_of_reloaded hplain hreloaded⟩

/-- The messages of the example: each is written and read as it is. -/
def unitCodec : MessageCodec Unit := ⟨fun _ => .null, fun _ => some ()⟩

/-- A task that waits for five votes is approved by three once it has been reloaded. -/
theorem multi_agent_vote_not_survives :
    ¬ (({} : DeliberationQueue Unit).enqueueForDeliberation "t" () false true none 0).Survives
      unitCodec := by
  intro h
  have hstatus := congrFun (h (["a", "b", "c"].map fun agent =>
    .vote "t" ⟨agent, .approve, "", 1⟩)).status_eq "t"
  revert hstatus
  decide +kernel

end EnhancedAgentBus.Queue
