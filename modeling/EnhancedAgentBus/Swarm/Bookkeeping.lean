import EnhancedAgentBus.Swarm.Coordinator

/-!
# The bookkeeping of the swarm

A task is linked to its agent twice: the task names the agent, and the agent names the task.  Seven
calls write these names, the queue and the states of the agents, and some of them only one side of a
link.

`Linked` is the invariant: a task of the queue is free, a task outside the queue is completed or
names a busy agent that names it, and an agent that is not busy names nothing.  A call keeps it if
it meets the condition `Undisturbed` (`Linked.step`); a call that does not meet it loses a task, or
leaves a completed one in the queue (`Linked.undisturbed`).  So the books of a run are consistent
exactly when all of its calls meet the condition (`consistent_iff_undisturbed`).
-/

namespace EnhancedAgentBus.Swarm

namespace SwarmCoordinator

/-- The task is assigned to a live agent that works on it. -/
def AssignedTo (C : SwarmCoordinator) (t a : String) : Prop :=
  ∃ task agent, C.tasks.get t = some task ∧ task.assignedAgent = some a ∧
    C.agents.get a = some agent ∧ agent.state = .busy ∧ agent.currentTask = some t

def Unfinished (C : SwarmCoordinator) (t : String) : Prop :=
  ∃ task, C.tasks.get t = some task ∧ task.completedAt = none

def Finished (C : SwarmCoordinator) (t : String) : Prop :=
  ∃ task, C.tasks.get t = some task ∧ task.completedAt ≠ none

/-- **The bookkeeping is consistent.** -/
structure Consistent (C : SwarmCoordinator) : Prop where
  /-- an unfinished task waits, once, or one agent works on it -/
  placed : ∀ t, C.Unfinished t → (C.taskQueue.count t = 1 ∧ ∀ a, ¬ C.AssignedTo t a) ∨
    (t ∉ C.taskQueue ∧ ∃! a, C.AssignedTo t a)
  /-- a live agent is busy while it works on an unfinished task -/
  busy : ∀ a agent, C.agents.get a = some agent →
    (agent.state = .busy ↔ ∃ t, C.Unfinished t ∧ C.AssignedTo t a)
  /-- an agent has one task at a time -/
  single : ∀ t t' task task' a, C.tasks.get t = some task → task.completedAt = none →
    C.tasks.get t' = some task' → task'.completedAt = none → task.assignedAgent = some a →
      task'.assignedAgent = some a → t = t'
  /-- a completed task does not wait -/
  completed : ∀ t, C.Finished t → t ∉ C.taskQueue

/-- A completed task stays so, and is not assigned again. -/
def KeepsFinished (C C' : SwarmCoordinator) : Prop :=
  ∀ t task, C.tasks.get t = some task → task.completedAt ≠ none →
    ∃ task', C'.tasks.get t = some task' ∧ task'.completedAt ≠ none ∧
      task'.assignedAgent = task.assignedAgent

structure Linked (C : SwarmCoordinator) : Prop where
  agentIds : ∀ a agent, C.agents.get a = some agent → agent.id = a ∧ a ≠ ""
  taskIds : ∀ t task, C.tasks.get t = some task → task.id = t ∧ t ≠ ""
  nodup : C.taskQueue.Nodup
  queued : ∀ t ∈ C.taskQueue, ∃ task, C.tasks.get t = some task ∧ task.completedAt = none ∧
    task.assignedAgent = none
  working : ∀ t task, C.tasks.get t = some task → task.completedAt = none → t ∉ C.taskQueue →
    ∃ a agent, task.assignedAgent = some a ∧ C.agents.get a = some agent ∧ agent.state = .busy ∧
      agent.currentTask = some t
  agents : ∀ a agent, C.agents.get a = some agent →
    (agent.state = .ready ∧ agent.currentTask = none) ∨
      agent.state = .busy ∧ ∃ t task, agent.currentTask = some t ∧ C.tasks.get t = some task ∧
        task.completedAt = none ∧ task.assignedAgent = some a

variable {C : SwarmCoordinator}

theorem Linked.consistent (h : Linked C) : Consistent C := by
  obtain ⟨agentIds, taskIds, nodup, queued, working, agents⟩ := h
  refine ⟨?_, ?_, ?_, ?_⟩
  · rintro t ⟨task, htask, hopen⟩
    by_cases hqueue : t ∈ C.taskQueue
    · left
      refine ⟨List.count_eq_one_of_mem nodup hqueue, ?_⟩
      rintro a ⟨task', agent, htask', hassigned, -⟩
      grind
    · right
      obtain ⟨a, agent, hassigned, hagent, hbusy, hcurrent⟩ := working t task htask hopen hqueue
      refine ⟨hqueue, a, ⟨task, agent, htask, hassigned, hagent, hbusy, hcurrent⟩, ?_⟩
      rintro a' ⟨task', agent', htask', hassigned', -⟩
      grind
  · intro a agent hagent
    constructor
    · intro hbusy
      obtain ⟨hready, -⟩ | ⟨-, t, task, hcurrent, htask, hopen, hassigned⟩ := agents a agent hagent
      · exact absurd (hready.symm.trans hbusy) (by decide)
      · exact ⟨t, ⟨task, htask, hopen⟩, task, agent, htask, hassigned, hagent, hbusy, hcurrent⟩
    · rintro ⟨t, -, task, agent', -, -, hagent', hbusy, -⟩
      grind
  · -- the agent's current task is both of them
    intro t t' task task' a htask hopen htask' hopen' hassigned hassigned'
    have hqueue : t ∉ C.taskQueue := by grind
    have hqueue' : t' ∉ C.taskQueue := by grind
    obtain ⟨a₁, agent₁, h₁⟩ := working t task htask hopen hqueue
    obtain ⟨a₂, agent₂, h₂⟩ := working t' task' htask' hopen' hqueue'
    grind
  · rintro t ⟨task, htask, hdone⟩ hqueue
    grind

/-! ## What the calls keep -/

theorem Linked.spawn (h : Linked C) (agent : SwarmAgent) (hnew : C.agents.get agent.id = none)
    (hid : agent.id ≠ "") (hready : agent.state = .ready) (hidle : agent.currentTask = none) :
    Linked { C with agents := C.agents.set agent.id agent } := by
  obtain ⟨agentIds, taskIds, nodup, queued, working, agents⟩ := h
  constructor <;> simp only [Dict.get_set] <;> grind

variable {a : String} {agent : SwarmAgent} {task : SwarmTask} {t : String}

theorem Linked.setIdle (h : Linked C) {agent' : SwarmAgent} (hagent : C.agents.get a = some agent)
    (hbusy : agent.state ≠ .busy) (hid : agent'.id = agent.id) (hready : agent'.state = .ready)
    (hidle : agent'.currentTask = none) : Linked { C with agents := C.agents.set a agent' } := by
  obtain ⟨agentIds, taskIds, nodup, queued, working, agents⟩ := h
  constructor <;> simp only [Dict.get_set] <;> grind

theorem Linked.erase (h : Linked C)
    (hidle : ∀ agent, C.agents.get a = some agent → agent.state ≠ .busy) :
    Linked { C with agents := C.agents.erase a } := by
  obtain ⟨agentIds, taskIds, nodup, queued, working, agents⟩ := h
  constructor <;> simp only [Dict.get_erase] <;> grind

theorem Linked.store (h : Linked C) (hnew : C.tasks.get task.id = none) (hid : task.id ≠ "")
    (hopen : task.completedAt = none) (hfree : task.assignedAgent = none) :
    Linked (C.store task) := by
  obtain ⟨agentIds, taskIds, nodup, queued, working, agents⟩ := h
  have hqueue : task.id ∉ C.taskQueue := by
    intro hmem
    obtain ⟨task', htask', -⟩ := queued _ hmem
    exact absurd (hnew.symm.trans htask') (by simp)
  constructor <;> simp only [SwarmCoordinator.store, Dict.get_set] <;> grind

theorem Linked.rotate (h : Linked C) {rest : List String} (hqueue : C.taskQueue = t :: rest) :
    Linked ({ C with taskQueue := rest }.put t) := by
  obtain ⟨agentIds, taskIds, nodup, queued, working, agents⟩ := h
  constructor <;> simp only [put] <;> grind

theorem Linked.assign (h : Linked C) {rest : List String} (hqueue : C.taskQueue = t :: rest)
    (htask : C.tasks.get t = some task) (hagent : C.agents.get agent.id = some agent)
    (hready : agent.state = .ready) (now : Seconds) :
    Linked ({ C with taskQueue := rest }.assign t task agent now) := by
  obtain ⟨agentIds, taskIds, nodup, queued, working, agents⟩ := h
  constructor <;> simp only [SwarmCoordinator.assign, Dict.get_set] <;> grind

theorem Linked.report (h : Linked C) {task' : SwarmTask} {agent' : SwarmAgent}
    (htask : C.tasks.get t = some task) (hassigned : task.assignedAgent = some a)
    (hagent : C.agents.get a = some agent) (hcurrent : agent.currentTask = some t)
    (htask' : task'.id = task.id) (hdone : task'.completedAt ≠ none)
    (hagent' : agent'.id = agent.id) (hready : agent'.state = .ready)
    (hidle : agent'.currentTask = none) :
    Linked { C with tasks := C.tasks.set t task', agents := C.agents.set a agent' } := by
  obtain ⟨agentIds, taskIds, nodup, queued, working, agents⟩ := h
  constructor <;> simp only [Dict.get_set] <;> grind

theorem Linked.reportAgain (h : Linked C) (task' : SwarmTask) (htask : C.tasks.get t = some task)
    (hdone : task.completedAt ≠ none) (htask' : task'.id = task.id)
    (hdone' : task'.completedAt ≠ none) : Linked { C with tasks := C.tasks.set t task' } := by
  obtain ⟨agentIds, taskIds, nodup, queued, working, agents⟩ := h
  constructor <;> simp only [Dict.get_set] <;> grind

theorem Linked.restartTask (h : Linked C) {task' : SwarmTask} {agent' : SwarmAgent}
    (hagent : C.agents.get a = some agent) (hcurrent : agent.currentTask = some t)
    (htask : C.tasks.get t = some task) (htask' : task'.id = task.id)
    (hopen : task'.completedAt = task.completedAt) (hfree : task'.assignedAgent = none)
    (hagent' : agent'.id = agent.id) (hready : agent'.state = .ready)
    (hidle : agent'.currentTask = none) :
    Linked { C with
      tasks := C.tasks.set t task'
      taskQueue := C.taskQueue ++ [t]
      agents := C.agents.set a agent' } := by
  obtain ⟨agentIds, taskIds, nodup, queued, working, agents⟩ := h
  constructor <;> simp only [Dict.get_set] <;> grind

/-! ## Completed tasks -/

theorem KeepsFinished.of_tasks {C' : SwarmCoordinator} (h : C'.tasks = C.tasks) :
    KeepsFinished C C' := by
  intro t task htask hdone
  exact ⟨task, h ▸ htask, hdone, rfl⟩

theorem KeepsFinished.trans {C' C'' : SwarmCoordinator} (h : KeepsFinished C C')
    (h' : KeepsFinished C' C'') : KeepsFinished C C'' := by
  intro t task htask hdone
  obtain ⟨task', htask', hdone', hassigned'⟩ := h t task htask hdone
  obtain ⟨task'', htask'', hdone'', hassigned''⟩ := h' t task' htask' hdone'
  exact ⟨task'', htask'', hdone'', hassigned''.trans hassigned'⟩

theorem KeepsFinished.set {C' : SwarmCoordinator} {task' : SwarmTask}
    (h : C'.tasks = C.tasks.set t task')
    (hkeeps : ∀ task, C.tasks.get t = some task → task.completedAt ≠ none → task'.completedAt ≠ none ∧ task'.assignedAgent = task.assignedAgent)
    : KeepsFinished C C' := by
  intro t' task htask hdone
  rw [h, Dict.get_set]
  split
  · next heq => exact ⟨task', rfl, hkeeps task (heq ▸ htask) hdone⟩
  · exact ⟨task, htask, hdone, rfl⟩

/-! ## Assigning -/

theorem findBestAgent_ready (h : Linked C)
    (hfound : CapabilityMatcher.findBestAgent task C.agents.values = some agent) :
    C.agents.get agent.id = some agent ∧ agent.state = .ready := by
  have hmem := List.argmax_mem hfound
  rw [List.mem_filter, List.mem_filter] at hmem
  obtain ⟨a, ha⟩ := Dict.exists_get_of_mem_values hmem.1.1
  exact ⟨(h.agentIds a agent ha).1.symm ▸ ha, of_decide_eq_true hmem.1.2⟩

/-- **The loop of `assign_tasks`**, by induction on the iterations it has left. -/
theorem Linked.assignLoop (clock : ℕ → Seconds) (iterations : ℕ) (seenTasks : List String)
    (assigned : ℕ) (h : Linked C) :
    Linked (assignLoop clock iterations seenTasks assigned C).2 ∧
      KeepsFinished C (assignLoop clock iterations seenTasks assigned C).2 := by
  induction iterations generalizing seenTasks assigned C with
  | zero => exact ⟨h, .of_tasks rfl⟩
  | succ iterations ih =>
    rw [SwarmCoordinator.assignLoop]
    split
    · exact ⟨h, .of_tasks rfl⟩
    · rename_i t rest hqueue
      have hrotate := h.rotate hqueue
      split
      · exact ⟨h, .of_tasks rfl⟩
      · rename_i task htask
        simp only
        split
        · exact ⟨hrotate, .of_tasks rfl⟩
        · split
          · have hloop := ih (t :: seenTasks) assigned hrotate
            exact ⟨hloop.1, (KeepsFinished.of_tasks rfl).trans hloop.2⟩
          · split
            · rename_i agent hfound
              obtain ⟨hagent, hready⟩ := findBestAgent_ready h hfound
              have hloop := ih seenTasks (assigned + 1)
                (h.assign hqueue htask hagent hready (clock assigned))
              refine ⟨hloop.1, KeepsFinished.trans (.set rfl ?_) hloop.2⟩
              -- a task of the queue is not completed
              obtain ⟨task', htask', hopen, -⟩ := h.queued t (hqueue ▸ List.mem_cons_self ..)
              obtain rfl := Option.some_inj.mp (htask'.symm.trans htask)
              intro task'' htask'' hdone
              obtain rfl := Option.some_inj.mp (htask''.symm.trans htask)
              exact absurd hopen hdone
            · exact ⟨hrotate, .of_tasks rfl⟩

/-! ## One call -/

/-- The identifiers that `uuid4` draws are new, and not empty. -/
def Fresh (C : SwarmCoordinator) : SwarmCall → Prop
  | .spawn _ _ uuid _ => uuid ≠ "" ∧ C.agents.get uuid = none
  | .submit _ _ _ _ _ uuid => uuid ≠ "" ∧ ∀ part, C.tasks.get (uuid ++ part) = none
  | _ => True

def Idle (C : SwarmCoordinator) (a : String) : Prop :=
  ∀ agent, C.agents.get a = some agent → agent.state ≠ .busy

/-- **The condition on a call**: no busy agent is terminated or restarted, no waiting task is
completed, and no completed task again while its agent is busy. -/
def Undisturbed (C : SwarmCoordinator) : SwarmCall → Prop
  | .terminate a => C.Idle a
  | .complete t _ _ _ => ∀ task, C.tasks.get t = some task →
      (task.completedAt = none → t ∉ C.taskQueue) ∧
        (task.completedAt ≠ none → ∀ a, task.assignedAgent = some a → C.Idle a)
  | .heal a action => action = some "terminate" ∨ action = some "restart" → C.Idle a
  | _ => True

theorem Linked.storeAll {tasks : List SwarmTask} (h : Linked C)
    (hnodup : (tasks.map SwarmTask.id).Nodup)
    (hnew : ∀ task ∈ tasks, C.tasks.get task.id = none ∧ task.id ≠ "" ∧
      task.completedAt = none ∧ task.assignedAgent = none) :
    Linked (tasks.foldl SwarmCoordinator.store C) ∧
      KeepsFinished C (tasks.foldl SwarmCoordinator.store C) := by
  induction tasks generalizing C with
  | nil => exact ⟨h, .of_tasks rfl⟩
  | cons task tasks ih =>
    obtain ⟨hget, hid, hopen, hfree⟩ := hnew task (List.mem_cons_self ..)
    rw [List.map_cons, List.nodup_cons] at hnodup
    have hrest := ih (h.store hget hid hopen hfree) hnodup.2 fun task' hmem => by
      obtain ⟨hget', hrest'⟩ := hnew task' (List.mem_cons_of_mem _ hmem)
      refine ⟨?_, hrest'⟩
      rw [SwarmCoordinator.store, Dict.get_set, if_neg, hget']
      exact fun heq => hnodup.1 (heq ▸ List.mem_map_of_mem hmem)
    refine ⟨hrest.1, KeepsFinished.trans (.set rfl fun task' htask' _ => ?_) hrest.2⟩
    exact absurd (hget.symm.trans htask') (by simp)

theorem Linked.submit (h : Linked C) {description : String} {requiredCapabilities : List String}
    {priority : TaskPriority} {dependencies : List String} {decompose : Bool} {uuid : String}
    (hfresh : Fresh C (.submit description requiredCapabilities priority dependencies decompose uuid)) :
    let C' := (C.submitTask description requiredCapabilities priority dependencies decompose uuid).2
    Linked C' ∧ KeepsFinished C C' := by
  obtain ⟨huuid, hnew⟩ := hfresh
  simp only [submitTask]
  split
  · exact ⟨h, .of_tasks rfl⟩
  · have hparts := prepared_parts
      { id := uuid, description := description, requiredCapabilities := requiredCapabilities,
        priority := priority, dependencies := dependencies } decompose rfl rfl
    refine h.storeAll hparts.nodup fun task hmem => ?_
    obtain ⟨parts, -, hids⟩ := hparts.ids
    have hid := hids ▸ List.mem_map_of_mem (f := SwarmTask.id) hmem
    obtain ⟨part, -, hid⟩ := List.mem_map.mp hid
    refine ⟨hid ▸ hnew part, fun hempty => ?_, hparts.new task hmem⟩
    rw [← hid] at hempty
    exact huuid (String.append_eq_empty_iff.mp hempty).1

theorem Linked.complete (h : Linked C) {result : Json} {error : Option String} {now : Seconds}
    (hcond : Undisturbed C (.complete t result error now)) :
    Linked (C.completeTask t result error now).2 ∧
      KeepsFinished C (C.completeTask t result error now).2 := by
  unfold completeTask
  rcases htask : C.tasks.get t with _ | task
  · exact ⟨h, .of_tasks rfl⟩
  · obtain ⟨hopen, hdone⟩ := hcond task htask
    have hkeeps : ∀ task', C.tasks.get t = some task' → task'.completedAt ≠ none →
        some now ≠ none ∧ task.assignedAgent = task'.assignedAgent := by
      intro task' htask' _
      obtain rfl := Option.some_inj.mp (htask'.symm.trans htask)
      exact ⟨by simp, rfl⟩
    simp only [release]
    by_cases hcompleted : task.completedAt = none
    · -- the agent of the task is working on it
      obtain ⟨a, agent, hassigned, hagent, hbusy, hcurrent⟩ :=
        h.working t task htask hcompleted (hopen hcompleted)
      obtain ⟨-, ha⟩ := h.agentIds a agent hagent
      simp only [hassigned, Option.filter_some, ha, ne_eq, not_false_eq_true, decide_true, if_true,
        hagent]
      exact ⟨h.report htask hassigned hagent hcurrent rfl (by simp) rfl rfl rfl,
        .set rfl fun task' htask' hdone' =>
          ⟨by simp, hassigned.symm.trans (hkeeps task' htask' hdone').2⟩⟩
    · have hagain := h.reportAgain
        { task with completedAt := some now, result := result, error := error } htask hcompleted
          rfl (by simp)
      split
      · exact ⟨hagain, .set rfl hkeeps⟩
      · rename_i a ha
        split
        · exact ⟨hagain, .set rfl hkeeps⟩
        · rename_i agent hagent
          have hassigned := (Option.filter_eq_some_iff.mp ha).1
          exact ⟨hagain.setIdle hagent (hdone hcompleted a hassigned agent hagent) rfl rfl rfl,
            .set rfl hkeeps⟩

theorem Linked.heal (h : Linked C) {action : Option String}
    (hcond : Undisturbed C (.heal a action)) :
    Linked (C.performSelfHealing a action).2 ∧
      KeepsFinished C (C.performSelfHealing a action).2 := by
  unfold performSelfHealing
  rcases hagent : C.agents.get a with _ | agent
  · exact ⟨h, .of_tasks rfl⟩
  · simp only [terminateAgent, hagent]
    split_ifs with hterminate hrestart hrestartTask
    · exact ⟨h.erase (hcond (.inl hterminate)), .of_tasks rfl⟩
    · exact ⟨h.setIdle hagent (hcond (.inr hrestart) agent hagent) rfl rfl rfl, .of_tasks rfl⟩
    · unfold requeue
      obtain ⟨hready, hidle⟩ | ⟨hbusy, t, task, hcurrent, htask, hopen, hassigned⟩ :=
        h.agents a agent hagent
      · simp only [hidle, Option.filter_none]
        exact ⟨h.setIdle hagent (by simp [hready]) rfl rfl rfl, .of_tasks rfl⟩
      · obtain ⟨-, ht⟩ := h.taskIds t task htask
        simp only [hcurrent, Option.filter_some, ht, ne_eq, not_false_eq_true, decide_true, if_true,
          htask]
        refine ⟨h.restartTask hagent hcurrent htask rfl rfl rfl rfl rfl rfl, .set rfl ?_⟩
        intro task' htask' hdone
        obtain rfl := Option.some_inj.mp (htask'.symm.trans htask)
        exact absurd hopen hdone
    · exact ⟨h, .of_tasks rfl⟩

/-- **One call** that meets the condition keeps the links. -/
theorem Linked.step (h : Linked C) {e : SwarmCall} (hfresh : Fresh C e) (hcond : Undisturbed C e) :
    Linked (C.step e) ∧ KeepsFinished C (C.step e) := by
  cases e with
  | spawn name capabilities uuid now =>
    simp only [SwarmCoordinator.step, spawnAgent]
    split_ifs
    · exact ⟨h, .of_tasks rfl⟩
    · exact ⟨h, .of_tasks rfl⟩
    · exact ⟨h, .of_tasks rfl⟩
    · exact ⟨h, .of_tasks rfl⟩
    · exact ⟨h.spawn ⟨uuid, _, _, _, _, _, _, _, _⟩ hfresh.2 hfresh.1 rfl rfl,
        .of_tasks rfl⟩
  | terminate a =>
    simp only [SwarmCoordinator.step, terminateAgent]
    split
    · exact ⟨h, .of_tasks rfl⟩
    · exact ⟨h.erase hcond, .of_tasks rfl⟩
  | submit => exact h.submit hfresh
  | assign clock => exact h.assignLoop clock maxAssignIterations [] 0
  | complete => exact h.complete hcond
  | checkHealth => exact ⟨h, .of_tasks rfl⟩
  | heal => exact h.heal hcond

/-! ## The condition is exact -/

theorem Consistent.not_idle (h : Consistent C) (htask : C.tasks.get t = some task)
    (hopen : task.completedAt = none) (hqueue : t ∉ C.taskQueue)
    (hassigned : task.assignedAgent = some a) : ¬ C.Idle a := by
  intro hidle
  obtain ⟨hcount, -⟩ | ⟨-, a', ⟨task', agent, htask', hassigned', hagent, hbusy, -⟩, -⟩ :=
    h.placed t ⟨task, htask, hopen⟩
  · exact hqueue (List.count_pos_iff.mp (by omega))
  · obtain rfl := Option.some_inj.mp (htask'.symm.trans htask)
    obtain rfl := Option.some_inj.mp (hassigned'.symm.trans hassigned)
    exact hidle agent hagent hbusy

theorem Linked.task_of_busy (h : Linked C) (hagent : C.agents.get a = some agent)
    (hbusy : agent.state = .busy) :
    ∃ t task, C.tasks.get t = some task ∧ task.completedAt = none ∧ task.assignedAgent = some a ∧
      t ∉ C.taskQueue := by
  obtain ⟨hready, -⟩ | ⟨-, t, task, -, htask, hopen, hassigned⟩ := h.agents a agent hagent
  · exact absurd (hready.symm.trans hbusy) (by decide)
  · refine ⟨t, task, htask, hopen, hassigned, fun hqueue => ?_⟩
    obtain ⟨task', htask', -, hfree⟩ := h.queued t hqueue
    obtain rfl := Option.some_inj.mp (htask'.symm.trans htask)
    exact absurd (hfree.symm.trans hassigned) (by simp)

/-- **A call that does not meet the condition leaves inconsistent books.** -/
theorem Linked.undisturbed (h : Linked C) {e : SwarmCall} (hstep : Consistent (C.step e)) :
    Undisturbed C e := by
  cases e with
  | terminate a =>
    intro agent hagent hbusy
    obtain ⟨t, task, htask, hopen, hassigned, hqueue⟩ := h.task_of_busy hagent hbusy
    simp only [SwarmCoordinator.step, terminateAgent, hagent] at hstep
    refine hstep.not_idle htask hopen hqueue hassigned fun agent' hagent' => ?_
    simp at hagent'
  | complete t result error now =>
    intro task htask
    simp only [SwarmCoordinator.step, completeTask, htask] at hstep
    refine ⟨fun hopen hqueue => ?_, fun hdone a hassigned agent hagent hbusy => ?_⟩
    · have hafter := hstep.completed t
      simp only [Finished, release_tasks, release_taskQueue, Dict.get_set, if_true] at hafter
      exact hafter ⟨_, rfl, by simp⟩ hqueue
    · obtain ⟨t', task', htask', hopen', hassigned', hqueue'⟩ := h.task_of_busy hagent hbusy
      obtain ⟨-, ha⟩ := h.agentIds a agent hagent
      simp only [release, hassigned, Option.filter_some, ha, ne_eq, not_false_eq_true, decide_true,
        if_true, hagent] at hstep
      have hne : t' ≠ t := by
        rintro rfl
        obtain rfl := Option.some_inj.mp (htask'.symm.trans htask)
        exact hdone hopen'
      refine hstep.not_idle (t := t') ?_ hopen' hqueue' hassigned' ?_
      · simp [hne, htask']
      · intro agent' hagent'
        simp only [Dict.get_set, if_true, Option.some_inj] at hagent'
        rw [← hagent']
        simp [released]
  | heal a action =>
    intro haction agent hagent hbusy
    obtain ⟨t, task, htask, hopen, hassigned, hqueue⟩ := h.task_of_busy hagent hbusy
    simp only [SwarmCoordinator.step, performSelfHealing, hagent, terminateAgent] at hstep
    rcases haction with rfl | rfl
    · refine hstep.not_idle htask hopen hqueue hassigned fun agent' hagent' => ?_
      simp at hagent'
    · refine hstep.not_idle htask hopen hqueue hassigned fun agent' hagent' => ?_
      simp at hagent'
      simp [← hagent']
  | spawn | submit | assign | checkHealth => trivial

/-! ## Runs -/

/-- A coordinator that has been created with a number of agents at most. -/
def created (maxAgents : ℕ) : SwarmCoordinator := { maxAgents := maxAgents }

theorem created_linked (maxAgents : ℕ) : Linked (created maxAgents) := by
  constructor <;> simp [created]

/-- **The books are consistent after every call of a run exactly when every call meets the
condition.** -/
theorem consistent_iff_undisturbed (maxAgents : ℕ) (es : List SwarmCall)
    (hfresh : Machine.Along step Fresh (created maxAgents) es) :
    Machine.Along step (fun C e => Consistent (C.step e) ∧ KeepsFinished C (C.step e))
      (created maxAgents) es ↔ Machine.Along step Undisturbed (created maxAgents) es := by
  have hinit := created_linked maxAgents
  generalize created maxAgents = C at hfresh hinit
  induction es generalizing C with
  | nil => rfl
  | cons e es ih =>
    constructor
    · rintro ⟨⟨hconsistent, -⟩, hrest⟩
      have hcond := hinit.undisturbed hconsistent
      exact ⟨hcond, (ih _ hfresh.2 (hinit.step hfresh.1 hcond).1).mp hrest⟩
    · rintro ⟨hcond, hrest⟩
      have hlinked := hinit.step hfresh.1 hcond
      exact ⟨⟨hlinked.1.consistent, hlinked.2⟩, (ih _ hfresh.2 hlinked.1).mpr hrest⟩

/-! ## An agent that is terminated at work -/

/-- An agent is spawned, gets a task, and reports or is terminated. -/
def atWork (last : SwarmCall) : List SwarmCall :=
  [.spawn "ann" [{ name := "coding" }] "a" 0, .submit "fix it" ["coding"] .normal [] false "t",
    .assign fun _ => 1, last]

theorem atWork_fresh (last : SwarmCall) (h : ∀ C, Fresh C last) :
    Machine.Along step Fresh (created 8) (atWork last) :=
  ⟨⟨by decide, rfl⟩, ⟨by decide, fun _ => rfl⟩, trivial, h _, trivial⟩

def working : SwarmCoordinator := Machine.run step (created 8) ((atWork (.terminate "a")).take 3)

theorem working_task : ∃ task, working.tasks.get "t" = some task ∧ task.completedAt = none ∧
    task.assignedAgent = some "a" := by
  have h : (working.tasks.get "t").map (fun task => (task.completedAt, task.assignedAgent)) =
      some (none, some "a") := by
    decide +kernel
  obtain ⟨task, htask, heq⟩ := Option.map_eq_some_iff.mp h
  exact ⟨task, htask, congrArg Prod.fst heq, congrArg Prod.snd heq⟩

theorem working_taskQueue : working.taskQueue = [] := by
  decide +kernel

/-- The task of an agent that is terminated at work is lost. -/
theorem terminated_at_work_loses :
    Machine.Along step Fresh (created 8) (atWork (.terminate "a")) ∧
      ¬ Machine.Along step (fun C e => Consistent (C.step e) ∧ KeepsFinished C (C.step e))
        (created 8) (atWork (.terminate "a")) := by
  refine ⟨atWork_fresh _ fun _ => trivial, fun h => ?_⟩
  have hlast : Consistent (working.step (.terminate "a")) := h.2.2.2.1.1
  obtain ⟨task, htask, hopen, hassigned⟩ := working_task
  have hagent : (working.agents.get "a").isSome = true := by
    decide +kernel
  obtain ⟨agent, hagent⟩ := Option.isSome_iff_exists.mp hagent
  simp only [step, terminateAgent, hagent] at hlast
  refine hlast.not_idle htask hopen ?_ hassigned fun agent' hagent' => ?_
  · simp [working_taskQueue]
  · simp at hagent'

theorem reported_consistent :
    Machine.Along step (fun C e => Consistent (C.step e) ∧ KeepsFinished C (C.step e))
      (created 8) (atWork (.complete "t" .null none 2)) := by
  refine (consistent_iff_undisturbed 8 _
    (atWork_fresh (.complete "t" .null none 2) fun _ => trivial)).mpr ⟨trivial, trivial, trivial, ?_, trivial⟩
  show Undisturbed working (.complete "t" .null none 2)
  intro task htask
  obtain ⟨task', htask', hopen, -⟩ := working_task
  obtain rfl := Option.some_inj.mp (htask'.symm.trans htask)
  refine ⟨fun _ => ?_, fun hdone => absurd hopen hdone⟩
  simp [working_taskQueue]

end SwarmCoordinator

end EnhancedAgentBus.Swarm
