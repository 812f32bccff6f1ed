import EnhancedAgentBus.Swarm.Dependencies

/-!
# Whether `assign_tasks` leaves work behind

The loop passes over tasks that wait for others, and stops at the first task that no agent matches,
so that those behind it are not looked at.  `WorkConserving` asks that none of them could have been
given to an agent, and `workConserving_iff` says for which queues that is so.
-/

namespace EnhancedAgentBus.Swarm

open CapabilityMatcher

namespace SwarmCoordinator

/-- The queue holds tasks of the table, each once, and agents are filed under their identifiers. -/
structure Queued (C : SwarmCoordinator) : Prop where
  nodup : C.taskQueue.Nodup
  stored : ∀ t ∈ C.taskQueue, ∃ task, C.tasks.get t = some task
  filed : ∀ e ∈ C.agents.entries, e.2.id = e.1

/-- The tasks among these whose dependencies are satisfied. -/
def runnable (C : SwarmCoordinator) (queue : List String) : List SwarmTask :=
  queue.filterMap fun t => (C.tasks.get t).filter fun task => C.dependenciesSatisfied task

/-- No task of the queue that could be given to an agent is left. -/
def NothingLeft (C : SwarmCoordinator) : Prop :=
  ∀ task ∈ C.runnable C.taskQueue, findBestAgent task C.agents.values = none

/-- A call left nothing, and lost no task of the queue. -/
structure WorkConserving (C C' : SwarmCoordinator) : Prop where
  nothingLeft : NothingLeft C'
  kept : ∀ t ∈ C.taskQueue, C'.taskQueue.count t = 1 ∨
    ∃ task, C'.tasks.get t = some task ∧ task.assignedAgent.isSome

/-- The tasks take their best agents in turn, and the first one that finds none is followed only by
tasks that find none. -/
def ServedInOrder : List SwarmAgent → List SwarmTask → Prop
  | _, [] => True
  | agents, task :: tasks =>
    match findBestAgent task agents with
    | some agent => ServedInOrder (agents.filter fun a => a.id ≠ agent.id) tasks
    | none => ∀ other ∈ tasks, findBestAgent other agents = none

theorem servedInOrder_of_length_le_one (agents : List SwarmAgent) {tasks : List SwarmTask}
    (h : tasks.length ≤ 1) : ServedInOrder agents tasks := by
  obtain _ | ⟨task, _ | ⟨other, tasks⟩⟩ := tasks
  · trivial
  · rw [ServedInOrder]
    split
    · trivial
    · exact List.forall_mem_nil _
  · simp at h

/-! ## The agents that are left -/

def readyOf (agents : List SwarmAgent) : List SwarmAgent := agents.filter fun a => a.state = .ready

variable {agents : List SwarmAgent} {pending : List String} {t : String} {task : SwarmTask}

theorem findBestAgent_congr {agents' : List SwarmAgent} (h : readyOf agents = readyOf agents')
    (task : SwarmTask) : findBestAgent task agents = findBestAgent task agents' := by
  unfold readyOf at h
  simp only [findBestAgent, h]

theorem readyOf_assign {k : String} {busy : SwarmAgent} (hbusy : busy.state ≠ .ready)
    {l : List (String × SwarmAgent)} (hnodup : (l.map Prod.fst).Nodup)
    (hfiled : ∀ e ∈ l, e.2.id = e.1) :
    readyOf ((Dict.assign k busy l).map Prod.snd) =
      (readyOf (l.map Prod.snd)).filter fun a => a.id ≠ k := by
  unfold readyOf
  induction l with
  | nil => simp [Dict.assign, hbusy]
  | cons e rest ih =>
    obtain ⟨hfirst, hrest⟩ := List.nodup_cons.mp hnodup
    have hid := hfiled e List.mem_cons_self
    have hfiled' : ∀ e ∈ rest, e.2.id = e.1 := fun e he => hfiled e (List.mem_cons_of_mem _ he)
    rw [Dict.assign]
    split
    · rename_i hk
      -- nobody else has the identifier
      have hothers : ((rest.map Prod.snd).filter fun a => a.state = .ready).filter
          (fun a => a.id ≠ k) = (rest.map Prod.snd).filter fun a => a.state = .ready := by
        refine List.filter_eq_self.mpr fun a ha => ?_
        obtain ⟨e', he', rfl⟩ := List.mem_map.mp (List.mem_filter.mp ha).1
        rw [decide_eq_true_eq, hfiled' e' he']
        rintro rfl
        exact hfirst (hk ▸ List.mem_map_of_mem he')
      by_cases hready : e.2.state = .ready <;> simp [hbusy, hready, hid, hk] <;>
        simpa using hothers.symm
    · rename_i hk
      have hne : e.2.id ≠ k := hid ▸ hk
      have hih := ih hrest hfiled'
      by_cases hready : e.2.state = .ready <;> simp_all

/-! ## The loop -/

variable {C C' : SwarmCoordinator}

theorem runnable_congr (hsame : SameProgress C C') {queue : List String}
    (htasks : ∀ t ∈ queue, C'.tasks.get t = C.tasks.get t) :
    C'.runnable queue = C.runnable queue := by
  refine List.filterMap_congr fun t ht => ?_
  have hget := htasks t ht
  rcases htask : C.tasks.get t with _ | task
  · rw [hget, htask]
    rfl
  · rw [hget, htask]
    simp only [Option.filter, hsame.dependenciesSatisfied htask (hget.trans htask)]

/-- What the loop leaves of a queue whose first tasks have not been looked at. -/
structure Served (C : SwarmCoordinator) (agents : List SwarmAgent) (pending : List String)
    (C' : SwarmCoordinator) : Prop where
  kept : ∀ t ∈ C.taskQueue, C'.taskQueue.count t = 1 ∨
    ∃ task, C'.tasks.get t = some task ∧ task.assignedAgent.isSome
  others : ∀ t, t ∉ C.taskQueue → C'.tasks.get t = C.tasks.get t
  left : NothingLeft C' ↔ ServedInOrder agents (C.runnable pending)

theorem served_of_perm (hqueued : C.Queued) (hqueue : C'.taskQueue.Perm C.taskQueue)
    (htasks : C'.tasks = C.tasks)
    (hleft : NothingLeft C' ↔ ServedInOrder agents (C.runnable pending)) :
    Served C agents pending C' where
  kept t ht := .inl (by rw [hqueue.count_eq, List.count_eq_one_of_mem hqueued.nodup ht])
  others t _ := by rw [htasks]
  left := hleft

theorem runnable_perm {queue queue' : List String} (h : queue.Perm queue') :
    (C.runnable queue).Perm (C.runnable queue') := h.filterMap _

theorem runnable_append (C : SwarmCoordinator) (queue queue' : List String) :
    C.runnable (queue ++ queue') = C.runnable queue ++ C.runnable queue' := List.filterMap_append

theorem runnable_singleton (htask : C.tasks.get t = some task) :
    C.runnable [t] = if C.dependenciesSatisfied task then [task] else [] := by
  split
  · next hsatisfied => simp [runnable, htask, Option.filter, hsatisfied]
  · next hsatisfied => simp [runnable, htask, Option.filter, hsatisfied]

theorem sameProgress_assign (htask : C.tasks.get t = some task) (rest : List String)
    (agent : SwarmAgent) (now : Seconds) :
    SameProgress C ({ C with taskQueue := rest }.assign t task agent now) := by
  intro t'
  simp only [assign, Dict.get_set]
  split
  · next heq => simp [heq, htask]
  · rfl

theorem Queued.of_perm (hqueued : C.Queued) (hqueue : C'.taskQueue.Perm C.taskQueue)
    (htasks : C'.tasks = C.tasks) (hagents : C'.agents = C.agents) : C'.Queued where
  nodup := hqueue.nodup_iff.mpr hqueued.nodup
  stored t ht := htasks ▸ hqueued.stored t (hqueue.subset ht)
  filed := hagents ▸ hqueued.filed

theorem Queued.assign (hqueued : C.Queued) {rest : List String} (hqueue : C.taskQueue = t :: rest)
    {agent : SwarmAgent} (now : Seconds) :
    Queued ({ C with taskQueue := rest }.assign t task agent now) where
  nodup := (List.nodup_cons.mp (hqueue ▸ hqueued.nodup)).2
  stored t' ht' := by
    simp only [SwarmCoordinator.assign, Dict.get_set]
    split
    · exact ⟨_, rfl⟩
    · exact hqueued.stored t' (hqueue ▸ List.mem_cons_of_mem _ ht')
  filed e he := by
    have hget := Dict.get_eq_some_iff.mpr he
    simp only [SwarmCoordinator.assign, Dict.get_set] at hget
    split at hget
    · next hid => rw [hid, ← Option.some_inj.mp hget]
    · exact hqueued.filed e (Dict.get_eq_some_iff.mp hget)

theorem Served.of_blocked {rest : List String} (hqueue : C.taskQueue = t :: rest)
    (hnone : C.runnable [t] = [])
    (h : Served ({ C with taskQueue := rest }.put t) agents pending C') :
    Served C agents (t :: pending) C' := by
  have hmem : ∀ t', t' ∈ C.taskQueue ↔ t' ∈ rest ++ [t] := by simp [hqueue, or_comm]
  refine ⟨fun t' ht' => h.kept t' ((hmem t').mp ht'),
    fun t' ht' => h.others t' fun h' => ht' ((hmem t').mpr h'), h.left.trans ?_⟩
  rw [← List.singleton_append, runnable_append, hnone]
  exact Iff.rfl

theorem Served.of_assign (hqueued : C.Queued) {rest : List String}
    (hqueue : C.taskQueue = t :: rest) (hpending : pending ⊆ rest)
    (hrunnable : C.runnable [t] = [task]) (htask : C.tasks.get t = some task) {agent : SwarmAgent}
    (hagent : findBestAgent task agents = some agent) (now : Seconds)
    (h : Served ({ C with taskQueue := rest }.assign t task agent now) (agents.filter fun a => a.id ≠ agent.id) pending C')
    : Served C agents (t :: pending) C' := by
  have hfirst : t ∉ rest := (List.nodup_cons.mp (hqueue ▸ hqueued.nodup)).1
  refine ⟨fun t' ht' => ?_, fun t' ht' => ?_, h.left.trans ?_⟩
  · obtain rfl | ht' := List.mem_cons.mp (hqueue ▸ ht')
    · refine .inr ⟨{ task with assignedAgent := some agent.id, startedAt := some now }, ?_, rfl⟩
      rw [h.others t' hfirst]
      simp only [assign, Dict.get_set, if_true]
    · exact h.kept t' ht'
  · simp only [hqueue, List.mem_cons, not_or] at ht'
    rw [h.others t' ht'.2]
    simp only [assign, Dict.get_set, if_neg ht'.1]
  · rw [← List.singleton_append, runnable_append, hrunnable, List.singleton_append, ServedInOrder,
      hagent]
    refine Iff.of_eq (congrArg _ (runnable_congr (sameProgress_assign htask rest agent now) ?_))
    intro t' ht'
    have hne : t' ≠ t := fun heq => hfirst (heq ▸ hpending ht')
    simp only [assign, Dict.get_set, if_neg hne]

theorem Served.of_none (hqueued : C.Queued) {seen : List String}
    (hqueue : C.taskQueue = t :: (pending ++ seen)) (hblocked : C.runnable seen = [])
    (hrunnable : C.runnable [t] = [task]) (hagents : readyOf agents = readyOf C.agents.values)
    (hnone : findBestAgent task agents = none) :
    Served C agents (t :: pending) ({ C with taskQueue := pending ++ seen }.put t) := by
  refine served_of_perm hqueued ?_ ?_ ?_
  · rw [hqueue]
    exact List.perm_append_singleton t _
  · rfl
  · have hleft : SwarmCoordinator.runnable ({ C with taskQueue := pending ++ seen }.put t)
        (pending ++ seen ++ [t]) = C.runnable pending ++ [task] := by
      rw [← hrunnable, ← List.append_nil (C.runnable pending), ← hblocked, ← runnable_append,
        ← runnable_append]
      rfl
    rw [← List.singleton_append, runnable_append, hrunnable, List.singleton_append, ServedInOrder,
      hnone, NothingLeft]
    change (∀ task ∈ SwarmCoordinator.runnable ({ C with taskQueue := pending ++ seen }.put t)
      (pending ++ seen ++ [t]), findBestAgent task C.agents.values = none) ↔ _
    simp only [hleft, List.mem_append, List.mem_singleton, or_imp, forall_and, forall_eq,
      ← findBestAgent_congr hagents, hnone, and_true]

theorem assignLoop_served (clock : ℕ → Seconds) {iterations : ℕ} {seenTasks : List String}
    {assigned : ℕ} {seen : List String} (hqueued : C.Queued)
    (hqueue : C.taskQueue = pending ++ seen) (hpending : ∀ t ∈ pending, t ∉ seenTasks)
    (hseen : ∀ t ∈ seen, t ∈ seenTasks) (hblocked : C.runnable seen = [])
    (hiterations : pending.length < iterations)
    (hagents : readyOf agents = readyOf C.agents.values) :
    Served C agents pending (assignLoop clock iterations seenTasks assigned C).2 := by
  induction pending generalizing iterations seenTasks assigned agents seen C with
  | nil =>
    obtain ⟨iterations, rfl⟩ := Nat.exists_eq_succ_of_ne_zero (Nat.ne_zero_of_lt hiterations)
    have hnothing : ∀ {C' : SwarmCoordinator}, C'.taskQueue.Perm seen → C'.tasks = C.tasks →
        Served C agents [] C' := by
      intro C' hperm htasks
      refine served_of_perm hqueued (by rwa [hqueue]) htasks (iff_of_true (fun task hmem => ?_) ?_)
      · have hnil : C'.runnable C'.taskQueue = [] := by
          have hsame : C'.runnable seen = C.runnable seen :=
            runnable_congr (fun t => by rw [htasks]) fun t _ => by rw [htasks]
          exact List.Perm.eq_nil (hblocked ▸ hsame ▸ runnable_perm hperm)
        rw [hnil] at hmem
        cases hmem
      · trivial
    rw [assignLoop]
    split
    · next hnil => exact hnothing (by rw [hqueue]; rfl) rfl
    · rename_i t rest hrest
      have hcons : t :: rest = seen := hrest.symm.trans hqueue
      obtain ⟨task, htask⟩ := hqueued.stored t (hrest ▸ List.mem_cons_self)
      simp only [htask, hseen t (hcons ▸ List.mem_cons_self), if_true]
      refine hnothing ?_ rfl
      rw [← hcons]
      exact List.perm_append_singleton t rest
  | cons t pending ih =>
    obtain ⟨iterations, rfl⟩ := Nat.exists_eq_succ_of_ne_zero (Nat.ne_zero_of_lt hiterations)
    obtain ⟨hnew, hpending⟩ := List.forall_mem_cons.mp hpending
    have hrest : C.taskQueue = t :: (pending ++ seen) := hqueue
    have hnodup := List.nodup_cons.mp (hrest ▸ hqueued.nodup)
    obtain ⟨task, htask⟩ := hqueued.stored t (hrest ▸ List.mem_cons_self)
    have hiterations := Nat.lt_of_succ_lt_succ hiterations
    rw [assignLoop]
    simp only [hrest, htask, hnew, if_false]
    by_cases hsatisfied : C.dependenciesSatisfied task
    · have hrunnable : C.runnable [t] = [task] := by
        rw [runnable_singleton htask, if_pos hsatisfied]
      have hsatisfied' : SwarmCoordinator.dependenciesSatisfied
          { C with taskQueue := pending ++ seen } task = true := hsatisfied
      rw [if_neg (by simp [hsatisfied'])]
      have hbest := findBestAgent_congr hagents task
      rcases hagent : findBestAgent task agents with _ | agent
      · rw [hagent] at hbest
        simp only [← hbest]
        exact .of_none hqueued hrest hblocked hrunnable hagents hagent
      · rw [hagent] at hbest
        simp only [← hbest]
        refine .of_assign hqueued hrest (List.subset_append_left _ _) hrunnable htask hagent
          (clock assigned) ?_
        refine ih (hqueued.assign hrest _) rfl hpending hseen ?_ hiterations ?_
        · rw [← hblocked]
          refine runnable_congr (sameProgress_assign htask _ agent _) fun t' ht' => ?_
          have hne : t' ≠ t := fun heq => hnodup.1 (heq ▸ List.mem_append_right _ ht')
          simp only [assign, Dict.get_set, if_neg hne]
        · refine Eq.trans ?_ (readyOf_assign (by simp) C.agents.nodup hqueued.filed).symm
          change _ = (readyOf C.agents.values).filter _
          rw [← hagents]
          unfold readyOf
          exact List.filter_comm ..
    · have hsatisfied' : SwarmCoordinator.dependenciesSatisfied
          { C with taskQueue := pending ++ seen } task = false := Bool.eq_false_iff.mpr hsatisfied
      rw [if_pos (by rw [hsatisfied']; rfl)]
      have hnone : C.runnable [t] = [] := by
        rw [runnable_singleton htask, if_neg hsatisfied]
      refine .of_blocked hrest hnone (ih ?_ (List.append_assoc ..) ?_ ?_ ?_ hiterations hagents)
      · exact hqueued.of_perm (hrest ▸ List.perm_append_singleton t _) rfl rfl
      · intro t' ht'
        simp only [List.mem_cons, not_or]
        exact ⟨fun heq => hnodup.1 (heq ▸ List.mem_append_left _ ht'), hpending t' ht'⟩
      · intro t' ht'
        obtain ht' | ht' := List.mem_append.mp ht'
        · exact List.mem_cons_of_mem _ (hseen t' ht')
        · exact List.mem_singleton.mp ht' ▸ List.mem_cons_self
      · change C.runnable (seen ++ [t]) = []
        rw [runnable_append, hblocked, hnone]
        rfl

/-- **What is left** by `assign_tasks`: nothing, where the tasks that can run are served in order. -/
theorem workConserving_iff (C : SwarmCoordinator) (clock : ℕ → Seconds) (hqueued : C.Queued)
    (hlength : C.taskQueue.length < maxAssignIterations / 2) :
    WorkConserving C (C.assignTasks clock).2 ↔
      ServedInOrder C.agents.values (C.runnable C.taskQueue) := by
  have hserved : Served C C.agents.values C.taskQueue (C.assignTasks clock).2 :=
    assignLoop_served clock hqueued (List.append_nil _).symm (fun _ _ => List.not_mem_nil)
      (fun _ h => absurd h List.not_mem_nil) rfl (hlength.trans (by decide)) rfl
  rw [← hserved.left]
  exact ⟨fun h => h.nothingLeft, fun h => ⟨h, hserved.kept⟩⟩

/-- A tester, and tasks that require these capabilities. -/
def tester (tasks : List String) : SwarmCoordinator :=
  Machine.run step {} (.spawn "bob" [{ name := "unit_testing" }] "bob" 0 ::
    tasks.map fun c => .submit c [c] .normal [] false c)

theorem queued_tester {tasks : List String} (hnodup : (tester tasks).taskQueue.Nodup)
    (hstored : ∀ t ∈ (tester tasks).taskQueue, t ∈ (tester tasks).tasks.keys)
    (hfiled : ∀ e ∈ (tester tasks).agents.entries, e.2.id = e.1) : (tester tasks).Queued :=
  ⟨hnodup, fun t ht => Dict.mem_keys_iff.mp (hstored t ht), hfiled⟩

theorem workConserving_iff_tester : WorkConserving (tester ["unit_testing"])
    ((tester ["unit_testing"]).assignTasks fun _ => 1).2 := by
  refine (workConserving_iff _ _ (queued_tester ?_ ?_ ?_) ?_).mpr
    (servedInOrder_of_length_le_one _ ?_) <;> decide +kernel

theorem deploy_first_not_workConserving : ¬ ∀ (C : SwarmCoordinator) (clock : ℕ → Seconds),
    C.Queued → C.taskQueue.length < maxAssignIterations / 2 →
      WorkConserving C (C.assignTasks clock).2 := by
  intro hall
  let C := tester ["deploying", "unit_testing"]
  have hlength : C.taskQueue.length < maxAssignIterations / 2 := by decide +kernel
  have hconserving := hall C (fun _ => 1) (queued_tester (by decide +kernel) (by decide +kernel)
    (by decide +kernel)) hlength
  have hleft : ∃ task ∈ SwarmCoordinator.runnable (C.assignTasks fun _ => 1).2
      (C.assignTasks fun _ => 1).2.taskQueue,
      findBestAgent task (C.assignTasks fun _ => 1).2.agents.values ≠ none := by
    decide +kernel
  obtain ⟨task, hmem, hfits⟩ := hleft
  exact hfits (hconserving.nothingLeft task hmem)

end SwarmCoordinator

end EnhancedAgentBus.Swarm
