import EnhancedAgentBus.Swarm.Coordinator

/-!
# The dependencies of the swarm's tasks

A task waits for the identifiers that earlier submissions returned.  What is stored under such an
identifier depends on how the task was submitted: whole, it is the task itself; decomposed, it is
nothing, since only the parts are stored.  And the parts wait for each other only.

So the dependencies of a task are honoured if it is whole, if everything that it waits for is whole
(`Plain`), and if none of that has failed: `_dependencies_satisfied` looks at the time of completion
and not at the error (`Succeeds`).
-/

namespace EnhancedAgentBus.Swarm

/-- What a `submit_task` that returned has stored. -/
structure Submission where
  /-- the identifier that was returned -/
  id : String
  dependencies : List String
  parts : List SwarmTask
  /-- it is whole, or in parts, the first of which waits for nothing -/
  shape : (∃ task, parts = [task] ∧ task.id = id ∧ task.dependencies = dependencies) ∨
    ∃ first rest, parts = first :: rest ∧ rest ≠ [] ∧ first.dependencies = []

namespace Submission

def Whole (S : Submission) : Prop := S.parts.length = 1

theorem Whole.part {S : Submission} (h : S.Whole) :
    ∃ task, S.parts = [task] ∧ task.id = S.id ∧ task.dependencies = S.dependencies := by
  obtain hwhole | ⟨first, rest, hparts, hrest, -⟩ := S.shape
  · exact hwhole
  · rw [Whole, hparts, List.length_cons, Nat.add_eq_right, List.length_eq_zero_iff] at h
    exact absurd h hrest

def make (task : SwarmTask) (decompose : Bool) : Submission where
  id := task.id
  dependencies := task.dependencies
  parts := SwarmCoordinator.prepared task decompose
  shape := by
    obtain hwhole | ⟨-, hparts⟩ := SwarmCoordinator.prepared_cases task decompose
    · exact .inl ⟨task, hwhole, rfl, rfl⟩
    · exact .inr hparts

def ofCall : SwarmCall → Option Submission
  | .submit description requiredCapabilities priority dependencies decompose uuid =>
    match SwarmCoordinator.validateTask description requiredCapabilities with
    | some _ => none
    | none => some (make
        { id := uuid, description := description, requiredCapabilities := requiredCapabilities,
          priority := priority, dependencies := dependencies } decompose)
  | _ => none

end Submission

/-- The coordinator, and what has been submitted to it, latest first. -/
structure Ledger where
  coordinator : SwarmCoordinator
  submissions : List Submission

namespace Ledger

def step (L : Ledger) (e : SwarmCall) : Ledger where
  coordinator := L.coordinator.step e
  submissions := (Submission.ofCall e).toList ++ L.submissions

def Follows (S : Submission) (older : List Submission) : Prop :=
  ∀ d ∈ S.dependencies, ∃ S' ∈ older, S'.id = d

def Done (C : SwarmCoordinator) (S : Submission) : Prop :=
  ∀ part ∈ S.parts, ∃ task, C.tasks.get part.id = some task ∧ task.completedAt ≠ none ∧
    truthy task.error = false

/-- Everything that the submission waits for is done. -/
def Ready (C : SwarmCoordinator) (S : Submission) (older : List Submission) : Prop :=
  ∀ S' ∈ older, S'.id ∈ S.dependencies → Done C S'

def Assigned (C C' : SwarmCoordinator) (t : String) : Prop :=
  (C.tasks.get t).bind SwarmTask.assignedAgent = none ∧
    (C'.tasks.get t).bind SwarmTask.assignedAgent ≠ none

/-- **The dependencies of a submission are honoured** by a call. -/
structure Honoured (C C' : SwarmCoordinator) (S : Submission) (older : List Submission) : Prop where
  /-- no part gets an agent before everything that it waits for is done -/
  safe : ∀ part ∈ S.parts, Assigned C C' part.id → Ready C S older
  /-- once that is done, the first part can get one -/
  live : Ready C' S older → ∃ first rest task, S.parts = first :: rest ∧
    C'.tasks.get first.id = some task ∧ C'.dependenciesSatisfied task = true

/-- The dependencies of every submission that waits for earlier ones are honoured by a call. -/
def AllHonoured (L : Ledger) (e : SwarmCall) : Prop :=
  ∀ newer S older, (L.step e).submissions = newer ++ S :: older → Follows S older →
    Honoured L.coordinator (L.step e).coordinator S older

/-! ## The condition -/

/-- The identifier that `uuid4` draws begins no identifier of a task. -/
def Fresh (L : Ledger) : SwarmCall → Prop
  | .submit _ _ _ _ _ uuid => ∀ part, L.coordinator.tasks.get (uuid ++ part) = none
  | _ => True

/-- A submission that waits for earlier ones is whole, and so are they. -/
def Plain (S : Submission) (older : List Submission) : Prop :=
  S.dependencies ≠ [] → S.Whole ∧ ∀ S' ∈ older, S'.id ∈ S.dependencies → S'.Whole

/-- Nothing that a waiting task was submitted with has failed. -/
def Succeeds (L : Ledger) : Prop :=
  ∀ S ∈ L.submissions, S.id ∈ L.coordinator.taskQueue → ∀ d ∈ S.dependencies,
    ∀ task, L.coordinator.tasks.get d = some task → task.completedAt ≠ none →
      truthy task.error = false

/-- **The condition on a call.** -/
structure Straight (L : Ledger) (e : SwarmCall) : Prop where
  plain : ∀ S, Submission.ofCall e = some S → Follows S L.submissions → Plain S L.submissions
  succeeds : ∀ clock, e = .assign clock → L.Succeeds

end Ledger

/-! ## Who gets an agent -/

namespace SwarmCoordinator

variable {C C' C'' : SwarmCoordinator}

def SameProgress (C C' : SwarmCoordinator) : Prop :=
  ∀ t, (C'.tasks.get t).map (fun task => (task.dependencies, task.completedAt)) =
    (C.tasks.get t).map fun task => (task.dependencies, task.completedAt)

theorem SameProgress.dependenciesSatisfied (h : SameProgress C C') {t : String}
    {task task' : SwarmTask} (htask : C.tasks.get t = some task)
    (htask' : C'.tasks.get t = some task') :
    C'.dependenciesSatisfied task' = C.dependenciesSatisfied task := by
  have hsame := h t
  rw [htask, htask', Option.map_some, Option.map_some, Option.some_inj, Prod.mk.injEq] at hsame
  unfold SwarmCoordinator.dependenciesSatisfied
  rw [hsame.1]
  refine List.all_congr rfl fun d => ?_
  have hd := h d
  rcases hget : C.tasks.get d with _ | dep
  · rw [hget, Option.map_none, Option.map_eq_none_iff] at hd
    rw [hd]
  · rw [hget, Option.map_some, Option.map_eq_some_iff] at hd
    obtain ⟨dep', hdep', heq⟩ := hd
    rw [hdep']
    exact congrArg (fun p => p.2.isSome) heq

theorem SameProgress.trans (h : SameProgress C C') (h' : SameProgress C' C'') :
    SameProgress C C'' := fun t => (h' t).trans (h t)

theorem not_assigned_of_tasks (h : C'.tasks = C.tasks) (t : String) : ¬ Ledger.Assigned C C' t := by
  rintro ⟨hfree, hassigned⟩
  exact hassigned (h ▸ hfree)

theorem assigned_set {t t' : String} {task' : SwarmTask} (h : C'.tasks = C.tasks.set t task')
    (hassigned : Ledger.Assigned C C' t') : t' = t ∧ task'.assignedAgent ≠ none := by
  obtain ⟨hfree, hassigned⟩ := hassigned
  rw [h, Dict.get_set] at hassigned
  split at hassigned
  · next heq => exact ⟨heq, by simpa using hassigned⟩
  · exact absurd hfree hassigned

/-- **The loop of `assign_tasks`** completes nothing, and gives agents to tasks of the queue whose
dependencies are satisfied: by induction on the iterations it has left. -/
theorem assignLoop_assigned (clock : ℕ → Seconds) (iterations : ℕ) (seenTasks : List String)
    (assigned : ℕ) (C : SwarmCoordinator) :
    SameProgress C (assignLoop clock iterations seenTasks assigned C).2 ∧
      ∀ t, Ledger.Assigned C (assignLoop clock iterations seenTasks assigned C).2 t →
        t ∈ C.taskQueue ∧ ∃ task, C.tasks.get t = some task ∧
          C.dependenciesSatisfied task = true := by
  have hnothing : ∀ {C C' : SwarmCoordinator}, C'.tasks = C.tasks → SameProgress C C' ∧
      ∀ t, Ledger.Assigned C C' t → t ∈ C.taskQueue ∧ ∃ task, C.tasks.get t = some task ∧
        C.dependenciesSatisfied task = true := by
    intro C C' h
    exact ⟨fun t => by rw [h], fun t ht => absurd ht (not_assigned_of_tasks h t)⟩
  induction iterations generalizing seenTasks assigned C with
  | zero => exact hnothing rfl
  | succ iterations ih =>
    rw [assignLoop]
    split
    · exact hnothing rfl
    · rename_i t rest hqueue
      split
      · exact hnothing rfl
      · rename_i task htask
        simp only
        split
        · exact hnothing rfl
        · split
          · obtain ⟨hsame, hall⟩ :=
              ih (t :: seenTasks) assigned ({ C with taskQueue := rest }.put t)
            refine ⟨hsame, fun t' ht' => ?_⟩
            obtain ⟨hmem, hready⟩ := hall t' ht'
            refine ⟨?_, hready⟩
            rw [hqueue]
            simpa [put, or_comm] using hmem
          · rename_i hsatisfied
            split
            · rename_i agent _
              obtain ⟨hsame, hall⟩ := ih seenTasks (assigned + 1)
                ({ C with taskQueue := rest }.assign t task agent (clock assigned))
              have hstep : SameProgress C
                  ({ C with taskQueue := rest }.assign t task agent (clock assigned)) := by
                intro t'
                simp only [assign, Dict.get_set]
                split
                · next heq => simp [heq, htask]
                · rfl
              refine ⟨hstep.trans hsame, fun t' ht' => ?_⟩
              by_cases hnow : Ledger.Assigned C
                  ({ C with taskQueue := rest }.assign t task agent (clock assigned)) t'
              · obtain ⟨rfl, -⟩ := assigned_set rfl hnow
                have hready : SwarmCoordinator.dependenciesSatisfied
                    { C with taskQueue := rest } task = true := by
                  simpa using hsatisfied
                exact ⟨hqueue ▸ List.mem_cons_self .., task, htask, hready⟩
              · -- it is assigned in a later iteration
                obtain ⟨hmem, task₁, htask₁, hready⟩ := hall t'
                  ⟨not_not.mp fun h => hnow ⟨ht'.1, h⟩, ht'.2⟩
                have hprogress := hstep t'
                rw [htask₁, Option.map_some, eq_comm, Option.map_eq_some_iff] at hprogress
                obtain ⟨task₀, htask₀, -⟩ := hprogress
                refine ⟨hqueue ▸ List.mem_cons_of_mem _ hmem, task₀, htask₀, ?_⟩
                rw [← hstep.dependenciesSatisfied htask₀ htask₁, hready]
            · exact hnothing rfl

theorem get_foldl_store (tasks : List SwarmTask) (C : SwarmCoordinator) (t : String) :
    (tasks.foldl store C).tasks.get t = C.tasks.get t ∨
      ∃ task ∈ tasks, task.id = t ∧ (tasks.foldl store C).tasks.get t = some task := by
  induction tasks generalizing C with
  | nil => exact .inl rfl
  | cons task tasks ih =>
    obtain hsame | ⟨task', hmem, hid, hget⟩ := ih (C.store task)
    · rw [List.foldl_cons, hsame, store, Dict.get_set]
      split
      · next heq => exact .inr ⟨task, List.mem_cons_self .., heq.symm, rfl⟩
      · exact .inl rfl
    · exact .inr ⟨task', List.mem_cons_of_mem _ hmem, hid, hget⟩

theorem requeue_tasks (C : SwarmCoordinator) (agent : SwarmAgent) :
    (C.requeue agent).tasks = C.tasks ∨ ∃ t task, C.tasks.get t = some task ∧
      (C.requeue agent).tasks = C.tasks.set t
        { task with
          assignedAgent := none
          startedAt := none
          retryCount := task.retryCount + 1 } := by
  unfold requeue
  split
  · exact .inl rfl
  · rename_i t _
    split
    · exact .inl rfl
    · next task htask => exact .inr ⟨t, task, htask, rfl⟩

/-- What a call does to the table, apart from assigning. -/
inductive Rewritten (C : SwarmCoordinator) : SwarmCall → SwarmCoordinator → Prop
  | same {e : SwarmCall} {C' : SwarmCoordinator} (hcall : Submission.ofCall e = none)
      (h : C'.tasks = C.tasks) : Rewritten C e C'
  | one {e : SwarmCall} {C' : SwarmCoordinator} {t : String} {task task' : SwarmTask}
      (hcall : Submission.ofCall e = none) (htask : C.tasks.get t = some task)
      (h : C'.tasks = C.tasks.set t task')
      (hdependencies : task'.dependencies = task.dependencies)
      (hassigned : task'.assignedAgent = task.assignedAgent ∨ task'.assignedAgent = none) :
      Rewritten C e C'
  | stored {description : String} {requiredCapabilities : List String} {priority : TaskPriority}
      {dependencies : List String} {decompose : Bool} {uuid : String} {S : Submission}
      {C' : SwarmCoordinator}
      (hcall : Submission.ofCall (.submit description requiredCapabilities priority dependencies
        decompose uuid) = some S) (hid : S.id = uuid)
      (hparts : Parts uuid S.parts) (h : C' = S.parts.foldl store C) :
      Rewritten C (.submit description requiredCapabilities priority dependencies decompose uuid) C'

/-- **One call** that is not `assign_tasks`. -/
theorem step_rewritten (C : SwarmCoordinator) (e : SwarmCall) (he : ∀ clock, e ≠ .assign clock) :
    Rewritten C e (C.step e) := by
  cases e with
  | spawn name capabilities uuid now =>
    refine .same rfl ?_
    simp only [step, spawnAgent]
    split_ifs <;> rfl
  | terminate a =>
    refine .same rfl ?_
    simp only [step, terminateAgent]
    split <;> rfl
  | submit description requiredCapabilities priority dependencies decompose uuid =>
    simp only [step, submitTask]
    cases hvalid : validateTask description requiredCapabilities with
    | some error => exact .same (by rw [Submission.ofCall, hvalid]) rfl
    | none =>
      have hparts := prepared_parts
        { id := uuid, description := description, requiredCapabilities := requiredCapabilities,
          priority := priority, dependencies := dependencies } decompose rfl rfl
      have hcall : Submission.ofCall (.submit description requiredCapabilities priority
          dependencies decompose uuid) = some (Submission.make
            { id := uuid, description := description,
              requiredCapabilities := requiredCapabilities, priority := priority,
              dependencies := dependencies } decompose) := by
        rw [Submission.ofCall, hvalid]
      exact .stored hcall rfl hparts rfl
  | assign clock => exact absurd rfl (he clock)
  | complete t result error now =>
    simp only [step, completeTask]
    rcases htask : C.tasks.get t with _ | task
    · exact .same rfl rfl
    · exact .one rfl htask (release_tasks ..) rfl (.inl rfl)
  | checkHealth => exact .same rfl rfl
  | heal a action =>
    simp only [step, performSelfHealing]
    split
    · exact .same rfl rfl
    · rename_i agent hagent
      split_ifs
      · refine .same rfl ?_
        simp only [terminateAgent, hagent]
      · exact .same rfl rfl
      · obtain hsame | ⟨t, task, htask, hset⟩ := requeue_tasks C agent
        · exact .same rfl hsame
        · exact .one rfl htask hset rfl (.inr rfl)
      · exact .same rfl rfl

theorem get_foldl_store_of_mem {tasks : List SwarmTask} (hnodup : (tasks.map SwarmTask.id).Nodup)
    {task : SwarmTask} (hmem : task ∈ tasks) (C : SwarmCoordinator) :
    (tasks.foldl store C).tasks.get task.id = some task := by
  induction tasks generalizing C with
  | nil => cases hmem
  | cons first tasks ih =>
    rw [List.map_cons, List.nodup_cons] at hnodup
    rcases List.mem_cons.mp hmem with rfl | hmem
    · obtain hsame | ⟨task', hmem', hid, -⟩ := get_foldl_store tasks (C.store task) task.id
      · rw [List.foldl_cons, hsame, store, Dict.get_set, if_pos rfl]
      · exact absurd (List.mem_map.mpr ⟨task', hmem', hid⟩) hnodup.1
    · exact ih hnodup.2 hmem _

theorem not_assigned_step (C : SwarmCoordinator) {e : SwarmCall} (he : ∀ clock, e ≠ .assign clock)
    (t : String) : ¬ Ledger.Assigned C (C.step e) t := by
  intro h
  have hrewritten := C.step_rewritten e he
  generalize C.step e = C' at h hrewritten
  cases hrewritten with
  | same _ hsame => exact not_assigned_of_tasks hsame t h
  | one _ htask hset _ hassigned =>
    obtain ⟨rfl, hagent⟩ := assigned_set hset h
    obtain ⟨hfree, -⟩ := h
    rw [htask] at hfree
    obtain hsame | hnone := hassigned
    · exact hagent (hsame.trans hfree)
    · exact hagent hnone
  | stored _ _ hparts hset =>
    subst hset
    obtain ⟨hfree, hagent⟩ := h
    obtain hsame | ⟨task, hmem, -, hget⟩ := get_foldl_store _ C t
    · exact hagent (hsame ▸ hfree)
    · rw [hget] at hagent
      exact hagent (hparts.new task hmem).2

end SwarmCoordinator

/-! ## Runs -/

namespace Ledger

open SwarmCoordinator

/-- What has been submitted is in the table, and waits as it should. -/
structure Kept (L : Ledger) : Prop where
  stored : ∀ S ∈ L.submissions, ∀ part ∈ S.parts, ∃ task,
    L.coordinator.tasks.get part.id = some task ∧ task.dependencies = part.dependencies
  plain : ∀ newer S older, L.submissions = newer ++ S :: older → Follows S older → Plain S older

theorem Kept.of_tasks {L : Ledger} (h : L.Kept) {e : SwarmCall} (hcall : Submission.ofCall e = none)
    (htasks : ∀ t task, L.coordinator.tasks.get t = some task →
      ∃ task', (L.coordinator.step e).tasks.get t = some task' ∧
        task'.dependencies = task.dependencies) : (L.step e).Kept := by
  have hsubmissions : (L.step e).submissions = L.submissions := by
    rw [step, hcall]
    rfl
  refine ⟨fun S hS part hpart => ?_, fun newer S older hS => h.plain newer S older ?_⟩
  · obtain ⟨task, htask, hdependencies⟩ := h.stored S (hsubmissions ▸ hS) part hpart
    obtain ⟨task', htask', hdependencies'⟩ := htasks _ task htask
    exact ⟨task', htask', hdependencies'.trans hdependencies⟩
  · rw [← hsubmissions, hS]

theorem Kept.step {L : Ledger} (h : L.Kept) {e : SwarmCall} (hfresh : Fresh L e)
    (hcond : Straight L e) : (L.step e).Kept := by
  by_cases hassign : ∃ clock, e = .assign clock
  · obtain ⟨clock, rfl⟩ := hassign
    refine h.of_tasks rfl fun t task htask => ?_
    have hsame := (assignLoop_assigned clock maxAssignIterations [] 0 L.coordinator).1 t
    rw [htask, Option.map_some, Option.map_eq_some_iff] at hsame
    obtain ⟨task', htask', heq⟩ := hsame
    exact ⟨task', htask', congrArg Prod.fst heq⟩
  · have hrewritten := L.coordinator.step_rewritten e fun clock hclock => hassign ⟨clock, hclock⟩
    generalize hC' : L.coordinator.step e = C' at hrewritten
    cases hrewritten with
    | same hcall hsame =>
      refine h.of_tasks hcall fun t task htask => ⟨task, ?_, rfl⟩
      rw [hC', hsame, htask]
    | @one e C' t task₀ task₁ hcall htask₀ hset hdependencies _ =>
      refine h.of_tasks hcall fun t' task htask => ?_
      rw [hC', hset, Dict.get_set]
      split
      · rename_i heq
        subst heq
        obtain rfl := Option.some_inj.mp (htask.symm.trans htask₀)
        exact ⟨task₁, rfl, hdependencies⟩
      · exact ⟨task, htask, rfl⟩
    | @stored description requiredCapabilities priority dependencies decompose uuid S C' hcall hid
        hparts hset =>
        have hsubmissions : (L.step (.submit description requiredCapabilities priority dependencies
            decompose uuid)).submissions = S :: L.submissions := by
          rw [Ledger.step, hcall]
          rfl
        have hcoordinator : (L.step (.submit description requiredCapabilities priority dependencies
            decompose uuid)).coordinator = S.parts.foldl store L.coordinator := hC'.trans hset
        refine ⟨fun S' hS' part hpart => ?_, fun newer S' older hS' hfollows => ?_⟩
        · rw [hsubmissions, List.mem_cons] at hS'
          rw [hcoordinator]
          obtain rfl | hS' := hS'
          · exact ⟨part, get_foldl_store_of_mem hparts.nodup hpart _, rfl⟩
          · obtain ⟨task, htask, hdependencies⟩ := h.stored S' hS' part hpart
            obtain hsame | ⟨task', hmem, hpartId, -⟩ :=
              get_foldl_store S.parts L.coordinator part.id
            · exact ⟨task, hsame.trans htask, hdependencies⟩
            · -- the new parts have new identifiers
              obtain ⟨suffixes, -, hids⟩ := hparts.ids
              obtain ⟨suffix, -, hsuffix⟩ := List.mem_map.mp (hids ▸ List.mem_map_of_mem hmem)
              have hnew := hfresh suffix
              rw [hsuffix, hpartId, htask] at hnew
              cases hnew
        · rw [hsubmissions] at hS'
          rcases newer with _ | ⟨S'', newer⟩
          · obtain ⟨rfl, rfl⟩ := List.cons.inj hS'
            exact hcond.plain S hcall hfollows
          · exact h.plain newer S' older (List.cons.inj hS').2 hfollows

theorem Kept.live {L : Ledger} (h : L.Kept) {newer older : List Submission} {S : Submission}
    (hS : L.submissions = newer ++ S :: older) (hfollows : Follows S older)
    (hready : Ready L.coordinator S older) : ∃ first rest task, S.parts = first :: rest ∧
      L.coordinator.tasks.get first.id = some task ∧
        L.coordinator.dependenciesSatisfied task = true := by
  have hmem : S ∈ L.submissions := hS ▸ List.mem_append_right _ (List.mem_cons_self ..)
  have hnone : ∀ first rest, S.parts = first :: rest → first.dependencies = [] →
      ∃ first rest task, S.parts = first :: rest ∧
        L.coordinator.tasks.get first.id = some task ∧
          L.coordinator.dependenciesSatisfied task = true := by
    intro first rest hparts hempty
    obtain ⟨task, htask, hdependencies⟩ := h.stored S hmem first (hparts ▸ List.mem_cons_self ..)
    refine ⟨first, rest, task, hparts, htask, ?_⟩
    rw [dependenciesSatisfied, hdependencies, hempty]
    rfl
  obtain ⟨whole, hparts, -, hdependencies⟩ | ⟨first, rest, hparts, -, hempty⟩ := S.shape
  · obtain ⟨task, htask, htaskDependencies⟩ :=
      h.stored S hmem whole (hparts ▸ List.mem_cons_self ..)
    refine ⟨whole, [], task, hparts, htask, ?_⟩
    rw [dependenciesSatisfied, htaskDependencies, hdependencies, List.all_eq_true]
    intro d hd
    obtain ⟨S', hS', rfl⟩ := hfollows d hd
    -- what it waits for is whole, so it is in the table itself
    have hwhole := (h.plain newer S older hS hfollows (List.ne_nil_of_mem hd)).2 S' hS' hd
    obtain ⟨part, hparts', hid, -⟩ := hwhole.part
    obtain ⟨task', htask', hdone, -⟩ := hready S' hS' hd part (hparts' ▸ List.mem_cons_self ..)
    rw [hid] at htask'
    rw [htask']
    exact Option.isSome_iff_ne_none.mpr hdone
  · exact hnone first rest hparts hempty

theorem Kept.safe {L : Ledger} (h : L.Kept) {e : SwarmCall} (hcond : Straight L e)
    {newer older : List Submission} {S : Submission}
    (hS : (L.step e).submissions = newer ++ S :: older) (hfollows : Follows S older)
    {part : SwarmTask} (hpart : part ∈ S.parts)
    (hassigned : Assigned L.coordinator (L.step e).coordinator part.id) :
    Ready L.coordinator S older := by
  by_cases hassign : ∃ clock, e = .assign clock
  · obtain ⟨clock, rfl⟩ := hassign
    have hmem : S ∈ L.submissions := hS ▸ List.mem_append_right _ (List.mem_cons_self ..)
    obtain ⟨hqueue, task, htask, hsatisfied⟩ :=
      (assignLoop_assigned clock maxAssignIterations [] 0 L.coordinator).2 part.id hassigned
    intro S' hS' hid part' hpart'
    obtain ⟨hwhole, hwhole'⟩ := h.plain newer S older hS hfollows (List.ne_nil_of_mem hid)
    obtain ⟨whole, hparts, hwholeId, hdependencies⟩ := hwhole.part
    obtain ⟨whole', hparts', hwholeId', -⟩ := (hwhole' S' hS' hid).part
    obtain rfl := List.mem_singleton.mp (hparts ▸ hpart)
    obtain rfl := List.mem_singleton.mp (hparts' ▸ hpart')
    obtain ⟨task₁, htask₁, htaskDependencies⟩ := h.stored S hmem part hpart
    obtain rfl := Option.some_inj.mp (htask₁.symm.trans htask)
    rw [dependenciesSatisfied, htaskDependencies, hdependencies, List.all_eq_true] at hsatisfied
    have hdone := hsatisfied S'.id hid
    rw [hwholeId']
    rcases hget : L.coordinator.tasks.get S'.id with _ | task'
    · simp [hget] at hdone
    · rw [hget] at hdone
      have hdone' := Option.isSome_iff_ne_none.mp hdone
      exact ⟨task', rfl, hdone', hcond.succeeds clock rfl S hmem (hwholeId ▸ hqueue) S'.id hid
        task' hget hdone'⟩
  · exact absurd hassigned
      (not_assigned_step L.coordinator (fun clock hclock => hassign ⟨clock, hclock⟩) _)

/-- **The dependencies of all tasks are honoured** by every call of a run whose calls meet the
condition. -/
theorem allHonoured_of_straight {C : SwarmCoordinator} {es : List SwarmCall}
    (hfresh : Machine.Along step Fresh ⟨C, []⟩ es)
    (hcond : Machine.Along step Straight ⟨C, []⟩ es) :
    Machine.Along step AllHonoured ⟨C, []⟩ es := by
  have hinit : Kept ⟨C, []⟩ := by
    refine ⟨fun S hS => absurd hS (List.not_mem_nil), fun newer S older hS => ?_⟩
    simp at hS
  refine (hfresh.and hcond).imp Kept hinit fun L e h ⟨hfresh, hcond⟩ => ?_
  have hnext := h.step hfresh hcond
  refine ⟨fun newer S older hS hfollows => ⟨fun part hpart hassigned => ?_, fun hready => ?_⟩, hnext⟩
  · exact h.safe hcond hS hfollows hpart hassigned
  · exact hnext.live hS hfollows hready

/-! ## A task that is tested before it is written -/

/-- A coder and a tester, and a task for the coder. -/
def team : List SwarmCall :=
  [.spawn "ann" [{ name := "coding" }] "ann" 0, .spawn "bob" [{ name := "unit_testing" }] "bob" 0,
    .submit "write it" ["coding"] .normal [] false "write"]

/-- Tests are submitted that wait for the task, and are decomposed. -/
def testedEarly : List SwarmCall :=
  team ++ [.submit "testing of it" ["unit_testing"] .normal ["write"] true "test",
    .assign fun _ => 1]

def testedLate : List SwarmCall :=
  team ++ [.assign fun _ => 1, .complete "write" .null none 2,
    .submit "testing of it" ["unit_testing"] .normal ["write"] false "test", .assign fun _ => 3]

theorem fresh_of_keys {L : Ledger} {description : String} {requiredCapabilities : List String}
    {priority : TaskPriority} {dependencies : List String} {decompose : Bool} {uuid : String}
    (h : ∀ t ∈ L.coordinator.tasks.keys, ¬ uuid.toList <+: t.toList) :
    Fresh L (.submit description requiredCapabilities priority dependencies decompose uuid) := by
  intro part
  by_contra hget
  obtain ⟨task, htask⟩ := Option.ne_none_iff_exists'.mp hget
  refine h _ (Dict.mem_keys_iff.mpr ⟨task, htask⟩) ?_
  rw [String.toList_append]
  exact List.prefix_append ..

theorem testedEarly_fresh : Machine.Along step Fresh ⟨{}, []⟩ testedEarly := by
  refine ⟨trivial, trivial, fresh_of_keys ?_, fresh_of_keys ?_, trivial, trivial⟩
  · exact fun t ht => by cases ht
  · decide +kernel

theorem testedLate_fresh : Machine.Along step Fresh ⟨{}, []⟩ testedLate := by
  refine ⟨trivial, trivial, fresh_of_keys ?_, trivial, trivial, fresh_of_keys ?_, trivial, trivial⟩
  · exact fun t ht => by cases ht
  · decide +kernel

def untested : Ledger := Machine.run step ⟨{}, []⟩ (testedEarly.take 4)

/-- The tests get an agent before the task is done. -/
theorem testedEarly_not_honoured : Machine.Along step Fresh ⟨{}, []⟩ testedEarly ∧
    ¬ Machine.Along step AllHonoured ⟨{}, []⟩ testedEarly := by
  refine ⟨testedEarly_fresh, fun h => ?_⟩
  have hlast : AllHonoured untested (.assign fun _ => 1) := h.2.2.2.2.1
  have hsubmissions : (untested.step (.assign fun _ => 1)).submissions.map
      (fun S => (S.id, S.dependencies, S.parts.map SwarmTask.id)) =
        [("test", ["write"], ["test_unit", "test_integration", "test_e2e"]),
          ("write", [], ["write"])] := by
    decide +kernel
  rw [List.map_eq_cons_iff] at hsubmissions
  obtain ⟨tests, older, hlog, htests, holder⟩ := hsubmissions
  obtain ⟨write, rfl, hwrite⟩ := List.map_eq_singleton_iff.mp holder
  rw [Prod.mk.injEq, Prod.mk.injEq] at htests hwrite
  have hhonoured := hlast [] tests [write] hlog fun d hd => by
    rw [htests.2.1, List.mem_singleton] at hd
    exact ⟨write, List.mem_singleton_self _, hwrite.1.trans hd.symm⟩
  obtain ⟨part, hpart, hpartId⟩ : ∃ part ∈ tests.parts, part.id = "test_unit" :=
    List.mem_map.mp (htests.2.2 ▸ List.mem_cons_self ..)
  obtain ⟨part', hpart', hpartId'⟩ : ∃ part ∈ write.parts, part.id = "write" :=
    List.mem_map.mp (hwrite.2.2 ▸ List.mem_cons_self ..)
  have hassigned : Assigned untested.coordinator
      (untested.step (.assign fun _ => 1)).coordinator "test_unit" := by
    constructor <;> decide +kernel
  obtain ⟨task, htask, hdone, -⟩ := hhonoured.safe part hpart (hpartId ▸ hassigned) write
    (List.mem_singleton_self _) (by rw [hwrite.1, htests.2.1]; exact List.mem_singleton_self _)
      part' hpart'
  have hopen : (untested.coordinator.tasks.get "write").bind SwarmTask.completedAt = none := by
    decide +kernel
  rw [← hpartId', htask] at hopen
  exact hdone hopen

/-- The task has been written, and the tests submitted. -/
def written : Ledger := Machine.run step ⟨{}, []⟩ (testedLate.take 6)

theorem testedLate_honoured : Machine.Along step AllHonoured ⟨{}, []⟩ testedLate := by
  refine allHonoured_of_straight testedLate_fresh ?_
  have hother : ∀ {L e}, Submission.ofCall e = none → (∀ clock, e ≠ .assign clock) →
      Straight L e := by
    intro L e hcall he
    exact ⟨fun S hS => by simp [hcall] at hS, fun clock hclock => absurd hclock (he clock)⟩
  refine ⟨hother rfl (by simp), hother rfl (by simp), ⟨?_, by simp⟩, ⟨by simp [Submission.ofCall], ?_⟩,
    hother rfl (by simp), ⟨?_, by simp⟩, ⟨by simp [Submission.ofCall], ?_⟩, trivial⟩
  · intro S hS _ hne
    obtain rfl := Option.some_inj.mp hS
    exact absurd rfl hne
  · intro clock _ S hS _ d hd
    obtain rfl := List.mem_singleton.mp hS
    cases hd
  · intro S hS _ _
    obtain rfl := Option.some_inj.mp hS
    have hwhole : ∀ n ∈ (Machine.run step ⟨{}, []⟩ (testedLate.take 5)).submissions.map
        (fun S' => S'.parts.length), n = 1 := by
      decide +kernel
    exact ⟨rfl, fun S' hS' _ => hwhole _ (List.mem_map_of_mem hS')⟩
  · intro clock _ S hS _ d hd task htask _
    have hdependencies : ∀ ds ∈ written.submissions.map Submission.dependencies, ∀ d ∈ ds,
        d = "write" := by
      decide +kernel
    obtain rfl := hdependencies _ (List.mem_map_of_mem hS) d hd
    have herror : (written.coordinator.tasks.get "write").bind SwarmTask.error = none := by
      decide +kernel
    rw [show written.coordinator.tasks.get "write" = some task from htask] at herror
    rw [show task.error = none from herror]
    rfl

end Ledger

end EnhancedAgentBus.Swarm
