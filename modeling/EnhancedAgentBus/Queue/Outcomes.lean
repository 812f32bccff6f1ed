import EnhancedAgentBus.Queue.Tasks

/-!
# Outcomes of deliberation

What a task that has been deliberated ends in, over every interleaving of the calls.  The property
of a step is `Respects`: a task that requires a human review becomes approved by a human decision
only, a complete task keeps its status, and the counters count the tasks that have ended.

Three of the five entry points break it.  A vote does not look at `requires_human`, and it sets the
status before it has the lock that the counter needs; a human decision counts whatever is not an
approval as a rejection; `update_status` looks at nothing and counts nothing.  `Sound` is what the
calls then have to see to, and `respects_along_iff` says that nothing less will do.
-/

namespace EnhancedAgentBus.Queue

open Machine

universe u

variable {M : Type u}

/-! ## The counters -/

namespace DeliberationQueue

def ended (q : DeliberationQueue M) (status : DeliberationStatus) : ℕ :=
  q.tasks.values.countP fun task => task.status = status

/-- The counters count the tasks that have ended. -/
structure Tallied (q : DeliberationQueue M) : Prop where
  approved : q.stats.approved = q.ended .approved
  rejected : q.stats.rejected = q.ended .rejected
  timedOut : q.stats.timedOut = q.ended .timedOut

/-- What a task of the one status counts under the other. -/
def tally (status outcome : DeliberationStatus) : ℕ := if status = outcome then 1 else 0

variable {q q' : DeliberationQueue M} {taskId : String} {task task' : DeliberationTask M}

theorem ended_set (hget : q.tasks.get taskId = some task)
    (htasks : q'.tasks = q.tasks.set taskId task') (status : DeliberationStatus) :
    q'.ended status + tally task.status status = q.ended status + tally task'.status status := by
  have h := q.tasks.countP_values_set taskId task' fun t => t.status = status
  rw [hget] at h
  rw [ended, ended, htasks]
  simpa [tally, List.countP_cons] using h

theorem tallied_set (hq : q.Tallied) (hget : q.tasks.get taskId = some task)
    (htasks : q'.tasks = q.tasks.set taskId task') :
    q'.Tallied ↔
      q'.stats.approved + tally task.status .approved = q.stats.approved + tally task'.status .approved ∧
      q'.stats.rejected + tally task.status .rejected = q.stats.rejected + tally task'.status .rejected ∧
      q'.stats.timedOut + tally task.status .timedOut = q.stats.timedOut + tally task'.status .timedOut := by
  have hend := ended_set hget htasks
  have happroved := hend .approved
  have hrejected := hend .rejected
  have htimedOut := hend .timedOut
  obtain ⟨h₁, h₂, h₃⟩ := hq
  constructor
  · rintro ⟨h₁', h₂', h₃'⟩
    omega
  · rintro ⟨h₁', h₂', h₃'⟩
    exact ⟨by omega, by omega, by omega⟩

theorem tally_of_not_complete {status : DeliberationStatus} (h : status.complete = false) :
    tally status .approved = 0 ∧ tally status .rejected = 0 ∧ tally status .timedOut = 0 := by
  cases status with
  | approved => cases h
  | rejected => cases h
  | timedOut => cases h
  | _ => exact ⟨rfl, rfl, rfl⟩

theorem not_complete_of_tally {status : DeliberationStatus} (happroved : tally status .approved = 0)
    (hrejected : tally status .rejected = 0) (htimedOut : tally status .timedOut = 0) :
    status.complete = false := by
  cases status with
  | approved => cases happroved
  | rejected => cases hrejected
  | timedOut => cases htimedOut
  | _ => rfl

theorem tallied_insert (hq : q.Tallied) (hget : q.tasks.get taskId = none)
    (htasks : q'.tasks = q.tasks.set taskId task') (hstats : q'.stats = q.stats)
    (hopen : task'.isComplete = false) : q'.Tallied := by
  have hend (outcome : DeliberationStatus) :
      q'.ended outcome = q.ended outcome + tally task'.status outcome := by
    have h := q.tasks.countP_values_set taskId task' fun t => t.status = outcome
    rw [hget] at h
    rw [ended, ended, htasks]
    simpa [tally, List.countP_cons] using h
  obtain ⟨h₁, h₂, h₃⟩ := tally_of_not_complete hopen
  exact ⟨by rw [hstats, hend, h₁, hq.approved, Nat.add_zero],
    by rw [hstats, hend, h₂, hq.rejected, Nat.add_zero],
    by rw [hstats, hend, h₃, hq.timedOut, Nat.add_zero]⟩

end DeliberationQueue

open DeliberationQueue

/-! ## What is asked of a step -/

/-- From one queue to the next: nothing that requires a human review becomes approved without a
human decision, what is complete keeps its status, and the counters are right. -/
structure Respected (q q' : DeliberationQueue M) (decision : Prop) : Prop where
  review : ∀ taskId task', q'.tasks.get taskId = some task' → task'.requiresHuman = true →
    task'.status = .approved →
      decision ∨ ∃ task, q.tasks.get taskId = some task ∧ task.status = .approved
  final : ∀ taskId task, q.tasks.get taskId = some task → task.isComplete = true →
    ∃ task', q'.tasks.get taskId = some task' ∧ task'.status = task.status
  tallied : q'.Tallied

def Event.IsDecision : Event M → Prop
  | .decide .. => True
  | _ => False

def Respects (partition : String → Fin 4) (S : System M) (e : Event M) : Prop :=
  Respected S.queue (S.step partition e).queue e.IsDecision

section Respected

variable {q q' : DeliberationQueue M} {taskId : String} {task task' : DeliberationTask M}
  {decision : Prop}

theorem Respected.of_tasks_eq (hq : q.Tallied) (htasks : q'.tasks = q.tasks)
    (happroved : q'.stats.approved = q.stats.approved)
    (hrejected : q'.stats.rejected = q.stats.rejected)
    (htimedOut : q'.stats.timedOut = q.stats.timedOut) : Respected q q' decision where
  review taskId task' hget _ hstatus := .inr ⟨task', htasks ▸ hget, hstatus⟩
  final taskId task hget _ := ⟨task, htasks ▸ hget, rfl⟩
  tallied := by
    have hend (status : DeliberationStatus) : q'.ended status = q.ended status := by
      rw [ended, ended, htasks]
    exact ⟨by rw [happroved, hend, hq.approved], by rw [hrejected, hend, hq.rejected],
      by rw [htimedOut, hend, hq.timedOut]⟩

theorem Respected.same (hq : q.Tallied) : Respected q q decision :=
  .of_tasks_eq hq rfl rfl rfl rfl

theorem respected_set_iff (hget : q.tasks.get taskId = some task)
    (htasks : q'.tasks = q.tasks.set taskId task') :
    Respected q q' decision ↔
      (task'.requiresHuman = true → task'.status = .approved →
        decision ∨ task.status = .approved) ∧
      (task.isComplete = true → task'.status = task.status) ∧ q'.Tallied := by
  have hget' : q'.tasks.get taskId = some task' := by rw [htasks, Dict.get_set, if_pos rfl]
  constructor
  · intro h
    refine ⟨fun hhuman hstatus => ?_, fun hcomplete => ?_, h.tallied⟩
    · obtain hdecision | ⟨t, ht, hstatus⟩ := h.review taskId task' hget' hhuman hstatus
      · exact .inl hdecision
      · rw [hget, Option.some_inj] at ht
        exact .inr (ht ▸ hstatus)
    · obtain ⟨t, ht, hstatus⟩ := h.final taskId task hget hcomplete
      rw [hget', Option.some_inj] at ht
      exact ht ▸ hstatus
  · rintro ⟨hreview, hfinal, htallied⟩
    refine ⟨fun id t ht hhuman hstatus => ?_, fun id t ht hcomplete => ?_, htallied⟩
    · rw [htasks] at ht
      rcases Dict.get_set_cases ht with ⟨rfl, rfl⟩ | ⟨-, ht⟩
      · exact (hreview hhuman hstatus).imp_right fun h => ⟨task, hget, h⟩
      · exact .inr ⟨t, ht, hstatus⟩
    · rw [htasks, Dict.get_set]
      split
      · rename_i hid
        rw [hid, hget, Option.some_inj] at ht
        subst ht
        exact ⟨task', rfl, hfinal hcomplete⟩
      · exact ⟨t, ht, rfl⟩

end Respected

/-! ## What the calls have to see to -/

/-- The status that `update_status` gives is the one that the task has, or neither of them is
complete. -/
def Keeps (q : DeliberationQueue M) (taskId : String) (status : StatusArgument) : Prop :=
  ∀ task known, q.tasks.get taskId = some task → status.parsed = some known →
    known = task.status ∨ (task.isComplete = false ∧ known.complete = false)

/-- A vote reaches consensus on nothing that a human has to review, and finds the global lock free;
a human decision is to approve or to reject, and finds the lock free (or it ends nothing, and is not
counted); an update of the status, when it is made, moves no task into or out of an outcome. -/
def Sound (S : System M) : Event M → Prop
  | .vote itemId vote => ∀ task, S.queue.tasks.get itemId = some task → task.isComplete = false →
      (task.withVote vote).checkConsensus = true → task.requiresHuman = false ∧ S.Free
  | .decide itemId _ decision _ => ∀ task, S.queue.tasks.get itemId = some task →
      task.status = .underReview →
        if S.Free then decision = .approved ∨ decision = .rejected else decision.complete = false
  | .update taskId status => S.Free → Keeps S.queue taskId status
  | .resolve taskId approved => S.Free → Keeps S.queue taskId (.status (resolution approved))
  | .resume => S.saving = false → ∀ waiter rest, S.waiting = waiter :: rest →
      match waiter with
      | .decided _ => False
      | .update taskId status => Keeps S.queue taskId status
      | _ => True
  | _ => True

/-! ## One step -/

/-- The call has ended a task that it has yet to count. -/
def Waiter.Owes : Waiter → Prop
  | .approved _ => True
  | .decided decision => decision.complete = true
  | _ => False

/-- The counters are right, and none of the calls that wait has yet to count a task. -/
structure Settled (S : System M) : Prop where
  tallied : S.queue.Tallied
  counted : ∀ waiter ∈ S.waiting, ¬ waiter.Owes

variable {S : System M} {partition : String → Fin 4}

theorem Settled.partitionTaken (hS : Settled S) (taskId : String) :
    S.partitionTaken partition taskId = false := by
  refine List.any_eq_false.mpr fun waiter hwaiter => ?_
  have hcounted := hS.counted waiter hwaiter
  cases waiter with
  | approved itemId => exact absurd trivial hcounted
  | _ => exact Bool.false_ne_true

@[simp] theorem critical_waiting (S : System M) (waiter : Waiter) :
    (S.critical waiter).waiting = S.waiting := by
  cases waiter with
  | queued taskId => rfl
  | approved itemId => rfl
  | decided decision => rfl
  | update taskId status =>
    unfold System.critical
    dsimp only
    split <;> rfl
  | timeout taskId =>
    unfold System.critical
    dsimp only
    split <;> rfl

theorem mem_waiting_withLock {waiter w : Waiter} (h : w ∈ (S.withLock waiter).waiting) :
    w ∈ S.waiting ∨ (w = waiter ∧ ¬ S.Free) := by
  unfold System.withLock at h
  split at h
  · exact .inl (by simpa using h)
  · rename_i hfree
    rcases List.mem_append.mp h with h | h
    · exact .inl h
    · exact .inr ⟨List.mem_singleton.mp h, hfree⟩

theorem respected_update (S : System M) (hS : S.queue.Tallied) (taskId : String)
    (status : StatusArgument) {decision : Prop} :
    Respected S.queue (S.critical (.update taskId status)).queue decision ↔
      Keeps S.queue taskId status := by
  unfold System.critical updateStatus Keeps
  dsimp only
  rcases hget : S.queue.tasks.get taskId with _ | task
  · exact ⟨fun _ _ _ h => (by cases h), fun _ => .same hS⟩
  · rcases hparsed : status.parsed with _ | known
    · exact ⟨fun _ _ _ _ h => (by cases h), fun _ => .same hS⟩
    · dsimp only
      rw [respected_set_iff hget rfl, tallied_set hS hget rfl]
      dsimp only
      constructor
      · rintro ⟨-, hfinal, happroved, hrejected, htimedOut⟩ t k ht hk
        cases ht
        cases hk
        by_cases hcomplete : task.isComplete = true
        · exact .inl (hfinal hcomplete)
        · have hcomplete : task.isComplete = false := by simpa using hcomplete
          obtain ⟨h₁, h₂, h₃⟩ := tally_of_not_complete hcomplete
          exact .inr ⟨hcomplete, not_complete_of_tally (by omega) (by omega) (by omega)⟩
      · intro h
        rcases h task known rfl rfl with hsame | ⟨hold, hnew⟩
        · subst hsame
          exact ⟨fun _ h => .inr h, fun _ => rfl, rfl, rfl, rfl⟩
        · obtain ⟨h₁, h₂, h₃⟩ := tally_of_not_complete hold
          obtain ⟨h₁', h₂', h₃'⟩ := tally_of_not_complete hnew
          refine ⟨fun _ h => ?_, fun h => ?_, by omega, by omega, by omega⟩
          · subst h
            cases hnew
          · rw [hold] at h
            cases h

theorem respected_timeout (S : System M) (hS : S.queue.Tallied) (taskId : String)
    {decision : Prop} : Respected S.queue (S.critical (.timeout taskId)).queue decision := by
  unfold System.critical DeliberationQueue.timeout
  dsimp only
  rcases hget : S.queue.tasks.get taskId with _ | task
  · exact .same hS
  · dsimp only
    by_cases hcomplete : task.isComplete = true
    · rw [if_pos hcomplete]
      exact .same hS
    · rw [if_neg hcomplete]
      have hcomplete : task.isComplete = false := by simpa using hcomplete
      obtain ⟨h₁, h₂, h₃⟩ := tally_of_not_complete hcomplete
      refine (respected_set_iff hget rfl).mpr ⟨fun _ h => (by cases h), fun h => ?_, ?_⟩
      · rw [hcomplete] at h
        cases h
      · refine (tallied_set hS hget rfl).mpr ?_
        rw [h₁, h₂, h₃]
        exact ⟨rfl, rfl, rfl⟩

theorem respected_enqueue {q : DeliberationQueue M} (hq : q.Tallied) {taskId : String}
    (hnew : taskId ∉ q.tasks.keys) (message : M)
    (requiresHumanReview requiresMultiAgentVote : Bool) (timeoutSeconds : Option ℤ) (now : Time)
    {decision : Prop} :
    Respected q (q.enqueueForDeliberation taskId message requiresHumanReview requiresMultiAgentVote
      timeoutSeconds now) decision := by
  have hnone : q.tasks.get taskId = none := by
    rw [Option.eq_none_iff_forall_ne_some]
    exact fun task hget => hnew (Dict.mem_keys_iff.mpr ⟨task, hget⟩)
  unfold enqueueForDeliberation
  refine ⟨fun id task hget _ hstatus => ?_, fun id task hget _ => ?_, ?_⟩
  · rcases Dict.get_set_cases hget with ⟨-, rfl⟩ | ⟨-, hget⟩
    · cases hstatus
    · exact .inr ⟨task, hget, hstatus⟩
  · refine ⟨task, ?_, rfl⟩
    rw [Dict.get_set, if_neg, hget]
    rintro rfl
    rw [hnone] at hget
    cases hget
  · exact tallied_insert hq hnone rfl rfl rfl

theorem Respected.congr {q q' q'' : DeliberationQueue M} {decision : Prop}
    (h : Respected q q' decision) (htasks : q''.tasks = q'.tasks)
    (happroved : q''.stats.approved = q'.stats.approved)
    (hrejected : q''.stats.rejected = q'.stats.rejected)
    (htimedOut : q''.stats.timedOut = q'.stats.timedOut) : Respected q q'' decision where
  review taskId task' hget := h.review taskId task' (htasks ▸ hget)
  final taskId task hget hcomplete := htasks ▸ h.final taskId task hget hcomplete
  tallied := by
    have hsame : Respected q' q'' False :=
      .of_tasks_eq h.tallied htasks happroved hrejected htimedOut
    exact hsame.tallied

theorem withLock_of_free (h : S.Free) (queue : DeliberationQueue M) (waiter : Waiter) :
    System.withLock { S with queue := queue } waiter =
      System.critical { S with queue := queue } waiter := if_pos h

theorem withLock_of_not_free (h : ¬ S.Free) (queue : DeliberationQueue M) (waiter : Waiter) :
    System.withLock { S with queue := queue } waiter =
      { S with queue := queue, waiting := S.waiting ++ [waiter] } := if_neg h

theorem status_ne_of_not_complete {task : DeliberationTask M} (h : task.isComplete = false)
    {status : DeliberationStatus} (hstatus : status.complete = true) : task.status ≠ status := by
  rintro rfl
  rw [DeliberationTask.isComplete, hstatus] at h
  cases h

theorem respects_vote (hS : Settled S) (itemId : String) (vote : AgentVote) :
    Respects partition S (.vote itemId vote) ↔ Sound S (.vote itemId vote) := by
  unfold Respects Sound System.step
  simp only [hS.partitionTaken, Bool.false_eq_true, if_false]
  obtain ⟨hnone, hrefused⟩ | ⟨task, hget, hcomplete, hvoted⟩ :=
    S.queue.recordVote_cases itemId vote
  · rw [hnone]
    refine ⟨fun _ task hget hnot => ?_, fun _ => .same hS.tallied⟩
    rw [hrefused task hget] at hnot
    cases hnot
  · obtain ⟨hconsensus, hsome⟩ | ⟨hconsensus, hsome⟩ := hvoted
    · rw [hsome, respected_set_iff hget rfl, tallied_set hS.tallied hget rfl]
      refine ⟨fun _ t ht _ h => ?_, fun _ => ⟨fun _ h => .inr h, fun _ => rfl, rfl, rfl, rfl⟩⟩
      rw [hget] at ht
      cases ht
      rw [hconsensus] at h
      cases h
    · obtain ⟨h₁, h₂, h₃⟩ := tally_of_not_complete hcomplete
      rw [hsome]
      dsimp only
      by_cases hfree : S.Free
      · rw [withLock_of_free hfree, System.critical, respected_set_iff hget rfl,
          tallied_set hS.tallied hget rfl, h₁, h₂, h₃]
        constructor
        · rintro ⟨hreview, -⟩ t ht - -
          rw [hget] at ht
          cases ht
          refine ⟨Bool.eq_false_iff.mpr fun hhuman => ?_, hfree⟩
          exact (hreview hhuman rfl).elim id (status_ne_of_not_complete hcomplete rfl)
        · intro h
          obtain ⟨hhuman, -⟩ := h task hget hcomplete hconsensus
          refine ⟨fun hhuman' => absurd hhuman' (Bool.eq_false_iff.mp hhuman), fun h => ?_,
            rfl, rfl, rfl⟩
          exact absurd h (Bool.eq_false_iff.mp hcomplete)
      · rw [withLock_of_not_free hfree, respected_set_iff hget rfl,
          tallied_set hS.tallied hget rfl, h₁, h₂, h₃]
        refine ⟨fun h => ?_, fun h => absurd (h task hget hcomplete hconsensus).2 hfree⟩
        -- the task is approved, and the counter is not up to it
        exact absurd h.2.2.1 (Nat.ne_of_lt (Nat.lt_succ_self _))

theorem respects_decide (hS : Settled S) (itemId reviewer : String) (decision : DeliberationStatus)
    (reasoning : String) :
    Respects partition S (.decide itemId reviewer decision reasoning) ↔
      Sound S (.decide itemId reviewer decision reasoning) := by
  unfold Respects Sound System.step
  simp only [hS.partitionTaken, Bool.false_eq_true, if_false]
  obtain ⟨hnone, hrefused⟩ | ⟨task, task', hget, hreview, hdecision, hsome⟩ :=
    S.queue.recordDecision_cases itemId reviewer decision reasoning
  · rw [hnone]
    exact ⟨fun _ task hget hreview => absurd hreview (hrefused task hget),
      fun _ => .same hS.tallied⟩
  · have hcomplete : task.isComplete = false := by
      rw [DeliberationTask.isComplete, hreview]
      rfl
    have hkept (h : task.isComplete = true) : task'.status = task.status :=
      absurd h (Bool.eq_false_iff.mp hcomplete)
    obtain ⟨h₁, h₂, h₃⟩ := tally_of_not_complete hcomplete
    rw [hsome]
    dsimp only
    by_cases hfree : S.Free
    · rw [withLock_of_free hfree, System.critical, if_pos hfree]
      by_cases happroved : decision = .approved
      · subst happroved
        rw [countDecision, if_pos rfl, respected_set_iff hget rfl,
          tallied_set hS.tallied hget rfl, h₁, h₂, h₃, hdecision]
        exact ⟨fun _ _ _ _ => .inl rfl,
          fun _ => ⟨fun _ _ => .inl trivial, hdecision ▸ hkept, rfl, rfl, rfl⟩⟩
      · rw [countDecision, if_neg happroved, respected_set_iff hget rfl,
          tallied_set hS.tallied hget rfl, h₁, h₂, h₃, hdecision]
        dsimp only [countRejected]
        constructor
        · rintro ⟨-, -, -, hrejected, -⟩ t - -
          -- one more is counted as rejected, so the task has to be
          right
          by_contra hne
          rw [tally, if_neg hne] at hrejected
          omega
        · intro h
          obtain rfl := (h task hget hreview).resolve_left happroved
          exact ⟨fun _ _ => .inl trivial, hdecision ▸ hkept, rfl, rfl, rfl⟩
    · rw [withLock_of_not_free hfree, respected_set_iff hget rfl,
        tallied_set hS.tallied hget rfl, h₁, h₂, h₃, hdecision, if_neg hfree]
      dsimp only
      constructor
      · rintro ⟨-, -, happroved, hrejected, htimedOut⟩ t - -
        exact not_complete_of_tally (by omega) (by omega) (by omega)
      · intro h
        obtain ⟨h₁', h₂', h₃'⟩ := tally_of_not_complete (h task hget hreview)
        exact ⟨fun _ _ => .inl trivial, hdecision ▸ hkept, by omega, by omega, by omega⟩

theorem respects_resume (hS : Settled S) :
    Respects partition S .resume ↔ Sound S .resume := by
  unfold Respects Sound System.step
  cases hsaving : S.saving with
  | true => exact ⟨fun _ h => (by cases h), fun _ => .same hS.tallied⟩
  | false =>
    dsimp only
    rw [if_neg Bool.false_ne_true]
    rcases hwaiting : S.waiting with _ | ⟨waiter, rest⟩
    · exact ⟨fun _ _ _ _ h => (by cases h), fun _ => .same hS.tallied⟩
    · dsimp only
      have hcounted : ¬ waiter.Owes := hS.counted waiter (hwaiting ▸ List.mem_cons_self)
      cases waiter with
      | queued taskId =>
        exact ⟨fun _ _ _ _ heq => (by cases heq; trivial),
          fun _ => .of_tasks_eq hS.tallied rfl rfl rfl rfl⟩
      | approved itemId => exact absurd trivial hcounted
      | decided decision =>
        constructor
        · intro h
          -- the decision that is counted has ended nothing
          have hrejected := h.tallied.rejected
          have happroved : decision ≠ .approved := by
            rintro rfl
            exact hcounted rfl
          rw [System.critical, countDecision, if_neg happroved] at hrejected
          exact absurd hrejected (hS.tallied.rejected ▸ Nat.succ_ne_self _)
        · intro h
          exact (h rfl _ rest rfl).elim
      | update taskId status =>
        let S' : System M := { S with saving := false, waiting := rest }
        have hupdate : Respected S'.queue (S'.critical (.update taskId status)).queue False ↔
            Keeps S'.queue taskId status := respected_update S' hS.tallied taskId status
        constructor
        · intro h _ waiter' rest' heq
          cases heq
          exact hupdate.mp h
        · intro h
          exact hupdate.mpr (h rfl _ rest rfl)
      | timeout taskId =>
        exact ⟨fun _ _ _ _ heq => (by cases heq; trivial),
          fun _ => respected_timeout { S with saving := false, waiting := rest } hS.tallied
            taskId⟩

theorem respected_withLock (hS : S.queue.Tallied) (waiter : Waiter) {decision : Prop} :
    Respected S.queue (S.withLock waiter).queue decision ↔
      (S.Free → Respected S.queue (S.critical waiter).queue decision) := by
  unfold System.withLock
  by_cases hfree : S.Free
  · rw [if_pos hfree]
    exact ⟨fun h _ => h, fun h => h hfree⟩
  · rw [if_neg hfree]
    exact ⟨fun _ h => absurd h hfree, fun _ => .same hS⟩

theorem respects_iff (hS : Settled S) (e : Event M) : Respects partition S e ↔ Sound S e := by
  cases e with
  | enqueue taskId message requiresHumanReview requiresMultiAgentVote timeoutSeconds now =>
    refine ⟨fun _ => trivial, fun _ => ?_⟩
    unfold Respects System.step
    simp only [hS.partitionTaken, Bool.false_eq_true, or_false]
    split
    · exact .same hS.tallied
    · rename_i hnew
      have h : Respected S.queue (S.queue.enqueueForDeliberation taskId message
          requiresHumanReview requiresMultiAgentVote timeoutSeconds now) False :=
        respected_enqueue hS.tallied hnew message requiresHumanReview requiresMultiAgentVote
          timeoutSeconds now
      by_cases hfree : S.Free
      · rw [withLock_of_free hfree]
        exact h.congr rfl rfl rfl rfl
      · rw [withLock_of_not_free hfree]
        exact h
  | vote itemId vote => exact respects_vote hS itemId vote
  | decide itemId reviewer decision reasoning =>
    exact respects_decide hS itemId reviewer decision reasoning
  | update taskId status =>
    exact (respected_withLock hS.tallied _).trans
      (forall_congr' fun _ => respected_update S hS.tallied taskId status)
  | resolve taskId approved =>
    exact (respected_withLock hS.tallied _).trans
      (forall_congr' fun _ => respected_update S hS.tallied taskId _)
  | timeout taskId =>
    refine ⟨fun _ => trivial, fun _ => ?_⟩
    unfold Respects System.step
    dsimp only
    split
    · let S' : System M := { S with monitored := S.monitored.erase taskId }
      exact (respected_withLock (S := S') hS.tallied _).mpr fun _ =>
        respected_timeout S' hS.tallied taskId
    · exact .same hS.tallied
  | resume => exact respects_resume hS
  | saved => exact ⟨fun _ => trivial, fun _ => .same hS.tallied⟩

theorem Settled.step (hS : Settled S) {e : Event M} (h : Respects partition S e) :
    Settled (S.step partition e) := by
  refine ⟨h.tallied, ?_⟩
  have hsound := (respects_iff hS e).mp h
  have hlock (S' : System M) (waiter : Waiter) (hwaiting : S'.waiting = S.waiting)
      (howes : ¬ S'.Free → ¬ waiter.Owes) : ∀ w ∈ (S'.withLock waiter).waiting, ¬ w.Owes := by
    intro w hw
    rcases mem_waiting_withLock hw with hw | ⟨rfl, hfree⟩
    · exact hS.counted w (hwaiting ▸ hw)
    · exact howes hfree
  cases e with
  | enqueue taskId message requiresHumanReview requiresMultiAgentVote timeoutSeconds now =>
    unfold System.step
    dsimp only
    split
    · exact hS.counted
    · exact hlock _ _ rfl fun _ => id
  | vote itemId vote =>
    unfold System.step
    simp only [hS.partitionTaken, Bool.false_eq_true, if_false]
    obtain ⟨hnone, -⟩ | ⟨task, hget, hcomplete, hvoted⟩ := S.queue.recordVote_cases itemId vote
    · rw [hnone]
      exact hS.counted
    · obtain ⟨-, hsome⟩ | ⟨hconsensus, hsome⟩ := hvoted
      · rw [hsome]
        exact hS.counted
      · rw [hsome]
        exact hlock _ _ rfl fun hfree =>
          absurd (hsound task hget hcomplete hconsensus).2 hfree
  | decide itemId reviewer decision reasoning =>
    unfold System.step
    simp only [hS.partitionTaken, Bool.false_eq_true, if_false]
    obtain ⟨hnone, -⟩ | ⟨task, task', hget, hreview, -, hsome⟩ :=
      S.queue.recordDecision_cases itemId reviewer decision reasoning
    · rw [hnone]
      exact hS.counted
    · rw [hsome]
      refine hlock _ _ rfl fun hfree => ?_
      have hopen := hsound task hget hreview
      rw [if_neg (show ¬ S.Free from hfree)] at hopen
      exact Bool.eq_false_iff.mp hopen
  | update taskId status => exact hlock S _ rfl fun _ => id
  | resolve taskId approved => exact hlock S _ rfl fun _ => id
  | timeout taskId =>
    unfold System.step
    dsimp only
    split
    · exact hlock _ _ rfl fun _ => id
    · exact hS.counted
  | resume =>
    unfold System.step
    dsimp only
    split
    · exact hS.counted
    · split
      · exact hS.counted
      · rename_i waiter rest hwaiting
        intro w hw
        rw [critical_waiting] at hw
        exact hS.counted w (hwaiting ▸ List.mem_cons_of_mem waiter hw)
  | saved => exact hS.counted

/-! ## Runs -/

theorem tallied_start_iff (tasks : Dict String (DeliberationTask M)) (consensusThreshold : ℚ)
    (defaultTimeout : ℤ) :
    (System.start tasks consensusThreshold defaultTimeout).queue.Tallied ↔
      ∀ task ∈ tasks.values, task.isComplete = false := by
  have hzero (outcome : DeliberationStatus) : 0 = tasks.values.countP (fun task =>
      task.status = outcome) ↔ ∀ task ∈ tasks.values, tally task.status outcome = 0 := by
    rw [eq_comm, List.countP_eq_zero]
    simp [tally]
  constructor
  · rintro ⟨happroved, hrejected, htimedOut⟩ task htask
    exact not_complete_of_tally ((hzero .approved).mp happroved task htask)
      ((hzero .rejected).mp hrejected task htask) ((hzero .timedOut).mp htimedOut task htask)
  · intro h
    have hopen (task : DeliberationTask M) (htask : task ∈ tasks.values) :=
      tally_of_not_complete (h task htask)
    exact ⟨(hzero .approved).mpr fun task htask => (hopen task htask).1,
      (hzero .rejected).mpr fun task htask => (hopen task htask).2.1,
      (hzero .timedOut).mpr fun task htask => (hopen task htask).2.2⟩

/-- The counters are right at first, and every event of a run does what it may. -/
def OutcomesRespected (partition : String → Fin 4) (S : System M) (es : List (Event M)) : Prop :=
  S.queue.Tallied ∧ Along (System.step partition) (Respects partition) S es

/-- **The outcomes are respected exactly where the calls see to it**: over every run of a queue from
the tasks that it has loaded, the review requirement, the finality of the outcomes and the counters
hold if and only if no loaded task is complete and every event is `Sound` in the state it finds. -/
theorem outcomes_respected_iff (partition : String → Fin 4)
    (tasks : Dict String (DeliberationTask M)) (consensusThreshold : ℚ) (defaultTimeout : ℤ)
    (es : List (Event M)) :
    OutcomesRespected partition (.start tasks consensusThreshold defaultTimeout) es ↔
      (∀ task ∈ tasks.values, task.isComplete = false) ∧
      Along (System.step partition) Sound (.start tasks consensusThreshold defaultTimeout) es := by
  unfold OutcomesRespected
  rw [tallied_start_iff]
  refine and_congr_right fun hopen => ?_
  have hsettled : Settled (System.start tasks consensusThreshold defaultTimeout) :=
    ⟨(tallied_start_iff ..).mpr hopen, fun _ h => by cases h⟩
  exact along_iff Settled hsettled (fun S e hS => respects_iff hS e) fun S e hS h => hS.step h

/-- A task that a human has to review, with the votes of some agents to approve it. -/
def reviewed (agents : List String) : System Unit :=
  run (System.step fun _ => 0) (.start .empty (66 / 100) 300)
    (.enqueue "t" () true true none 0 ::
      agents.map fun agentId => .vote "t" ⟨agentId, .approve, "", 1⟩)

/-- Five agents approve what a human has to review. -/
theorem five_approvals_not_respected :
    ¬ OutcomesRespected (fun _ => 0) (.start .empty (66 / 100) 300)
      (.enqueue "t" () true true none 0 ::
        ["a", "b", "c", "d", "e"].map fun agentId => .vote "t" ⟨agentId, .approve, "", 1⟩) := by
  rintro ⟨-, -, -, -, -, -, hlast, -⟩
  have hbefore : ((reviewed ["a", "b", "c", "d"]).queue.tasks.get "t").map
      DeliberationTask.status = some .pending := by decide +kernel
  have hafter : ((reviewed ["a", "b", "c", "d", "e"]).queue.tasks.get "t").map
      (fun task => (task.requiresHuman, task.status)) = some (true, .approved) := by decide +kernel
  obtain ⟨task', hget', heq⟩ := Option.map_eq_some_iff.mp hafter
  obtain ⟨hhuman, hstatus⟩ := Prod.mk.inj heq
  obtain hdecision | ⟨task, hget, happroved⟩ := hlast.review "t" task' hget' hhuman hstatus
  · exact hdecision
  · have hget : (reviewed ["a", "b", "c", "d"]).queue.tasks.get "t" = some task := hget
    rw [hget, Option.map_some, happroved] at hbefore
    cases hbefore

end EnhancedAgentBus.Queue
