import EnhancedAgentBus.Bus.Idempotency

/-!
# Merged calls

Calls under one key are merged as they should be in runs in which a key is not used for two messages
at once, and no call is cancelled while others await its task (`merges_of_along`).
-/

namespace EnhancedAgentBus.Bus

open Security

/-! ## What is asked of the calls -/

section Asked

variable [LowerTable]

/-- Two messages of the same tenant, sender, recipient and content. -/
structure SameMessage (msg msg' : AgentMessage) : Prop where
  tenant : normalizeOrDefault msg.tenantId = normalizeOrDefault msg'.tenantId
  fromAgent : msg.fromAgent = msg'.fromAgent
  toAgent : msg.toAgent = msg'.toAgent
  content : msg.content = msg'.content

theorem SameMessage.refl (msg : AgentMessage) : SameMessage msg msg := ⟨rfl, rfl, rfl, rfl⟩

theorem SameMessage.symm {msg msg' : AgentMessage} (h : SameMessage msg msg') :
    SameMessage msg' msg :=
  ⟨h.tenant.symm, h.fromAgent.symm, h.toAgent.symm, h.content.symm⟩

theorem SameMessage.trans {msg msg' msg'' : AgentMessage} (h : SameMessage msg msg')
    (h' : SameMessage msg' msg'') : SameMessage msg msg'' :=
  ⟨h.tenant.trans h'.tenant, h.fromAgent.trans h'.fromAgent, h.toAgent.trans h'.toAgent,
    h.content.trans h'.content⟩

/-- Calls of one tenant that are in flight under one key await one task. -/
def OneForEachKey (s : SendState) : Prop :=
  ∀ cid cid' call call', s.InFlight cid call → s.InFlight cid' call' →
    call.idempotencyKey = call'.idempotencyKey →
      normalizeOrDefault call.message.tenantId = normalizeOrDefault call'.message.tenantId →
        call.task = call'.task

/-- Calls of one tenant that are in flight under one key await one task.  A call that is not
cancelled gets what its task has returned or raised, and goes on with it once the task has ended.  A
task is of the message of each of its calls, and calls of different messages do not share one. -/
structure MergesRetries (s : SendState) : Prop where
  once : OneForEachKey s
  returned : ∀ cid call outcome, s.calls.get cid = some call → call.cancelled = false →
    call.outcome = some outcome →
      outcome.isCancelled = false ∧ (s.tasks.get call.task).bind SendTask.outcome = some outcome
  returns : ∀ cid call outcome, s.InFlight cid call → call.cancelled = false →
    (s.tasks.get call.task).bind SendTask.outcome = some outcome →
      outcome.isCancelled = false ∧
        ((s.wakeCall cid).calls.get cid).bind SendCall.outcome = some outcome
  own : ∀ cid call, s.calls.get cid = some call →
    ∃ task, s.tasks.get call.task = some task ∧ SameMessage call.message task.message
  apart : ∀ cid cid' call call', s.calls.get cid = some call → s.calls.get cid' = some call' →
    call.task = call'.task → SameMessage call.message call'.message

/-! ## When it is met -/

/-- A call that finds a task under its key is of the same message as the task, which nobody has asked
to stop; and one that finds none is not of the tenant of a call that is in flight under the key.  A
call whose task runs is cancelled only if no other call that is not cancelled awaits the task. -/
def MayHappen (s : SendState) : SendEvent → Prop
  | .start _ msg => ∀ key, resolveIdempotencyKey msg = some key →
      (∀ tid task, s.inflight.get key = some tid → s.tasks.get tid = some task →
        SameMessage msg task.message ∧ task.isUndisturbed = true) ∧
      (s.inflight.get key = none → ∀ cid call, s.InFlight cid call → call.idempotencyKey = key →
        normalizeOrDefault msg.tenantId ≠ normalizeOrDefault call.message.tenantId)
  | .cancel cid => ∀ call task, s.InFlight cid call → s.tasks.get call.task = some task →
      task.outcome = none → ∀ cid' call', cid' ≠ cid → s.calls.get cid' = some call' →
        call'.task = call.task → call'.cancelled = true
  | .finish _ _ => True
  | .wake _ => True

/-! ## The invariant -/

structure AgreesWith (task : SendTask) (call : SendCall) : Prop where
  same : SameMessage call.message task.message
  undisturbed : call.cancelled = false → task.isUndisturbed = true
  told : call.cancelled = false → ∀ outcome, call.outcome = some outcome →
    task.outcome = some outcome
  late : call.mustCancel = true → call.cancelled = true

/-- What holds between the tasks, the table and the calls. -/
structure Tidy (s : SendState) : Prop where
  agree : ∀ cid call, s.calls.get cid = some call →
    ∃ task, s.tasks.get call.task = some task ∧ AgreesWith task call
  started : ∀ tid task, s.tasks.get tid = some task → s.calls.get tid ≠ none
  kept : ∀ key tid, s.inflight.get key = some tid →
    ∃ call, s.InFlight tid call ∧ call.idempotencyKey = key ∧ call.task = tid ∧
      call.createdTask = true
  once : OneForEachKey s

variable {s : SendState}

theorem tidy_empty : Tidy {} where
  agree _ _ hcall := by rw [Dict.get_empty] at hcall; cases hcall
  started _ _ htask := by rw [Dict.get_empty] at htask; cases htask
  kept _ _ htid := by rw [Dict.get_empty] at htid; cases htid
  once := by
    rintro cid cid' call call' ⟨hcall, -⟩
    rw [Dict.get_empty] at hcall
    cases hcall

theorem Tidy.task_ne (h : Tidy s) {cid cid' : ℕ} {call : SendCall} (hfresh : s.calls.get cid' = none)
    (hcall : s.calls.get cid = some call) : call.task ≠ cid' := by
  rintro rfl
  obtain ⟨task, htask, -⟩ := h.agree cid call hcall
  exact h.started call.task task htask hfresh

omit [LowerTable] in
theorem SendState.InFlight.set {cid c : ℕ} {call : SendCall} (h : s.InFlight c call)
    (hfresh : s.calls.get cid = none) {tasks : Dict ℕ SendTask} {inflight : Dict String ℕ}
    (new : SendCall) :
    SendState.InFlight
      { tasks := tasks, inflight := inflight, calls := s.calls.set cid new } c call := by
  obtain ⟨hcall, hout⟩ := h
  have hne : c ≠ cid := by
    rintro rfl
    rw [hfresh] at hcall
    cases hcall
  exact ⟨by rw [Dict.get_set, if_neg hne, hcall], hout⟩

theorem OneForEachKey.add (h : OneForEachKey s) {s' : SendState} (cid : ℕ) {new : SendCall}
    (hcalls : s'.calls = s.calls.set cid new)
    (hnew : ∀ c call, s.InFlight c call → call.idempotencyKey = new.idempotencyKey →
      normalizeOrDefault call.message.tenantId = normalizeOrDefault new.message.tenantId →
        call.task = new.task) : OneForEachKey s' := by
  rintro c c' call call' ⟨hcall, hout⟩ ⟨hcall', hout'⟩ hkeys htenants
  rw [hcalls] at hcall hcall'
  rcases Dict.get_set_cases hcall with ⟨-, rfl⟩ | ⟨-, hcall⟩
  · rcases Dict.get_set_cases hcall' with ⟨-, rfl⟩ | ⟨-, hcall'⟩
    · rfl
    · exact (hnew c' call' ⟨hcall', hout'⟩ hkeys.symm htenants.symm).symm
  · rcases Dict.get_set_cases hcall' with ⟨-, rfl⟩ | ⟨-, hcall'⟩
    · exact hnew c call ⟨hcall, hout⟩ hkeys htenants
    · exact h c c' call call' ⟨hcall, hout⟩ ⟨hcall', hout'⟩ hkeys htenants

theorem Tidy.startNew (h : Tidy s) {cid : ℕ} {msg : AgentMessage} {key : String}
    (hfresh : s.calls.get cid = none)
    (hmay : ∀ cid call, s.InFlight cid call → call.idempotencyKey = key →
      normalizeOrDefault msg.tenantId ≠ normalizeOrDefault call.message.tenantId) :
    Tidy
      { tasks := s.tasks.set cid { message := msg }
        inflight := s.inflight.set key cid
        calls := s.calls.set cid
          { message := msg, idempotencyKey := key, task := cid, createdTask := true } } := by
  constructor
  · intro cid' call hcall
    rcases Dict.get_set_cases hcall with ⟨-, rfl⟩ | ⟨-, hcall⟩
    · refine ⟨{ message := msg }, by rw [Dict.get_set, if_pos rfl], ?_⟩
      exact ⟨.refl msg, fun _ => rfl, nofun, nofun⟩
    · rw [Dict.get_set, if_neg (h.task_ne hfresh hcall)]
      exact h.agree cid' call hcall
  · intro tid task htask
    rcases Dict.get_set_cases htask with ⟨rfl, -⟩ | ⟨-, htask⟩
    · rw [Dict.get_set, if_pos rfl]
      exact Option.some_ne_none _
    · exact Dict.get_set_ne_none (h.started tid task htask) _ _
  · intro key' tid htid
    rcases Dict.get_set_cases htid with ⟨hkey, rfl⟩ | ⟨-, htid⟩
    · exact ⟨_, ⟨by rw [Dict.get_set, if_pos rfl], rfl⟩, hkey.symm, rfl, rfl⟩
    · obtain ⟨call, hcall, hrest⟩ := h.kept key' tid htid
      exact ⟨call, hcall.set hfresh _, hrest⟩
  · refine h.once.add cid rfl fun c call hcall hkey htenant => ?_
    exact absurd htenant.symm (hmay c call hcall hkey)

theorem Tidy.join (h : Tidy s) {cid tid : ℕ} {msg : AgentMessage} {key : String}
    (hfresh : s.calls.get cid = none) (hfound : s.inflight.get key = some tid)
    (hmay : ∀ task, s.tasks.get tid = some task →
      SameMessage msg task.message ∧ task.isUndisturbed = true) :
    Tidy
      { s with
        calls := s.calls.set cid
          { message := msg, idempotencyKey := key, task := tid, createdTask := false,
            outcome := (s.tasks.get tid).bind SendTask.outcome } } := by
  obtain ⟨starter, hstarter, hkey, htid, hcreated⟩ := h.kept key tid hfound
  obtain ⟨task, htask, hagrees⟩ := h.agree tid starter hstarter.1
  rw [htid] at htask
  obtain ⟨hsame, hundisturbed⟩ := hmay task htask
  constructor
  · intro cid' call hcall
    rcases Dict.get_set_cases hcall with ⟨-, rfl⟩ | ⟨-, hcall⟩
    · refine ⟨task, htask, hsame, fun _ => hundisturbed, fun _ outcome hout => ?_, nofun⟩
      dsimp only at hout
      rwa [htask, Option.bind_some] at hout
    · exact h.agree cid' call hcall
  · exact fun tid' task' htask' => Dict.get_set_ne_none (h.started tid' task' htask') _ _
  · intro key' tid' htid'
    obtain ⟨call, hcall, hrest⟩ := h.kept key' tid' htid'
    exact ⟨call, hcall.set hfresh _, hrest⟩
  · -- Whoever is in flight under the key awaits the task that was found.
    refine h.once.add cid rfl fun c call hcall hk ht => ?_
    rw [← htid]
    refine h.once c tid call starter hcall hstarter (hk.trans hkey.symm) ?_
    exact ht.trans (hsame.trans hagrees.same.symm).tenant

theorem Tidy.startCall (h : Tidy s) {cid : ℕ} {msg : AgentMessage}
    (hmay : MayHappen s (.start cid msg)) : Tidy (s.startCall cid msg) := by
  unfold SendState.startCall
  cases hfresh : s.calls.get cid with
  | some call => exact h
  | none =>
    rcases hkey : resolveIdempotencyKey msg with _ | key
    · exact h
    · obtain ⟨hfound, hnone⟩ := hmay key hkey
      dsimp only
      rcases hin : s.inflight.get key with _ | tid
      · exact h.startNew hfresh (hnone hin)
      · exact h.join hfresh hin fun task => hfound tid task hin

theorem Tidy.finishTask (h : Tidy s) (tid : ℕ) (outcome : RunOutcome) :
    Tidy (s.finishTask tid outcome) := by
  unfold SendState.finishTask
  rcases htask : s.tasks.get tid with _ | task
  · exact h
  · dsimp only
    cases hstatus : task.status with
    | ended _ => exact h
    | running cancelRequested =>
      dsimp only
      by_cases hasked : (outcome.isCancelled && !cancelRequested) = true
      · rw [if_pos hasked]
        exact h
      · rw [if_neg hasked]
        constructor
        · intro cid call hcall
          obtain ⟨task', htask', hagrees⟩ := h.agree cid call hcall
          by_cases htid : call.task = tid
          · rw [htid, htask] at htask'
            obtain rfl := Option.some.inj htask'
            refine ⟨{ task with status := .ended outcome }, by rw [Dict.get_set, if_pos htid],
              hagrees.same, fun hun => ?_, fun hun outcome' hout => ?_, hagrees.late⟩
            · have hrequested := hagrees.undisturbed hun
              unfold SendTask.isUndisturbed at hrequested ⊢
              rw [hstatus] at hrequested
              dsimp only at hrequested ⊢
              rw [hrequested, Bool.and_true] at hasked
              simpa using hasked
            · have htold := hagrees.told hun outcome' hout
              unfold SendTask.outcome at htold
              rw [hstatus] at htold
              cases htold
          · exact ⟨task', by rw [Dict.get_set, if_neg htid, htask'], hagrees⟩
        · intro tid' task' htask'
          rcases Dict.get_set_cases htask' with ⟨rfl, -⟩ | ⟨-, htask'⟩
          · exact h.started tid' task htask
          · exact h.started tid' task' htask'
        · exact h.kept
        · exact h.once

theorem OneForEachKey.set (h : OneForEachKey s) {s' : SendState} {cid : ℕ} {call call' : SendCall}
    (hcall : s.calls.get cid = some call) (hcalls : s'.calls = s.calls.set cid call')
    (hmessage : call'.message = call.message) (hkey : call'.idempotencyKey = call.idempotencyKey)
    (htask : call'.task = call.task) (hout : call'.outcome = none → call.outcome = none) :
    OneForEachKey s' := by
  have hbefore (c : ℕ) (later : SendCall) (hlater : s'.InFlight c later) :
      ∃ earlier, s.InFlight c earlier ∧ later.message = earlier.message ∧
        later.idempotencyKey = earlier.idempotencyKey ∧ later.task = earlier.task := by
    obtain ⟨hget, hnone⟩ := hlater
    rw [hcalls] at hget
    rcases Dict.get_set_cases hget with ⟨rfl, rfl⟩ | ⟨-, hget⟩
    · exact ⟨call, ⟨hcall, hout hnone⟩, hmessage, hkey, htask⟩
    · exact ⟨later, ⟨hget, hnone⟩, rfl, rfl, rfl⟩
  intro c c' later later' hlater hlater' hkeys htenants
  obtain ⟨earlier, hearlier, hm, hk, ht⟩ := hbefore c later hlater
  obtain ⟨earlier', hearlier', hm', hk', ht'⟩ := hbefore c' later' hlater'
  rw [hk, hk'] at hkeys
  rw [hm, hm'] at htenants
  rw [ht, ht']
  exact h c c' earlier earlier' hearlier hearlier' hkeys htenants

theorem Tidy.setCancelled (h : Tidy s) {tasks : Dict ℕ SendTask} {cid : ℕ} {call : SendCall}
    (hcall : s.InFlight cid call) (mustCancel : Bool)
    (hstarted : ∀ tid task, tasks.get tid = some task → s.tasks.get tid ≠ none)
    (hown : ∃ task, tasks.get call.task = some task ∧ SameMessage call.message task.message)
    (hagree : ∀ cid' call', cid' ≠ cid → s.calls.get cid' = some call' →
      ∃ task, tasks.get call'.task = some task ∧ AgreesWith task call') :
    Tidy
      { tasks := tasks
        inflight := s.inflight
        calls := s.calls.set cid
          { call with cancelled := true, mustCancel := mustCancel, outcome := none } } := by
  constructor
  · intro cid' call' hcall'
    rcases Dict.get_set_cases hcall' with ⟨-, rfl⟩ | ⟨hcid, hcall'⟩
    · obtain ⟨task, htask, hsame⟩ := hown
      exact ⟨task, htask, hsame, nofun, nofun, fun _ => rfl⟩
    · exact hagree cid' call' hcid hcall'
  · intro tid task htask
    obtain ⟨before, hbefore⟩ := Option.ne_none_iff_exists'.mp (hstarted tid task htask)
    exact Dict.get_set_ne_none (h.started tid before hbefore) _ _
  · intro key tid htid
    obtain ⟨starter, ⟨hget, hout⟩, hrest⟩ := h.kept key tid htid
    by_cases hcid : tid = cid
    · rw [hcid, hcall.1] at hget
      obtain rfl := Option.some.inj hget
      exact ⟨{ call with cancelled := true, mustCancel := mustCancel, outcome := none },
        ⟨by rw [Dict.get_set, if_pos hcid], rfl⟩, hrest⟩
    · exact ⟨starter, ⟨by rw [Dict.get_set, if_neg hcid, hget], hout⟩, hrest⟩
  · exact h.once.set hcall.1 rfl rfl rfl rfl fun _ => hcall.2

theorem Tidy.cancelCall (h : Tidy s) {cid : ℕ} (hmay : MayHappen s (.cancel cid)) :
    Tidy (s.cancelCall cid) := by
  unfold SendState.cancelCall
  rcases hcall : s.calls.get cid with _ | call
  · exact h
  · obtain ⟨task, htask, hagrees⟩ := h.agree cid call hcall
    dsimp only
    cases hout : call.outcome with
    | some outcome => exact h
    | none =>
      rw [htask]
      dsimp only
      cases hstatus : task.status with
      | running cancelRequested =>
        have hruns : task.outcome = none := by
          unfold SendTask.outcome
          rw [hstatus]
        refine h.setCancelled ⟨hcall, hout⟩ call.mustCancel ?_ ?_ ?_
        · intro tid task' htask'
          rcases Dict.get_set_cases htask' with ⟨rfl, -⟩ | ⟨-, htask'⟩
          · exact Option.ne_none_iff_exists'.mpr ⟨task, htask⟩
          · exact Option.ne_none_iff_exists'.mpr ⟨task', htask'⟩
        · exact ⟨{ task with status := .running true }, by rw [Dict.get_set, if_pos rfl],
            hagrees.same⟩
        · intro cid' call' hcid hcall'
          obtain ⟨task', htask', hagrees'⟩ := h.agree cid' call' hcall'
          rw [Dict.get_set]
          by_cases htid : call'.task = call.task
          · -- Nobody is left who has not been cancelled.
            have hcancelled := hmay call task ⟨hcall, hout⟩ htask hruns cid' call' hcid
              hcall' htid
            rw [htid, htask] at htask'
            obtain rfl := Option.some.inj htask'
            rw [if_pos htid]
            exact ⟨_, rfl, hagrees'.same, fun hun => absurd hcancelled (by rw [hun]; nofun),
              fun hun => absurd hcancelled (by rw [hun]; nofun), hagrees'.late⟩
          · rw [if_neg htid]
            exact ⟨task', htask', hagrees'⟩
      | ended outcome =>
        refine h.setCancelled ⟨hcall, hout⟩ true ?_ ⟨task, htask, hagrees.same⟩ ?_
        · exact fun tid task' htask' => Option.ne_none_iff_exists'.mpr ⟨task', htask'⟩
        · exact fun cid' call' _ hcall' => h.agree cid' call' hcall'

omit [LowerTable] in
theorem get_of_left {inflight : Dict String ℕ} {call : SendCall} {key : String} {tid : ℕ}
    (h : (if call.createdTask && inflight.get call.idempotencyKey == some call.task then
      inflight.erase call.idempotencyKey else inflight).get key = some tid) :
    inflight.get key = some tid ∧
      ¬(call.createdTask = true ∧ call.idempotencyKey = key ∧ call.task = tid) := by
  by_cases hmade : (call.createdTask &&
      inflight.get call.idempotencyKey == some call.task) = true
  · rw [if_pos hmade, Dict.get_erase] at h
    by_cases hkey : key = call.idempotencyKey
    · rw [if_pos hkey] at h
      cases h
    · rw [if_neg hkey] at h
      exact ⟨h, fun hsame => hkey hsame.2.1.symm⟩
  · rw [if_neg hmade] at h
    refine ⟨h, ?_⟩
    rintro ⟨hcreated, rfl, rfl⟩
    exact hmade (by simp [hcreated, h])

theorem Tidy.wakeCall (h : Tidy s) (cid : ℕ) : Tidy (s.wakeCall cid) := by
  unfold SendState.wakeCall
  rcases hcall : s.calls.get cid with _ | call
  · exact h
  · obtain ⟨task, htask, hagrees⟩ := h.agree cid call hcall
    dsimp only
    cases hout : call.outcome with
    | some outcome => exact h
    | none =>
      rw [htask, Option.bind_some]
      rcases houtcome : task.outcome with _ | outcome
      · exact h
      · constructor
        · intro cid' call' hcall'
          rcases Dict.get_set_cases hcall' with ⟨-, rfl⟩ | ⟨-, hcall'⟩
          · refine ⟨task, htask, hagrees.same, hagrees.undisturbed,
              fun hun outcome' hgot => ?_, hagrees.late⟩
            have hlate : call.mustCancel = false := by
              by_contra hmust
              have := hagrees.late (by simpa using hmust)
              rw [hun] at this
              cases this
            dsimp only at hgot
            rw [hlate] at hgot
            rw [houtcome]
            exact hgot
          · exact h.agree cid' call' hcall'
        · exact fun tid task' htask' => Dict.get_set_ne_none (h.started tid task' htask') _ _
        · intro key tid htid
          obtain ⟨htid, hne⟩ := get_of_left htid
          obtain ⟨starter, ⟨hget, hnone⟩, hkey, htask', hcreated⟩ := h.kept key tid htid
          by_cases hcid : tid = cid
          · rw [hcid, hcall] at hget
            obtain rfl := Option.some.inj hget
            exact absurd ⟨hcreated, hkey, htask'⟩ hne
          · exact ⟨starter, ⟨by rw [Dict.get_set, if_neg hcid, hget], hnone⟩, hkey, htask',
              hcreated⟩
        · exact h.once.set hcall rfl rfl rfl rfl nofun

theorem Tidy.step (h : Tidy s) {event : SendEvent} (hmay : MayHappen s event) :
    Tidy (s.step event) := by
  cases event with
  | start cid msg => exact h.startCall hmay
  | finish tid outcome => exact h.finishTask tid outcome
  | cancel cid => exact h.cancelCall hmay
  | wake cid => exact h.wakeCall cid

/-! ## What follows from it -/

omit [LowerTable] in
theorem SendTask.not_isCancelled {task : SendTask} {outcome : RunOutcome}
    (h : task.isUndisturbed = true) (hout : task.outcome = some outcome) :
    outcome.isCancelled = false := by
  unfold SendTask.isUndisturbed at h
  unfold SendTask.outcome at hout
  cases hstatus : task.status with
  | running cancelRequested =>
    rw [hstatus] at hout
    cases hout
  | ended outcome' =>
    rw [hstatus] at h hout
    obtain rfl := Option.some.inj hout
    simpa using h

theorem Tidy.mergesRetries (h : Tidy s) : MergesRetries s := by
  constructor
  · exact h.once
  · intro cid call outcome hcall hun hout
    obtain ⟨task, htask, hagrees⟩ := h.agree cid call hcall
    have htold := hagrees.told hun outcome hout
    refine ⟨SendTask.not_isCancelled (hagrees.undisturbed hun) htold, ?_⟩
    rw [htask, Option.bind_some, htold]
  · rintro cid call outcome ⟨hcall, hout⟩ hun hended
    obtain ⟨task, htask, hagrees⟩ := h.agree cid call hcall
    have htold : task.outcome = some outcome := by
      rwa [htask, Option.bind_some] at hended
    have hlate : call.mustCancel = false :=
      Bool.eq_false_iff.mpr fun hmust => absurd (hagrees.late hmust) (by rw [hun]; nofun)
    refine ⟨SendTask.not_isCancelled (hagrees.undisturbed hun) htold, ?_⟩
    unfold SendState.wakeCall
    rw [hcall]
    dsimp only
    rw [hout, hended]
    dsimp only
    rw [Dict.get_set, if_pos rfl, Option.bind_some, hlate]
    rfl
  · intro cid call hcall
    obtain ⟨task, htask, hagrees⟩ := h.agree cid call hcall
    exact ⟨task, htask, hagrees.same⟩
  · intro cid cid' call call' hcall hcall' heq
    obtain ⟨task, htask, hagrees⟩ := h.agree cid call hcall
    obtain ⟨task', htask', hagrees'⟩ := h.agree cid' call' hcall'
    rw [heq, htask'] at htask
    obtain rfl := Option.some.inj htask
    exact hagrees.same.trans hagrees'.same.symm

/-- **Idempotent sending.**  In a run in which each call that finds a task under its key is of the
message of the task, which was not asked to stop, in which no key is used again by the tenant of a
call that has yet to return, and in which no call is cancelled while its task runs and other calls
await it, the calls are merged as they should be. -/
theorem merges_of_along (events : List SendEvent)
    (h : Machine.Along SendState.step MayHappen {} events) :
    MergesRetries (Machine.run SendState.step {} events) :=
  (h.invariant Tidy tidy_empty fun _ _ htidy hmay => htidy.step hmay).mergesRetries

end Asked

def keyed (tenantId : String) : AgentMessage where
  messageId := "m"
  conversationId := "c"
  fromAgent := "sender"
  toAgent := "recipient"
  tenantId := some tenantId
  idempotencyKey := some "retry-1"

/-- Two calls of a message, of which the second waits for the task of the first. -/
theorem merges_two_calls :
    @MergesRetries asciiLower (Machine.run SendState.step {}
      [.start 0 (keyed "acme"), .start 1 (keyed "acme"), .finish 0 (.returned {}), .wake 0,
        .wake 1]) := by
  refine @merges_of_along asciiLower _ ⟨?_, ?_, trivial, trivial, trivial, trivial⟩
  · intro key _
    refine ⟨fun tid task hfound => ?_, fun _ cid call hcall => ?_⟩
    · rw [Dict.get_empty] at hfound
      cases hfound
    · cases hcall.1
  · intro key hkey
    obtain rfl : "retry-1" = key := Option.some.inj hkey
    refine ⟨fun tid task hfound htask => ?_, fun hnone => absurd hnone (by decide)⟩
    obtain rfl : 0 = tid := Option.some.inj hfound
    obtain rfl : { message := keyed "acme" } = task := Option.some.inj htask
    exact ⟨@SameMessage.refl asciiLower _, rfl⟩

/-- A call of another tenant waits for the task of the first, and a call that was not cancelled is
told that it was. -/
theorem calls_share_and_cancel :
    ¬@MergesRetries asciiLower (Machine.run SendState.step {}
      [.start 0 (keyed "acme"), .start 1 (keyed "globex")]) ∧
    ¬@MergesRetries asciiLower (Machine.run SendState.step {}
      [.start 0 (keyed "acme"), .start 1 (keyed "acme"), .cancel 0, .finish 0 .cancelled, .wake 0,
        .wake 1]) := by
  constructor
  · rintro ⟨-, -, -, -, hapart⟩
    obtain ⟨htenant, -⟩ := hapart 0 1 _ _ rfl rfl rfl
    exact absurd htenant (by decide +kernel)
  · rintro ⟨-, hreturned, -, -, -⟩
    have hnot := (hreturned 1 _ .cancelled rfl rfl rfl).1
    exact absurd hnot (by decide)

end EnhancedAgentBus.Bus
