import EnhancedAgentBus.Deliberation.VotingService
import EnhancedAgentBus.Lib.Machine

/-!
# The vote consumer

`VoteEventConsumer` hands the vote events of a topic to the voting service one by one, and commits
its position after each.  A commit is one of the consumer, not of the event: it covers every message
that was handed out so far.

The state has the loops that are under way, each under the number of the start that began it, since
`stop` does not wait for them and `start` puts another consumer in the place that they commit
through.  A message is handed out from the position of the consumer, which begins at the committed
offsets.

A handling that fails ends in one of three ways.  It raises, and nothing is committed then; or it
returns early, or stores the vote in the memory of the process, and the commit follows.  In each case
the next commit covers the event.  So `troubled` remembers, from one start to the next, whether the
store has failed a handling before its vote was recorded, and `no_vote_skipped` asks that no commit
takes effect then.

### What is load-bearing

`due`, `repeated` and `troubled` are ghosts: no branch reads them.  An event is due from the first
time that it is handed out while its election is stored and open.
-/

namespace EnhancedAgentBus.Deliberation

open Async Async.Prog

structure VoteEvent where
  electionId : String
  agentId : String
  decision : String
  reasoning : Option String := none
  timestamp : Time := 0
  electionId_ne : electionId ≠ "" := by decide
  agentId_ne : agentId ≠ "" := by decide
  decision_ne : decision ≠ "" := by decide

def VoteEvent.vote (e : VoteEvent) : Vote := ⟨e.agentId, e.decision, e.reasoning, e.timestamp⟩

/-- What `get_election_store` ends with. -/
inductive Availability where
  | ready
  | absent
  | raises (e : RedisError)
  deriving DecidableEq

/-- `_handle_vote_event`.  The audit record, whose errors are caught, is left out. -/
def VotingService.handleVoteEvent (S : VotingService) (store : Availability) (e : VoteEvent) :
    Code Unit := do
  if e.electionId = "" ∨ e.agentId = "" ∨ e.decision = "" then return ()
  else
    match store with
    | .absent => return ()
    | .raises error => .raise error
    | .ready =>
      match ← S.getElection none e.electionId with
      | none => return ()
      | some election =>
        -- deduplicate: the agent has already voted
        if (election.votes.get e.agentId).isSome then return ()
        else
          let _ ← S.castVote e.electionId e.vote
          return ()

inductive Doing where
  /-- not started, or over -/
  | ended
  /-- at the top of its loop -/
  | waiting
  /-- with a message, and the rest of its handling -/
  | handling (partition offset : ℕ) (e : VoteEvent) (rest : Code Unit)

def Doing.Idle : Doing → Prop
  | .handling _ _ _ _ => False
  | _ => True

structure Consumer where
  stores : Stores
  committed : ℕ → ℕ := fun _ => 0
  /-- the next message of `self.consumer`, for each partition -/
  position : ℕ → ℕ := fun _ => 0
  /-- `self.consumer` is there and not stopped -/
  alive : Bool := false
  running : Bool := false
  generation : ℕ := 0
  loops : ℕ → Doing := fun _ => .ended
  due : ℕ × ℕ → Bool := fun _ => false
  repeated : ℕ × ℕ → Bool := fun _ => false
  troubled : Bool := false

/-- The vote of the event is stored in its election. -/
def Recorded (e : VoteEvent) (s : Stores) : Prop :=
  ∃ d, s.redis e.electionId = some d ∧ d.votes.get e.agentId = some e.vote

instance (e : VoteEvent) (s : Stores) : Decidable (Recorded e s) :=
  match h : s.redis e.electionId with
  | none => isFalse fun ⟨d, hd, _⟩ => by rw [h] at hd; cases hd
  | some d =>
    decidable_of_iff (d.votes.get e.agentId = some e.vote)
      ⟨fun hv => ⟨d, h, hv⟩, fun ⟨d', hd', hv⟩ => by rw [h] at hd'; cases hd'; exact hv⟩

def electionOpen (e : VoteEvent) (s : Stores) : Bool :=
  (s.redis e.electionId).any (·.status = .open)

/-- The agent of the event has a vote in the election. -/
def voted (e : VoteEvent) (s : Stores) : Bool :=
  (s.redis e.electionId).any fun d => (d.votes.get e.agentId).isSome

/-- The agent of the event is a participant of the election. -/
def participates (e : VoteEvent) (s : Stores) : Bool :=
  (s.redis e.electionId).any fun d => e.agentId ∈ d.participants

def Answer.isFailure : Answer → Bool
  | .fails _ _ => true
  | _ => false

namespace Consumer

inductive Event where
  | start
  /-- `stop` has taken `_running` back -/
  | stop
  /-- the consumer of a `stop` has stopped -/
  | stopped
  /-- the process dies -/
  | crash
  | handOut (partition : ℕ) (store : Availability)
  /-- the next operation of a handling -/
  | act (loop : ℕ) (answer : Answer)
  /-- a handling has returned, and the commit after it succeeds or fails -/
  | finish (loop : ℕ) (commits : Bool)
  /-- a handling has raised an exception that the loop catches, or does not -/
  | fail (loop : ℕ) (caught : Bool)
  /-- a loop leaves, and stops what is `self.consumer` then -/
  | leave (loop : ℕ)

variable (S : VotingService) (topic : ℕ → List VoteEvent)

/-- A new consumer begins at the committed offsets. -/
def start (s : Consumer) : Consumer :=
  { s with
    position := s.committed
    alive := true
    running := true
    generation := s.generation + 1
    loops := Function.update s.loops (s.generation + 1) .waiting
    troubled := false }

/-- `self.consumer` hands its loop the next message of a partition. -/
def handOut (s : Consumer) (partition : ℕ) (store : Availability) (e : VoteEvent) : Consumer :=
  let offset := s.position partition
  let due := s.due (partition, offset) || electionOpen e s.stores
  let repeated := s.repeated (partition, offset) || voted e s.stores
  let served := store = .ready && S.electionStore && electionOpen e s.stores &&
    participates e s.stores
  { s with
    position := Function.update s.position partition (offset + 1)
    loops := Function.update s.loops s.generation
      (.handling partition offset e (S.handleVoteEvent store e))
    due := Function.update s.due (partition, offset) due
    repeated := Function.update s.repeated (partition, offset) repeated
    troubled := s.troubled || (due && !repeated && !served) }

/-- An operation of a handling has been answered. -/
def acted (s : Consumer) (loop partition offset : ℕ) (e : VoteEvent) (answer : Answer)
    (rest : Code Unit) (stores : Stores) : Consumer :=
  { s with
    stores := stores
    loops := Function.update s.loops loop (.handling partition offset e rest)
    troubled := s.troubled || (answer.isFailure && s.due (partition, offset) &&
      !s.repeated (partition, offset) && !decide (Recorded e stores)) }

def left (s : Consumer) (loop : ℕ) : Consumer :=
  { s with loops := Function.update s.loops loop .ended, alive := false }

def step (s : Consumer) : Event → Consumer
  | .start => if s.alive then s else s.start
  | .stop => { s with running := false }
  | .stopped => if s.running then s else { s with alive := false }
  | .crash =>
    { s with
      stores :=
        { s.stores with memory := Function.update s.stores.memory S.process fun _ => none }
      alive := false
      running := false
      loops := fun _ => .ended }
  | .handOut partition store =>
    match s.alive, s.loops s.generation, (topic partition)[s.position partition]? with
    | true, .waiting, some e =>
      if s.running then s.handOut S partition store e
      else
        -- `break`, and the loop is over
        { s.left s.generation with
          position := Function.update s.position partition (s.position partition + 1) }
    | _, _, _ => s
  | .act loop answer =>
    match s.loops loop with
    | .handling partition offset e (.await o k) =>
      match s.stores.perform o answer with
      | some (r, stores) => s.acted loop partition offset e answer (k r) stores
      | none => s
    | _ => s
  | .finish loop commits =>
    match s.loops loop with
    | .handling _ _ _ (.done _) =>
      { s with
        loops := Function.update s.loops loop .waiting
        committed := if s.alive && commits then s.position else s.committed }
    | _ => s
  | .fail loop caught =>
    match s.loops loop with
    | .handling _ _ _ (.raise _) =>
      if caught then { s with loops := Function.update s.loops loop .waiting }
      else s.left loop
    | _ => s
  | .leave loop =>
    match s.loops loop with
    | .waiting => s.left loop
    | _ => s

/-- **No vote is skipped**: every event before the committed offset that was due has been recorded,
or was a repeat for an agent with a recorded vote. -/
def NoVoteSkipped (s : Consumer) : Prop :=
  ∀ partition offset e, offset < s.committed partition → (topic partition)[offset]? = some e →
    s.due (partition, offset) = true →
      s.repeated (partition, offset) = true ∨ Recorded e s.stores

/-- What is asked of an event: a start finds no handling under way, a commit that takes effect finds
no trouble since the start, and the store does not fail while the service has the election in its
own memory as well. -/
def Careful (s : Consumer) : Event → Prop
  | .start => s.alive = true ∨ ∀ loop, (s.loops loop).Idle
  | .finish _ commits => s.alive = true → commits = true → s.troubled = false
  | .act loop answer => ∀ partition offset e rest,
      s.loops loop = .handling partition offset e rest → answer.isFailure = true →
        s.stores.memory S.process e.electionId = none
  | _ => True

end Consumer

/-! ## One handling -/

/-- A step of the stores, with what a failure implies. -/
def Under (F : Stores → Stores → Prop) (s : Stores) (o : Op) (r : o.Resp) (s' : Stores) : Prop :=
  ∃ a, s.perform o a = some (r, s') ∧ (a.isFailure = true → F s s')

/-- An operation takes no vote out of a stored election. -/
def Op.KeepsVotes (s : Stores) : Op → Prop
  | .setex _ electionId _ _ data => ∀ d, s.redis electionId = some d → ∀ agentId v,
      d.votes.get agentId = some v → data.votes.get agentId = some v
  | _ => True

section Steps

variable {F : Stores → Stores → Prop} {s s' : Stores}

theorem under_get {service : ℕ} {write : Option Write} {electionId : String}
    {r : Except RedisError (Option ElectionData)}
    (h : Under F s (.get service write electionId) r s') :
    s' = s ∧ (r = .ok (s.redis electionId) ∨ (∃ error, r = .error error) ∧ F s s) := by
  obtain ⟨a, ha, hF⟩ := h
  cases a with
  | plain =>
    obtain ⟨rfl, rfl⟩ := some_eq_answer.mp ha
    exact ⟨rfl, .inl rfl⟩
  | fails error applied =>
    obtain ⟨rfl, rfl⟩ := some_eq_answer.mp ha
    exact ⟨rfl, .inr ⟨⟨error, rfl⟩, hF rfl⟩⟩
  | _ => exact absurd ha nofun

theorem under_ttl {write : Write} {electionId : String} {r : Except RedisError ℤ}
    (h : Under F s (.ttl write electionId) r s') :
    s' = s ∧ ((∃ ttl, r = .ok ttl) ∨ (∃ error, r = .error error) ∧ F s s) := by
  obtain ⟨a, ha, hF⟩ := h
  cases a with
  | remaining ttl =>
    obtain ⟨rfl, rfl⟩ := some_eq_answer.mp ha
    exact ⟨rfl, .inl ⟨ttl, rfl⟩⟩
  | fails error applied =>
    obtain ⟨rfl, rfl⟩ := some_eq_answer.mp ha
    exact ⟨rfl, .inr ⟨⟨error, rfl⟩, hF rfl⟩⟩
  | _ => exact absurd ha nofun

theorem under_setex {write : Write} {electionId : String} {ttl : ℤ} {basis : Option ElectionData}
    {data : ElectionData} {r : Except RedisError Unit}
    (h : Under F s (.setex write electionId ttl basis data) r s') :
    (s' = s ∨ s' = s.setRedis electionId data) ∧
      (r = .ok () ∧ s' = s.setRedis electionId data ∨ (∃ error, r = .error error) ∧ F s s') := by
  obtain ⟨a, ha, hF⟩ := h
  cases a with
  | plain =>
    obtain ⟨rfl, rfl⟩ := some_eq_answer.mp ha
    exact ⟨.inr rfl, .inl ⟨rfl, rfl⟩⟩
  | fails error applied =>
    obtain ⟨rfl, rfl⟩ := some_eq_answer.mp ha
    refine ⟨?_, .inr ⟨⟨error, rfl⟩, hF rfl⟩⟩
    cases applied with
    | true => exact .inr rfl
    | false => exact .inl rfl
  | _ => exact absurd ha nofun

theorem under_memoryGet {service : ℕ} {electionId : String} {r : Option ElectionData}
    (h : Under F s (.memoryGet service electionId) r s') :
    r = s.memory service electionId ∧ s' = s :=
  step_memoryGet.mp (h.imp fun _ ha => ha.1)

theorem redis_assignMemory (service : ℕ) (electionId : String)
    (set : ElectionData → ElectionData) (s : Stores) :
    (s.assignMemory service electionId set).redis = s.redis := by
  rw [Stores.assignMemory]
  split <;> rfl

theorem Recorded.step {e : VoteEvent} {o : Op} {r : o.Resp} (h : Recorded e s)
    (hkeeps : o.KeepsVotes s) (hstep : Under F s o r s') : Recorded e s' := by
  obtain ⟨d, hd, hv⟩ := h
  have hperform : Step s o r s' := hstep.imp fun _ ha => ha.1
  cases o with
  | uuid4 => exact ⟨d, by rw [(step_uuid4.mp hperform).2]; exact hd, hv⟩
  | now => exact ⟨d, by rw [(step_now.mp hperform).2]; exact hd, hv⟩
  | get service write electionId => exact ⟨d, by rw [(step_get.mp hperform).2]; exact hd, hv⟩
  | ttl write electionId => exact ⟨d, by rw [step_ttl.mp hperform]; exact hd, hv⟩
  | memoryGet service electionId =>
    exact ⟨d, by rw [(step_memoryGet.mp hperform).2]; exact hd, hv⟩
  | remember service electionId data =>
    exact ⟨d, by rw [step_remember.mp hperform]; exact hd, hv⟩
  | assign service electionId set =>
    exact ⟨d, by rw [step_assign.mp hperform, redis_assignMemory]; exact hd, hv⟩
  | setex write electionId ttl basis data =>
    rcases step_setex.mp hperform with rfl | ⟨rfl, -⟩
    · by_cases hid : e.electionId = electionId
      · subst hid
        exact ⟨data, Function.update_self .., hkeeps d hd _ _ hv⟩
      · exact ⟨d, (Function.update_of_ne hid ..).trans hd, hv⟩
    · exact ⟨d, hd, hv⟩

end Steps

/-- After a failure the vote of the event was not recorded. -/
def Missed (F : Stores → Stores → Prop) (e : VoteEvent) : Prop :=
  ∃ s s', F s s' ∧ ¬Recorded e s'

theorem recorded_or_missed {F : Stores → Stores → Prop} {s s' : Stores} {e : VoteEvent}
    (h : F s s') : Recorded e s' ∨ Missed F e := by
  by_cases hrecorded : Recorded e s'
  · exact .inl hrecorded
  · exact .inr ⟨s, s', h, hrecorded⟩

def Wrote (F : Stores → Stores → Prop) (electionId : String) (data : ElectionData)
    (s t : Stores) : Prop :=
  (t = s ∨ t = s.setRedis electionId data) ∧ (t = s.setRedis electionId data ∨ F s t)

theorem Wrote.redis {F : Stores → Stores → Prop} {electionId : String} {d data : ElectionData}
    {s t : Stores} (h : Wrote F electionId data s t) (hd : s.redis electionId = some d) :
    t.redis electionId = some d ∨ t.redis electionId = some data := by
  rcases h.1 with rfl | rfl
  · exact .inl hd
  · exact .inr (Function.update_self ..)

section Handling

variable {S : VotingService} {F : Stores → Stores → Prop} {e : VoteEvent} {s : Stores}
variable {electionId : String} {d : ElectionData}

theorem getElection_safe {write : Option Write} :
    Safe (Under F) (fun s o => o.KeepsVotes s) (S.getElection write electionId) s
      (fun found t => t = s ∧ (found = s.redis electionId ∨ found = none ∧ F s s))
      fun _ t => t = s ∧ F s s := by
  simp only [VotingService.getElection, safe_bind, safe_perform]
  refine ⟨trivial, fun r t hstep => ?_⟩
  obtain ⟨rfl, rfl | ⟨⟨error, rfl⟩, hF⟩⟩ := under_get hstep
  · exact ⟨rfl, .inl rfl⟩
  · cases error with
    | caught => exact ⟨rfl, .inr ⟨rfl, hF⟩⟩
    | uncaught => exact ⟨rfl, hF⟩

theorem saveElection_safe {write : Write} {basis : Option ElectionData} {data : ElectionData}
    {ttl : ℤ}
    (hkeeps : (Op.setex write electionId ttl basis data).KeepsVotes s) :
    Safe (Under F) (fun s o => o.KeepsVotes s)
      (VotingService.saveElection write electionId basis data ttl) s
      (fun _ t => Wrote F electionId data s t) fun _ t => Wrote F electionId data s t := by
  simp only [VotingService.saveElection, safe_bind, safe_perform]
  refine ⟨hkeeps, fun r t hstep => ?_⟩
  obtain ⟨hredis, ⟨rfl, hset⟩ | ⟨⟨error, rfl⟩, hF⟩⟩ := under_setex hstep
  · exact ⟨hredis, .inl hset⟩
  · cases error with
    | caught => exact ⟨hredis, .inr hF⟩
    | uncaught => exact ⟨hredis, .inr hF⟩

theorem overwriteElection_safe {write : Write} {basis data : ElectionData}
    (hkeeps : ∀ ttl, (Op.setex write electionId ttl (some basis) data).KeepsVotes s) :
    Safe (Under F) (fun s o => o.KeepsVotes s)
      (S.overwriteElection write electionId basis data) s
      (fun _ t => Wrote F electionId data s t) fun _ t => Wrote F electionId data s t := by
  simp only [VotingService.overwriteElection, safe_bind, safe_perform]
  refine ⟨trivial, fun r t hstep => ?_⟩
  obtain ⟨rfl, ⟨ttl, rfl⟩ | ⟨⟨error, rfl⟩, hF⟩⟩ := under_ttl hstep
  · exact saveElection_safe (hkeeps _)
  · cases error with
    | caught => exact ⟨.inl rfl, .inr hF⟩
    | uncaught => exact ⟨.inl rfl, .inr hF⟩

theorem addVote_safe (hd : s.redis e.electionId = some d)
    (hnew : d.votes.get e.agentId = none) :
    Safe (Under F) (fun s o => o.KeepsVotes s) (S.addVote e.electionId e.vote) s
      (fun _ t => Wrote F e.electionId (d.storeVote e.vote) s t)
      fun _ t => Wrote F e.electionId (d.storeVote e.vote) s t := by
  simp only [VotingService.addVote, safe_bind]
  refine getElection_safe.mono (fun found t ht => ?_) fun _ t ht => ?_
  · obtain ⟨rfl, rfl | ⟨rfl, hF⟩⟩ := ht
    · rw [hd]
      dsimp only
      rw [if_neg (show e.vote.agentId ≠ "" from e.agentId_ne)]
      refine overwriteElection_safe fun ttl d' hd' agentId v hv => ?_
      obtain rfl := Option.some.inj (hd.symm.trans hd')
      rw [ElectionData.storeVote, Dict.get_set]
      split
      · rename_i heq
        rw [heq, show e.vote.agentId = e.agentId from rfl, hnew] at hv
        cases hv
      · exact hv
    · exact ⟨.inl rfl, .inr hF⟩
  · exact ⟨.inl ht.1, .inr (ht.1 ▸ ht.2)⟩

theorem updateElectionStatus_safe {status : ElectionStatus}
    (hd : s.redis electionId = some d) :
    Safe (Under F) (fun s o => o.KeepsVotes s) (S.updateElectionStatus electionId status) s
      (fun _ t => Wrote F electionId { d with status } s t)
      fun _ t => Wrote F electionId { d with status } s t := by
  simp only [VotingService.updateElectionStatus, safe_bind]
  refine getElection_safe.mono (fun found t ht => ?_) fun _ t ht => ?_
  · obtain ⟨rfl, rfl | ⟨rfl, hF⟩⟩ := ht
    · rw [hd]
      refine overwriteElection_safe fun ttl d' hd' agentId v hv => ?_
      obtain rfl := Option.some.inj (hd.symm.trans hd')
      exact hv
    · exact ⟨.inl rfl, .inr hF⟩
  · exact ⟨.inl ht.1, .inr (ht.1 ▸ ht.2)⟩

theorem finalizeElectionResult_safe {found : Found} {decision : String}
    (hfound : S.electionStore = true → s.redis electionId = some found.data) :
    Safe (Under F) (fun s o => o.KeepsVotes s)
      (S.finalizeElectionResult electionId found decision) s (fun _ _ => True) fun _ _ => True := by
  have hstored (t : Stores) (ht : S.electionStore = true → t.redis electionId = some found.data) :
      Safe (Under F) (fun s o => o.KeepsVotes s)
        (do
          if S.electionStore then
            let _ ← S.updateElectionStatus electionId .closed
            let _ ← VotingService.saveElection .result electionId
              (some { found.data with status := .closed })
              (VotingService.close decision found.data) S.defaultTimeoutSeconds
            return ()
          else return () : Code Unit) t (fun _ _ => True) fun _ _ => True := by
    rcases hstore : S.electionStore with _ | _
    · trivial
    · simp only [if_true, safe_bind]
      refine (updateElectionStatus_safe (ht hstore)).mono (fun _ u hu => ?_) fun _ _ _ => trivial
      refine (saveElection_safe fun d' hd' agentId v hv => ?_).mono (fun _ _ _ => trivial)
        fun _ _ _ => trivial
      rcases hu.redis (ht hstore) with hsame | hclosed
      · obtain rfl := Option.some.inj (hsame.symm.trans hd')
        exact hv
      · obtain rfl := Option.some.inj (hclosed.symm.trans hd')
        exact hv
  rw [VotingService.finalizeElectionResult]
  rcases found.inMemory with _ | _
  · exact hstored s hfound
  · refine ⟨trivial, fun r t hstep => hstored t fun hstore => ?_⟩
    rw [step_assign.mp (hstep.imp fun _ ha => ha.1), redis_assignMemory]
    exact hfound hstore

theorem getElectionData_safe (hF : ∀ s s', F s s' → s.memory S.process electionId = none)
    (hd : s.redis electionId = some d) :
    Safe (Under F) (fun s o => o.KeepsVotes s) (S.getElectionData electionId) s
      (fun found t => t = s ∧
        (S.electionStore = true → found = some ⟨d, false⟩ ∨ found = none ∧ F s s))
      fun _ t => t = s ∧ F s s := by
  rw [VotingService.getElectionData]
  rcases hstore : S.electionStore with _ | _
  · refine ⟨trivial, fun r t hstep => ?_⟩
    obtain ⟨-, rfl⟩ := under_memoryGet hstep
    exact ⟨rfl, nofun⟩
  · simp only [if_true, safe_bind]
    refine getElection_safe.mono (fun found t ht => ?_) fun _ _ => id
    obtain ⟨rfl, rfl | ⟨rfl, hfails⟩⟩ := ht
    · rw [hd]
      exact ⟨rfl, fun _ => .inl rfl⟩
    · refine ⟨trivial, fun r u hstep => ?_⟩
      obtain ⟨rfl, rfl⟩ := under_memoryGet hstep
      rw [hF _ _ hfails]
      exact ⟨rfl, fun _ => .inr ⟨rfl, hfails⟩⟩

theorem checkResolution_safe (hF : ∀ s s', F s s' → s.memory S.process electionId = none)
    (hd : s.redis electionId = some d) :
    Safe (Under F) (fun s o => o.KeepsVotes s) (S.checkResolution electionId) s
      (fun _ _ => True) fun _ _ => True := by
  simp only [VotingService.checkResolution, safe_bind]
  refine (getElectionData_safe hF hd).mono (fun found t ht => ?_) fun _ _ _ => trivial
  obtain ⟨rfl, hread⟩ := ht
  rcases found with _ | found
  · trivial
  · dsimp only
    split
    · refine finalizeElectionResult_safe fun hstore => ?_
      rcases hread hstore with hfound | ⟨hnone, -⟩
      · obtain rfl := Option.some.inj hfound
        exact hd
      · cases hnone
    · trivial

theorem storeVote_safe (hd : s.redis e.electionId = some d)
    (hnew : d.votes.get e.agentId = none) :
    Safe (Under F) (fun s o => o.KeepsVotes s) (S.storeVote e.electionId e.vote) s
      (fun _ t => (∃ d', t.redis e.electionId = some d') ∧
        (S.electionStore = true → Recorded e t ∨ Missed F e))
      fun _ t => S.electionStore = true → Recorded e t ∨ Missed F e := by
  have hwrote {t : Stores} (ht : Wrote F e.electionId (d.storeVote e.vote) s t) :
      Recorded e t ∨ Missed F e := by
    rcases ht.2 with rfl | hfails
    · refine .inl ⟨d.storeVote e.vote, Function.update_self .., ?_⟩
      exact (Dict.get_set ..).trans (if_pos rfl)
    · exact recorded_or_missed hfails
  -- the vote in the memory of the process changes nothing in the store
  have hmemory (t : Stores) (ht : ∃ d', t.redis e.electionId = some d')
      (hrecorded : S.electionStore = true → Recorded e t ∨ Missed F e) :
      Safe (Under F) (fun s o => o.KeepsVotes s)
        (ask (.assign S.process e.electionId fun data => data.storeVote e.vote)) t
        (fun _ t => (∃ d', t.redis e.electionId = some d') ∧
          (S.electionStore = true → Recorded e t ∨ Missed F e))
        fun _ t => S.electionStore = true → Recorded e t ∨ Missed F e := by
    refine ⟨trivial, fun r u hstep => ⟨?_, fun hstore => ?_⟩⟩
    · rw [step_assign.mp (hstep.imp fun _ ha => ha.1), redis_assignMemory]
      exact ht
    · exact (hrecorded hstore).imp_left fun h => h.step (o := .assign ..) trivial hstep
  rw [VotingService.storeVote]
  rcases hstore : S.electionStore with _ | _
  · rw [hstore] at hmemory
    exact hmemory s ⟨d, hd⟩ nofun
  · simp only [if_true, safe_bind]
    refine (addVote_safe hd hnew).mono (fun stored t ht => ?_) fun _ t ht _ => hwrote ht
    have hthere : ∃ d', t.redis e.electionId = some d' := by
      rcases ht.redis hd with hsame | hset
      · exact ⟨_, hsame⟩
      · exact ⟨_, hset⟩
    cases stored with
    | true => exact ⟨hthere, fun _ => hwrote ht⟩
    | false =>
      rw [hstore] at hmemory
      exact (hmemory t hthere fun _ => hwrote ht).mono (fun _ _ h => ⟨h.1, fun _ => h.2 rfl⟩)
        fun _ _ h _ => h rfl

theorem castVote_safe (hF : ∀ s s', F s s' → s.memory S.process e.electionId = none)
    (hd : s.redis e.electionId = some d) (hnew : d.votes.get e.agentId = none) :
    Safe (Under F) (fun s o => o.KeepsVotes s) (S.castVote e.electionId e.vote) s
      (fun _ t => S.electionStore = true → d.status = .open → e.agentId ∈ d.participants →
        Recorded e t ∨ Missed F e)
      fun _ t => S.electionStore = true → d.status = .open → e.agentId ∈ d.participants →
        Recorded e t ∨ Missed F e := by
  simp only [VotingService.castVote, VotingService.validateVoteEligibility, safe_bind]
  refine (getElectionData_safe hF hd).mono (fun found t ht => ?_) fun _ t ht _ _ _ =>
    ht.1 ▸ recorded_or_missed ht.2
  obtain ⟨rfl, hread⟩ := ht
  have hdeclined (hstore : S.electionStore = true) (hfound : found ≠ some ⟨d, false⟩) :
      Recorded e t ∨ Missed F e := by
    rcases hread hstore with hsome | ⟨-, hfails⟩
    · exact absurd hsome hfound
    · exact recorded_or_missed hfails
  rcases found with _ | found
  · exact fun hstore _ _ => hdeclined hstore (Option.some_ne_none _).symm
  · dsimp only
    rw [safe_pure]
    by_cases heligible : found.data.status = .open ∧ e.vote.agentId ∈ found.data.participants
    · rw [if_pos (decide_eq_true heligible)]
      simp only [safe_bind]
      refine (storeVote_safe hd hnew).mono (fun _ u hu => ?_) fun _ _ hu hstore _ _ => hu hstore
      obtain ⟨⟨d', hd'⟩, hrecorded⟩ := hu
      have hkept (hstore : S.electionStore = true) := (checkResolution_safe hF hd').invariant
        (fun t => Recorded e t ∨ Missed F e) (hrecorded hstore)
        fun s o r s' h hpre hstep => h.imp_left fun h => h.step hpre hstep
      by_cases hstore : S.electionStore = true
      · exact (hkept hstore).mono (fun _ _ h _ _ _ => h.2) fun _ _ h _ _ _ => h.2
      · exact (checkResolution_safe hF hd').mono (fun _ _ _ h => absurd h hstore)
          fun _ _ _ h => absurd h hstore
    · rw [if_neg (by simpa using heligible)]
      intro hstore hopen hparticipant
      refine hdeclined hstore fun hfound => heligible ?_
      obtain rfl := Option.some.inj hfound
      exact ⟨hopen, hparticipant⟩

/-- The store serves the handling of an event that is no repeat. -/
structure Serves (S : VotingService) (store : Availability) (e : VoteEvent) (s : Stores) : Prop where
  ready : store = .ready
  service : S.electionStore = true
  isOpen : electionOpen e s = true
  participant : participates e s = true
  new : voted e s = false

/-- **One handling** takes no vote out of the store, and where the store serves it, the vote is
recorded unless a command fails. -/
theorem handleVoteEvent_safe (hF : ∀ s s', F s s' → s.memory S.process e.electionId = none)
    (store : Availability) :
    Safe (Under F) (fun s o => o.KeepsVotes s) (S.handleVoteEvent store e) s
      (fun _ t => Serves S store e s → Recorded e t ∨ Missed F e)
      fun _ t => Serves S store e s → Recorded e t ∨ Missed F e := by
  unfold VotingService.handleVoteEvent
  rw [if_neg (by simp [e.electionId_ne, e.agentId_ne, e.decision_ne])]
  cases store with
  | absent => exact fun h => absurd h.ready nofun
  | raises error => exact fun h => absurd h.ready nofun
  | ready =>
    simp only [safe_bind]
    refine getElection_safe.mono (fun found t ht => ?_) fun _ t ht _ =>
      ht.1 ▸ recorded_or_missed ht.2
    obtain ⟨rfl, rfl | ⟨rfl, hfails⟩⟩ := ht
    · rcases hd : t.redis e.electionId with _ | d
      · intro h
        have hopen := h.isOpen
        rw [electionOpen, hd] at hopen
        cases hopen
      · dsimp only
        by_cases hvoted : (d.votes.get e.agentId).isSome = true
        · rw [if_pos hvoted]
          intro h
          have hnew := h.new
          rw [voted, hd, Option.any_some, hvoted] at hnew
          cases hnew
        · rw [if_neg hvoted]
          have hnew : d.votes.get e.agentId = none := by simpa using hvoted
          have hserved (h : Serves S .ready e t) :
              d.status = .open ∧ e.agentId ∈ d.participants := by
            have hopen := h.isOpen
            have hparticipant := h.participant
            rw [electionOpen, hd, Option.any_some] at hopen
            rw [participates, hd, Option.any_some] at hparticipant
            exact ⟨of_decide_eq_true hopen, of_decide_eq_true hparticipant⟩
          simp only [safe_bind]
          exact (castVote_safe hF hd hnew).mono
            (fun _ u hu h => hu h.service (hserved h).1 (hserved h).2)
            fun _ u hu h => hu h.service (hserved h).1 (hserved h).2
    · exact fun _ => recorded_or_missed hfails

end Handling

/-! ## Runs -/

/-- A failure finds no election in the memory of the service. -/
def Calm (S : VotingService) (e : VoteEvent) (s _s' : Stores) : Prop :=
  s.memory S.process e.electionId = none

/-- A failure comes after the vote has been recorded. -/
def Harmless (S : VotingService) (e : VoteEvent) (s s' : Stores) : Prop :=
  Calm S e s s' ∧ Recorded e s'

theorem not_missed_harmless {S : VotingService} {e : VoteEvent} : ¬Missed (Harmless S e) e :=
  fun ⟨_, _, hF, hmissed⟩ => hmissed hF.2

def Keeping (S : VotingService) (e : VoteEvent) (rest : Code Unit) (s : Stores) : Prop :=
  Safe (Under (Calm S e)) (fun s o => o.KeepsVotes s) rest s (fun _ _ => True) fun _ _ => True

/-- The rest of a handling ends with the vote recorded, if its failures are harmless. -/
def Recording (S : VotingService) (e : VoteEvent) (rest : Code Unit) (s : Stores) : Prop :=
  Safe (Under (Harmless S e)) (fun s o => o.KeepsVotes s) rest s
    (fun _ t => Recorded e t) fun _ t => Recorded e t

theorem handleVoteEvent_keeping {S : VotingService} (store : Availability) (e : VoteEvent)
    (s : Stores) : Keeping S e (S.handleVoteEvent store e) s :=
  (handleVoteEvent_safe (fun _ _ h => h) store).mono (fun _ _ _ => trivial) fun _ _ _ => trivial

theorem handleVoteEvent_recording {S : VotingService} {store : Availability} {e : VoteEvent}
    {s : Stores} (h : Serves S store e s) : Recording S e (S.handleVoteEvent store e) s :=
  (handleVoteEvent_safe (fun _ _ h => h.1) store).mono
    (fun _ _ ht => (ht h).resolve_right not_missed_harmless)
    fun _ _ ht => (ht h).resolve_right not_missed_harmless

theorem Doing.Idle.ne {doing : Doing} {partition offset : ℕ} {e : VoteEvent} {rest : Code Unit}
    (hidle : doing.Idle) : doing ≠ .handling partition offset e rest := by
  rintro rfl
  exact hidle

namespace Consumer

variable {S : VotingService} {topic : ℕ → List VoteEvent} {s : Consumer}

def Settled (s : Consumer) (partition offset : ℕ) (e : VoteEvent) : Prop :=
  s.due (partition, offset) = true →
    s.repeated (partition, offset) = true ∨ Recorded e s.stores

/-- **The invariant.**  Only the loop of the present consumer has a message in hand.  What this
consumer has handed out is settled or in hand, while there is no trouble. -/
structure Sound (S : VotingService) (topic : ℕ → List VoteEvent) (s : Consumer) : Prop where
  kept : NoVoteSkipped topic s
  ahead : s.alive = true → ∀ partition, s.committed partition ≤ s.position partition
  handed : s.alive = true → s.troubled = false → ∀ partition offset e,
    offset < s.position partition → (topic partition)[offset]? = some e →
      s.Settled partition offset e ∨
        ∃ rest, s.loops s.generation = .handling partition offset e rest
  own : ∀ loop partition offset e rest, s.loops loop = .handling partition offset e rest →
    loop = s.generation
  keeping : ∀ loop partition offset e rest, s.loops loop = .handling partition offset e rest →
    Keeping S e rest s.stores
  recording : ∀ loop partition offset e rest, s.loops loop = .handling partition offset e rest →
    s.troubled = false → s.due (partition, offset) = true →
      s.repeated (partition, offset) = false → Recording S e rest s.stores

theorem Sound.settled (h : Sound S topic s) {loop partition offset : ℕ} {e : VoteEvent}
    {rest : Code Unit} (hloop : s.loops loop = .handling partition offset e rest)
    (hover : Recording S e rest s.stores → Recorded e s.stores) (halive : s.alive = true)
    (hcalm : s.troubled = false) :
    ∀ partition' offset' e', offset' < s.position partition' →
      (topic partition')[offset']? = some e' → s.Settled partition' offset' e' := by
  intro partition' offset' e' hlt htopic
  rcases h.handed halive hcalm partition' offset' e' hlt htopic with hsettled | ⟨rest', hhand⟩
  · exact hsettled
  · obtain rfl := h.own _ _ _ _ _ hloop
    rw [hloop] at hhand
    cases hhand
    intro hdue
    cases hrepeated : s.repeated (partition, offset) with
    | true => exact .inl rfl
    | false => exact .inr (hover (h.recording _ _ _ _ _ hloop hcalm hdue hrepeated))

theorem handling_of_update {loops : ℕ → Doing} {loop loop' partition offset : ℕ} {doing : Doing}
    {e : VoteEvent} {rest : Code Unit}
    (h : Function.update loops loop doing loop' = .handling partition offset e rest)
    (hidle : doing.Idle) :
    loops loop' = .handling partition offset e rest := by
  by_cases heq : loop' = loop
  · subst heq
    rw [Function.update_self] at h
    rw [h] at hidle
    exact hidle.elim
  · rwa [Function.update_of_ne heq] at h

theorem Sound.left (h : Sound S topic s) (loop : ℕ) : Sound S topic (s.left loop) where
  kept := h.kept
  ahead := nofun
  handed := nofun
  own := fun _ _ _ _ _ hloop => h.own _ _ _ _ _ (handling_of_update hloop trivial)
  keeping := fun _ _ _ _ _ hloop => h.keeping _ _ _ _ _ (handling_of_update hloop trivial)
  recording := fun _ _ _ _ _ hloop => h.recording _ _ _ _ _ (handling_of_update hloop trivial)

theorem Sound.start (h : Sound S topic s)
    (hidle : ∀ loop, (s.loops loop).Idle) : Sound S topic s.start where
  kept := h.kept
  ahead := fun _ _ => le_rfl
  handed := fun _ _ partition offset e hlt htopic =>
    .inl fun hdue => h.kept partition offset e hlt htopic hdue
  own := fun _ _ _ _ _ hloop => absurd (handling_of_update hloop trivial) (hidle _).ne
  keeping := fun _ _ _ _ _ hloop => absurd (handling_of_update hloop trivial) (hidle _).ne
  recording := fun _ _ _ _ _ hloop => absurd (handling_of_update hloop trivial) (hidle _).ne

section HandOut

variable {partition : ℕ} {store : Availability} {e : VoteEvent}

@[simp] theorem handOut_stores : (s.handOut S partition store e).stores = s.stores := rfl

@[simp] theorem handOut_committed :
    (s.handOut S partition store e).committed = s.committed := rfl

@[simp] theorem handOut_position : (s.handOut S partition store e).position =
    Function.update s.position partition (s.position partition + 1) := rfl

@[simp] theorem handOut_loops : (s.handOut S partition store e).loops =
    Function.update s.loops s.generation
      (.handling partition (s.position partition) e (S.handleVoteEvent store e)) := rfl

@[simp] theorem handOut_due : (s.handOut S partition store e).due =
    Function.update s.due (partition, s.position partition)
      (s.due (partition, s.position partition) || electionOpen e s.stores) := rfl

@[simp] theorem handOut_repeated : (s.handOut S partition store e).repeated =
    Function.update s.repeated (partition, s.position partition)
      (s.repeated (partition, s.position partition) || voted e s.stores) := rfl

end HandOut

theorem Sound.handOut (h : Sound S topic s) (halive : s.alive = true)
    (hwaiting : s.loops s.generation = .waiting) {partition : ℕ} {e : VoteEvent}
    (store : Availability) (hnext : (topic partition)[s.position partition]? = some e) :
    Sound S topic (s.handOut S partition store e) := by
  have hnone {loop partition offset : ℕ} {e : VoteEvent} {rest : Code Unit} :
      s.loops loop ≠ .handling partition offset e rest := by
    intro hloop
    obtain rfl := h.own _ _ _ _ _ hloop
    rw [hwaiting] at hloop
    cases hloop
  -- the ghosts change for the message in hand only
  have hother {partition' offset' : ℕ}
      (hne : (partition', offset') ≠ (partition, s.position partition)) (e' : VoteEvent) :
      (s.handOut S partition store e).Settled partition' offset' e' ↔
        s.Settled partition' offset' e' := by
    rw [Settled, Settled, handOut_due, handOut_repeated, Function.update_of_ne hne,
      Function.update_of_ne hne, handOut_stores]
  have hloop {loop partition' offset' : ℕ} {e' : VoteEvent} {rest : Code Unit}
      (hhand : (s.handOut S partition store e).loops loop =
        .handling partition' offset' e' rest) :
      loop = s.generation ∧ partition' = partition ∧ offset' = s.position partition ∧ e' = e ∧
        rest = S.handleVoteEvent store e := by
    by_cases heq : loop = s.generation
    · subst heq
      rw [handOut_loops, Function.update_self] at hhand
      cases hhand
      exact ⟨rfl, rfl, rfl, rfl, rfl⟩
    · rw [handOut_loops, Function.update_of_ne heq] at hhand
      exact absurd hhand hnone
  refine ⟨fun partition' offset' e' hlt htopic => ?_, fun _ partition' => ?_,
    fun _ hcalm partition' offset' e' hlt htopic => ?_, fun _ _ _ _ _ hhand => (hloop hhand).1,
    fun _ _ _ _ _ hhand => ?_, fun _ _ _ _ _ hhand hcalm hdue hrepeated => ?_⟩
  · refine (hother (fun heq => ?_) e').mpr (h.kept partition' offset' e' hlt htopic)
    obtain ⟨rfl, rfl⟩ := Prod.mk.inj heq
    exact absurd (h.ahead halive partition') (Nat.not_le.mpr hlt)
  · rw [handOut_committed, handOut_position, Function.update_apply]
    split
    · rename_i heq
      subst heq
      exact Nat.le_succ_of_le (h.ahead halive partition')
    · exact h.ahead halive partition'
  · by_cases heq : (partition', offset') = (partition, s.position partition)
    · obtain ⟨rfl, rfl⟩ := Prod.mk.inj heq
      obtain rfl := Option.some.inj (hnext.symm.trans htopic)
      exact .inr ⟨_, Function.update_self ..⟩
    · have hbefore : offset' < s.position partition' := by
        rw [handOut_position, Function.update_apply] at hlt
        split at hlt
        · rename_i hpartition
          subst hpartition
          exact Nat.lt_of_le_of_ne (Nat.le_of_lt_succ hlt) fun hoffset => heq (hoffset ▸ rfl)
        · exact hlt
      have hcalm' : s.troubled = false := (Bool.or_eq_false_iff.mp hcalm).1
      rcases h.handed halive hcalm' partition' offset' e' hbefore htopic with
        hsettled | ⟨rest, hhand⟩
      · exact .inl ((hother heq e').mpr hsettled)
      · exact absurd hhand hnone
  · obtain ⟨-, -, -, rfl, rfl⟩ := hloop hhand
    exact handleVoteEvent_keeping store _ s.stores
  · obtain ⟨-, rfl, rfl, rfl, rfl⟩ := hloop hhand
    rw [handOut_due, Function.update_self] at hdue
    rw [handOut_repeated, Function.update_self] at hrepeated
    rw [Consumer.handOut] at hcalm
    dsimp only at hcalm
    rw [hdue, hrepeated, Bool.not_false, Bool.and_self, Bool.true_and, Bool.or_eq_false_iff,
      Bool.not_eq_false'] at hcalm
    have hserved := hcalm.2
    simp only [Bool.and_eq_true, decide_eq_true_eq] at hserved
    obtain ⟨⟨⟨hready, hservice⟩, hopen⟩, hparticipant⟩ := hserved
    exact handleVoteEvent_recording
      ⟨hready, hservice, hopen, hparticipant, (Bool.or_eq_false_iff.mp hrepeated).2⟩

theorem Sound.waiting (h : Sound S topic s) {loop partition offset : ℕ} {e : VoteEvent}
    {rest : Code Unit} (hloop : s.loops loop = .handling partition offset e rest)
    (hover : Recording S e rest s.stores → Recorded e s.stores) :
    Sound S topic { s with loops := Function.update s.loops loop .waiting } where
  kept := h.kept
  ahead := h.ahead
  handed := fun halive hcalm _ _ _ hlt htopic =>
    .inl (h.settled hloop hover halive hcalm _ _ _ hlt htopic)
  own := fun _ _ _ _ _ hhand => h.own _ _ _ _ _ (handling_of_update hhand trivial)
  keeping := fun _ _ _ _ _ hhand => h.keeping _ _ _ _ _ (handling_of_update hhand trivial)
  recording := fun _ _ _ _ _ hhand => h.recording _ _ _ _ _ (handling_of_update hhand trivial)

/-- **The commit** covers what the consumer has handed out. -/
theorem Sound.commit (h : Sound S topic s) {loop partition offset : ℕ} {e : VoteEvent}
    {rest : Code Unit} (hloop : s.loops loop = .handling partition offset e rest)
    (hover : Recording S e rest s.stores → Recorded e s.stores) (halive : s.alive = true)
    (hcalm : s.troubled = false) :
    Sound S topic
      { s with loops := Function.update s.loops loop .waiting, committed := s.position } :=
  have hwaiting := h.waiting hloop hover
  { hwaiting with
    kept := fun partition' offset' e' hlt htopic =>
      h.settled hloop hover halive hcalm partition' offset' e' hlt htopic
    ahead := fun _ _ => le_rfl }

@[simp] theorem acted_loops {loop partition offset : ℕ} {e : VoteEvent} {answer : Answer}
    {rest : Code Unit} {stores : Stores} :
    (s.acted loop partition offset e answer rest stores).loops =
      Function.update s.loops loop (.handling partition offset e rest) := rfl

theorem Sound.act (h : Sound S topic s) {loop partition offset : ℕ} {e : VoteEvent} {o : Op}
    {k : o.Resp → Code Unit} {r : o.Resp} {stores : Stores} {answer : Answer}
    (hloop : s.loops loop = .handling partition offset e (.await o k))
    (hperform : s.stores.perform o answer = some (r, stores))
    (hcalm : answer.isFailure = true → s.stores.memory S.process e.electionId = none) :
    Sound S topic (s.acted loop partition offset e answer (k r) stores) := by
  have hkeeps := h.keeping _ _ _ _ _ hloop
  have hstep : Under (Calm S e) s.stores o r stores := ⟨answer, hperform, hcalm⟩
  have hsettled {partition' offset' : ℕ} {e' : VoteEvent}
      (hbefore : s.Settled partition' offset' e') :
      (s.acted loop partition offset e answer (k r) stores).Settled partition' offset' e' :=
    fun hdue => (hbefore hdue).imp_right fun hrecorded => hrecorded.step hkeeps.1 hstep
  have hhand {loop' partition' offset' : ℕ} {e' : VoteEvent} {rest : Code Unit}
      (hin : (s.acted loop partition offset e answer (k r) stores).loops loop' =
        .handling partition' offset' e' rest) :
      loop' = loop ∧ partition' = partition ∧ offset' = offset ∧ e' = e ∧ rest = k r := by
    by_cases heq : loop' = loop
    · subst heq
      rw [acted_loops, Function.update_self] at hin
      cases hin
      exact ⟨rfl, rfl, rfl, rfl, rfl⟩
    · rw [acted_loops, Function.update_of_ne heq] at hin
      exact absurd ((h.own _ _ _ _ _ hin).trans (h.own _ _ _ _ _ hloop).symm) heq
  refine ⟨fun partition' offset' e' hlt htopic => hsettled (h.kept partition' offset' e' hlt htopic),
    h.ahead, fun halive htroubled partition' offset' e' hlt htopic => ?_,
    fun _ _ _ _ _ hin => ?_, fun _ _ _ _ _ hin => ?_,
    fun _ _ _ _ _ hin htroubled hdue hrepeated => ?_⟩
  · have hbefore : s.troubled = false := (Bool.or_eq_false_iff.mp htroubled).1
    rcases h.handed halive hbefore partition' offset' e' hlt htopic with hdone | ⟨rest, hin⟩
    · exact .inl (hsettled hdone)
    · obtain rfl := h.own _ _ _ _ _ hloop
      rw [hloop] at hin
      cases hin
      exact .inr ⟨k r, Function.update_self ..⟩
  · obtain ⟨rfl, -⟩ := hhand hin
    exact h.own _ _ _ _ _ hloop
  · obtain ⟨rfl, rfl, rfl, rfl, rfl⟩ := hhand hin
    exact hkeeps.2 r stores hstep
  · obtain ⟨rfl, rfl, rfl, rfl, rfl⟩ := hhand hin
    have hbefore := Bool.or_eq_false_iff.mp htroubled
    have hrecording := h.recording _ _ _ _ _ hloop hbefore.1 hdue hrepeated
    refine hrecording.2 r stores ⟨answer, hperform, fun hfails => ⟨hcalm hfails, ?_⟩⟩
    -- the failure made no trouble, so the vote was recorded
    have hharmless := hbefore.2
    change s.due (_, _) = true at hdue
    change s.repeated (_, _) = false at hrepeated
    rw [hfails, hdue, hrepeated, Bool.not_false, Bool.and_self, Bool.and_self, Bool.true_and,
      Bool.not_eq_false', decide_eq_true_eq] at hharmless
    exact hharmless

theorem Sound.crash (h : Sound S topic s) : Sound S topic (step S topic s .crash) where
  kept := h.kept
  ahead := nofun
  handed := nofun
  own := fun _ _ _ _ _ hloop => by cases hloop
  keeping := fun _ _ _ _ _ hloop => by cases hloop
  recording := fun _ _ _ _ _ hloop => by cases hloop

/-- **One event** keeps the invariant. -/
theorem Sound.step (h : Sound S topic s) {event : Event} (hcareful : s.Careful S event) :
    Sound S topic (s.step S topic event) := by
  cases event with
  | start =>
    rw [Consumer.step]
    split
    · exact h
    · next halive => exact h.start (hcareful.resolve_left halive)
  | stop => exact { h with }
  | stopped =>
    rw [Consumer.step]
    split
    · exact h
    · exact { h with ahead := nofun, handed := nofun }
  | crash => exact h.crash
  | handOut partition store =>
    rw [Consumer.step]
    split
    · rename_i e halive hwaiting hnext
      split
      · exact h.handOut halive hwaiting store hnext
      · exact { h.left s.generation with ahead := nofun, handed := nofun }
    · exact h
  | act loop answer =>
    rw [Consumer.step]
    split
    · rename_i partition offset e o k hloop
      split
      · rename_i r stores hperform
        exact h.act hloop hperform (hcareful partition offset e _ hloop)
      · exact h
    · exact h
  | finish loop commits =>
    rw [Consumer.step]
    split
    · rename_i partition offset e hloop
      by_cases hcommits : s.alive = true ∧ commits = true
      · rw [if_pos (by simpa using hcommits)]
        exact h.commit hloop (fun hover => hover) hcommits.1 (hcareful hcommits.1 hcommits.2)
      · rw [if_neg (by simpa using hcommits)]
        exact h.waiting hloop fun hover => hover
    · exact h
  | fail loop caught =>
    rw [Consumer.step]
    split
    · rename_i hloop
      split
      · exact h.waiting hloop fun hover => hover
      · exact h.left loop
    · exact h
  | leave loop =>
    rw [Consumer.step]
    split
    · exact h.left loop
    · exact h

def init (stores : Stores) : Consumer where
  stores := stores

theorem sound_init (stores : Stores) : Sound S topic (init stores) where
  kept := fun _ _ _ hlt => absurd hlt (Nat.not_lt_zero _)
  ahead := nofun
  handed := nofun
  own := fun _ _ _ _ _ hloop => by cases hloop
  keeping := fun _ _ _ _ _ hloop => by cases hloop
  recording := fun _ _ _ _ _ hloop => by cases hloop

/-- The commands of a handling that records the vote. -/
def served : List Event :=
  [.start, .handOut 0 .ready, .act 1 .plain, .act 1 .plain, .act 1 .plain, .act 1 (.remaining 60),
    .act 1 .plain, .act 1 .plain, .finish 1 true]

end Consumer

end EnhancedAgentBus.Deliberation
