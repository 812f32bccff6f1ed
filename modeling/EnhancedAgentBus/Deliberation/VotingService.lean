import EnhancedAgentBus.Deliberation.Resolution
import EnhancedAgentBus.Lib.Async

/-!
# The voting service and its stores

`VotingService`, with `RedisElectionStore` behind it where it has one.  Every Redis command is one
operation, and so is every look at the process's own `_in_memory_elections`, at the clock and at
`uuid4`; between two of them other clients may run.

A Redis command may fail, with an exception that the store catches or with another one, and a
failing `SETEX` may have been applied or not.  Keys do not expire during a run, so of the time to
live only its computation is kept.  The Kafka bus, log lines and `resolved_at`, which nothing
reads, are left out.

### What is load-bearing

A write carries the document its writer takes the stored one to be (`basis`): the one it has read,
with its own writes in between.  The store never sees it; it is what the races are told by.
-/

namespace EnhancedAgentBus.Deliberation

open Async Async.Prog

/-- An exception of a Redis command: one that `except (ConnectionError, OSError, ...)` catches,
or another. -/
inductive RedisError where
  | caught
  | uncaught
  deriving DecidableEq

structure Stores where
  /-- the elections in Redis -/
  redis : String → Option ElectionData := fun _ => none
  /-- `_in_memory_elections` of each process -/
  memory : ℕ → String → Option ElectionData := fun _ _ => none
  /-- the identifiers `uuid4` has drawn -/
  drawn : List String := []
  clock : Time := 0

/-- What a `SETEX` is for. -/
inductive Write where
  /-- `save_election` of a new election -/
  | create
  /-- `add_vote` -/
  | vote (v : Vote)
  /-- `update_election_status` -/
  | status
  /-- `save_election` of a resolved election -/
  | result
  deriving DecidableEq

/-- The operations of a service; `service` is the process that performs them, and `write` the
write a command belongs to. -/
inductive Op where
  | uuid4
  | now
  | get (service : ℕ) (write : Option Write) (electionId : String)
  | ttl (write : Write) (electionId : String)
  | setex (write : Write) (electionId : String) (ttl : ℤ) (basis : Option ElectionData)
      (data : ElectionData)
  /-- `_in_memory_elections.get(election_id)` -/
  | memoryGet (service : ℕ) (electionId : String)
  /-- `_in_memory_elections[election_id] = election_data` -/
  | remember (service : ℕ) (electionId : String) (data : ElectionData)
  /-- assignments to the election object in `_in_memory_elections`, if it is there -/
  | assign (service : ℕ) (electionId : String) (set : ElectionData → ElectionData)

@[reducible] def Op.Resp : Op → Type
  | uuid4 => String
  | now => Time
  | get _ _ _ => Except RedisError (Option ElectionData)
  | ttl _ _ => Except RedisError ℤ
  | setex _ _ _ _ _ => Except RedisError Unit
  | memoryGet _ _ => Option ElectionData
  | remember _ _ _ => Unit
  | assign _ _ _ => Unit

inductive Answer where
  | plain
  | id (s : String)
  | time (t : Time)
  | remaining (ttl : ℤ)
  /-- the command fails; a write may have been applied -/
  | fails (e : RedisError) (applied : Bool)

namespace Stores

def setRedis (electionId : String) (data : ElectionData) (s : Stores) : Stores :=
  { s with redis := Function.update s.redis electionId (some data) }

def setMemory (service : ℕ) (electionId : String) (data : ElectionData) (s : Stores) : Stores :=
  { s with
    memory := Function.update s.memory service
      (Function.update (s.memory service) electionId (some data)) }

def assignMemory (service : ℕ) (electionId : String) (set : ElectionData → ElectionData)
    (s : Stores) : Stores :=
  match s.memory service electionId with
  | some data => s.setMemory service electionId (set data)
  | none => s

/-- **One operation**: what it answers and leaves behind, when the environment decides `a`. -/
def perform (s : Stores) : (o : Op) → Answer → Option (o.Resp × Stores)
  | .uuid4, .id u => if u ∈ s.drawn then none else some (u, { s with drawn := u :: s.drawn })
  | .now, .time t => if s.clock ≤ t then some (t, { s with clock := t }) else none
  | .get _ _ electionId, .plain => some (.ok (s.redis electionId), s)
  | .get _ _ _, .fails e _ => some (.error e, s)
  | .ttl _ _, .remaining ttl => some (.ok ttl, s)
  | .ttl _ _, .fails e _ => some (.error e, s)
  | .setex _ electionId _ _ data, .plain => some (.ok (), s.setRedis electionId data)
  | .setex _ electionId _ _ data, .fails e applied =>
    some (.error e, if applied then s.setRedis electionId data else s)
  | .memoryGet service electionId, .plain => some (s.memory service electionId, s)
  | .remember service electionId data, .plain => some ((), s.setMemory service electionId data)
  | .assign service electionId set, .plain =>
    some ((), s.assignMemory service electionId set)
  | _, _ => none

end Stores

def Step (s : Stores) (o : Op) (r : o.Resp) (s' : Stores) : Prop :=
  ∃ a, s.perform o a = some (r, s')

/-! ## The operations, one by one -/

section Step

variable {s s' : Stores}

theorem some_eq_answer {α : Type} {x : α × Stores} {r : α} {s' : Stores} :
    some x = some (r, s') ↔ r = x.1 ∧ s' = x.2 := by
  rw [Option.some_inj, Prod.ext_iff]
  exact and_congr eq_comm eq_comm

theorem step_plain (o : Op) (x : o.Resp × Stores) {r : o.Resp}
    (hplain : s.perform o .plain = some x)
    (hrest : ∀ a, a = .plain ∨ s.perform o a = none) :
    Step s o r s' ↔ r = x.1 ∧ s' = x.2 := by
  rw [← some_eq_answer, ← hplain]
  refine ⟨fun ⟨a, ha⟩ => ?_, fun h => ⟨.plain, h⟩⟩
  rcases hrest a with rfl | hnone
  · exact ha
  · rw [hnone] at ha
    cases ha

@[simp] theorem step_uuid4 {u : String} :
    Step s .uuid4 u s' ↔ u ∉ s.drawn ∧ s' = { s with drawn := u :: s.drawn } := by
  have hdraw (v : String) : s.perform .uuid4 (.id v) =
      if v ∈ s.drawn then none else some (v, { s with drawn := v :: s.drawn }) := rfl
  constructor
  · rintro ⟨a, ha⟩
    cases a with
    | id v =>
      rw [hdraw, Option.ite_none_left_eq_some, some_eq_answer] at ha
      obtain ⟨hnew, rfl, rfl⟩ := ha
      exact ⟨hnew, rfl⟩
    | _ => exact absurd ha nofun
  · rintro ⟨hnew, rfl⟩
    exact ⟨.id u, by rw [hdraw, if_neg hnew]⟩

@[simp] theorem step_now {t : Time} :
    Step s .now t s' ↔ s.clock ≤ t ∧ s' = { s with clock := t } := by
  have hread (u : Time) : s.perform .now (.time u) =
      if s.clock ≤ u then some (u, { s with clock := u }) else none := rfl
  constructor
  · rintro ⟨a, ha⟩
    cases a with
    | time u =>
      rw [hread, Option.ite_none_right_eq_some, some_eq_answer] at ha
      obtain ⟨hle, rfl, rfl⟩ := ha
      exact ⟨hle, rfl⟩
    | _ => exact absurd ha nofun
  · rintro ⟨hle, rfl⟩
    exact ⟨.time t, by rw [hread, if_pos hle]⟩

@[simp] theorem step_get {service : ℕ} {write : Option Write} {electionId : String}
    {r : Except RedisError (Option ElectionData)} :
    Step s (.get service write electionId) r s' ↔
      (r = .ok (s.redis electionId) ∨ ∃ e, r = .error e) ∧ s' = s := by
  constructor
  · rintro ⟨a, ha⟩
    cases a with
    | plain => exact ⟨.inl (some_eq_answer.mp ha).1, (some_eq_answer.mp ha).2⟩
    | fails e applied => exact ⟨.inr ⟨e, (some_eq_answer.mp ha).1⟩, (some_eq_answer.mp ha).2⟩
    | _ => exact absurd ha nofun
  · rintro ⟨rfl | ⟨e, rfl⟩, rfl⟩
    · exact ⟨.plain, rfl⟩
    · exact ⟨.fails e false, rfl⟩

@[simp] theorem step_ttl {write : Write} {electionId : String} {r : Except RedisError ℤ} :
    Step s (.ttl write electionId) r s' ↔ s' = s := by
  constructor
  · rintro ⟨a, ha⟩
    cases a with
    | remaining ttl => exact (some_eq_answer.mp ha).2
    | fails e applied => exact (some_eq_answer.mp ha).2
    | _ => exact absurd ha nofun
  · rintro rfl
    cases r with
    | ok ttl => exact ⟨.remaining ttl, rfl⟩
    | error e => exact ⟨.fails e false, rfl⟩

@[simp] theorem step_setex {write : Write} {electionId : String} {ttl : ℤ}
    {basis : Option ElectionData} {data : ElectionData} {r : Except RedisError Unit} :
    Step s (.setex write electionId ttl basis data) r s' ↔
      s' = s.setRedis electionId data ∨ (s' = s ∧ ∃ e, r = .error e) := by
  constructor
  · rintro ⟨a, ha⟩
    cases a with
    | plain => exact .inl (some_eq_answer.mp ha).2
    | fails e applied =>
      obtain ⟨rfl, rfl⟩ := some_eq_answer.mp ha
      cases applied with
      | true => exact .inl rfl
      | false => exact .inr ⟨rfl, e, rfl⟩
    | _ => exact absurd ha nofun
  · rintro (rfl | ⟨rfl, e, rfl⟩)
    · cases r with
      | ok _ => exact ⟨.plain, rfl⟩
      | error e => exact ⟨.fails e true, rfl⟩
    · exact ⟨.fails e false, rfl⟩

@[simp] theorem step_memoryGet {service : ℕ} {electionId : String} {r : Option ElectionData} :
    Step s (.memoryGet service electionId) r s' ↔ r = s.memory service electionId ∧ s' = s :=
  step_plain (.memoryGet service electionId) (s.memory service electionId, s) rfl
    (by rintro (_ | _ | _ | _ | _) <;> first | exact .inl rfl | exact .inr rfl)

@[simp] theorem step_remember {service : ℕ} {electionId : String} {data : ElectionData}
    {r : Unit} :
    Step s (.remember service electionId data) r s' ↔
      s' = s.setMemory service electionId data :=
  (step_plain (.remember service electionId data) ((), s.setMemory service electionId data) rfl
    (by rintro (_ | _ | _ | _ | _) <;> first | exact .inl rfl | exact .inr rfl)).trans
    (and_iff_right rfl)

@[simp] theorem step_assign {service : ℕ} {electionId : String}
    {set : ElectionData → ElectionData} {r : Unit} :
    Step s (.assign service electionId set) r s' ↔
      s' = s.assignMemory service electionId set :=
  (step_plain (.assign service electionId set) ((), s.assignMemory service electionId set) rfl
    (by rintro (_ | _ | _ | _ | _) <;> first | exact .inl rfl | exact .inr rfl)).trans
    (and_iff_right rfl)

end Step

/-! ## Programs -/

abbrev Code := Prog Op Op.Resp RedisError

abbrev ask (o : Op) : Code o.Resp := perform o

/-! ## `RedisElectionStore` -/

/-- What `except (ConnectionError, OSError, ...)` makes of a command's answer. -/
def caught {α : Type} (fallback : α) : Except RedisError α → Code α
  | .ok a => return a
  | .error .caught => return fallback
  | .error .uncaught => .raise .uncaught

structure VotingService where
  process : ℕ
  defaultStrategy : VotingStrategy := .quorum
  /-- whether it has an election store -/
  electionStore : Bool
  /-- `settings.voting.default_timeout_seconds` -/
  defaultTimeoutSeconds : ℤ := 300

/-- An election as a service got it: its data, and whether that is the object in its own
memory. -/
structure Found where
  data : ElectionData
  inMemory : Bool

namespace VotingService

variable (S : VotingService)

def saveElection (write : Write) (electionId : String) (basis : Option ElectionData)
    (data : ElectionData) (ttl : ℤ) : Code Bool := do
  match ← ask (.setex write electionId ttl basis data) with
  | .ok _ => return true
  | .error .caught => return false
  | .error .uncaught => .raise .uncaught

def getElection (write : Option Write) (electionId : String) : Code (Option ElectionData) := do
  let found ← ask (.get S.process write electionId)
  caught none found

/-- The rest of `add_vote` and `update_election_status`: keep the remaining time to live, and
overwrite. -/
def overwriteElection (write : Write) (electionId : String) (basis data : ElectionData) :
    Code Bool := do
  match ← ask (.ttl write electionId) with
  | .error .caught => return false
  | .error .uncaught => .raise .uncaught
  | .ok ttl =>
    let ttl := if ttl ≤ 0 then S.defaultTimeoutSeconds else ttl
    saveElection write electionId (some basis) data ttl

def addVote (electionId : String) (vote : Vote) : Code Bool := do
  match ← S.getElection (some (.vote vote)) electionId with
  | none => return false
  | some election =>
    if vote.agentId = "" then return false
    else S.overwriteElection (.vote vote) electionId election (election.storeVote vote)

def updateElectionStatus (electionId : String) (status : ElectionStatus) : Code Bool := do
  match ← S.getElection (some .status) electionId with
  | none => return false
  | some election =>
    S.overwriteElection .status electionId election { election with status }

/-! ## `VotingService` -/

/-- `_get_election_data`: Redis, or the process's own memory. -/
def getElectionData (electionId : String) : Code (Option Found) := do
  let stored ← if S.electionStore then S.getElection none electionId else pure none
  match stored with
  | some data => return some ⟨data, false⟩
  | none =>
    let data ← ask (.memoryGet S.process electionId)
    return data.map fun data => ⟨data, true⟩

def createElection (participants : List String) (participantWeights : Dict String ℚ)
    (requiredVotes : Option ℚ) (timeout : Option ℤ) : Code String := do
  let timeout := timeout.getD S.defaultTimeoutSeconds
  let electionId ← ask .uuid4
  let createdAt ← ask .now
  let data := newElection S.defaultStrategy participants participantWeights requiredVotes
    (createdAt + timeout * 1000000)
  let saved ← if S.electionStore then saveElection .create electionId none data timeout
    else pure false
  if saved then return electionId
  else
    ask (.remember S.process electionId data)
    return electionId

/-- The election as `_finalize_election_result` leaves it. -/
def close (decision : String) (data : ElectionData) : ElectionData :=
  { data with status := .closed, result := some decision }

/-- Finalize election with result and update storage.  Where the data is the object in memory,
assigning to it is the update. -/
def finalizeElectionResult (electionId : String) (found : Found) (decision : String) :
    Code Unit := do
  if found.inMemory then ask (.assign S.process electionId (close decision))
  if S.electionStore then
    let _ ← S.updateElectionStatus electionId .closed
    let _ ← saveElection .result electionId (some { found.data with status := .closed })
      (close decision found.data) S.defaultTimeoutSeconds
    return ()
  else return ()

def checkResolution (electionId : String) : Code Unit := do
  match ← S.getElectionData electionId with
  | none => return ()
  | some found =>
    match found.data.resolution S.defaultStrategy with
    | (true, decision) => S.finalizeElectionResult electionId found decision
    | (false, _) => return ()

/-- Store vote in Redis or in-memory fallback, which does nothing where the election is not in
memory. -/
def storeVote (electionId : String) (vote : Vote) : Code Unit := do
  let stored ← if S.electionStore then S.addVote electionId vote else pure false
  if stored then return ()
  else ask (.assign S.process electionId fun data => data.storeVote vote)

def validateVoteEligibility (electionId : String) (vote : Vote) : Code Bool := do
  match ← S.getElectionData electionId with
  | none => return false
  | some found => return found.data.status = .open ∧ vote.agentId ∈ found.data.participants

def castVote (electionId : String) (vote : Vote) : Code Bool := do
  if ← S.validateVoteEligibility electionId vote then
    S.storeVote electionId vote
    S.checkResolution electionId
    return true
  else return false

def markElectionExpired (electionId : String) (found : Found) : Code Unit := do
  if found.inMemory then
    ask (.assign S.process electionId fun data => { data with status := .expired })
  if S.electionStore then
    let _ ← S.updateElectionStatus electionId .expired
    return ()
  else return ()

def checkAndUpdateExpiration (electionId : String) (found : Found) : Code ElectionStatus := do
  match found.data.status, found.data.expiresAt with
  | .open, some expiresAt =>
    let now ← ask .now
    if now > expiresAt then
      S.markElectionExpired electionId found
      return .expired
    else return .open
  | status, _ => return status

def getClosedElectionResult (electionId : String) (data : ElectionData) :
    Code (Option String) := do
  match data.result.filter (· ≠ "") with
  | some result => return some result
  | none =>
    S.checkResolution electionId
    let refreshed ← S.getElectionData electionId
    return refreshed.bind fun found => found.data.result

def getResult (electionId : String) : Code (Option String) := do
  match ← S.getElectionData electionId with
  | none => return none
  | some found =>
    match ← S.checkAndUpdateExpiration electionId found with
    | .expired => return some "DENY"
    | .closed => S.getClosedElectionResult electionId found.data
    | .open => return none

end VotingService

/-! ## Clients -/

inductive Call where
  | create (S : VotingService) (participants : List String) (participantWeights : Dict String ℚ)
      (requiredVotes : Option ℚ) (timeout : Option ℤ)
  | cast (S : VotingService) (electionId : String) (vote : Vote)
  | result (S : VotingService) (electionId : String)

inductive Returned where
  | created (electionId : String)
  | accepted (success : Bool)
  | decided (result : Option String)
  deriving DecidableEq

def Call.code : Call → Code Returned
  | create S participants weights required timeout => do
    return .created (← S.createElection participants weights required timeout)
  | cast S electionId vote => do return .accepted (← S.castVote electionId vote)
  | result S electionId => do return .decided (← S.getResult electionId)

end EnhancedAgentBus.Deliberation
