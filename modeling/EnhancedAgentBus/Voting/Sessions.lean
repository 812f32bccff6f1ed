import EnhancedAgentBus.Json
import EnhancedAgentBus.Lib.Dict
import EnhancedAgentBus.Lib.Machine
import Mathlib.Algebra.Order.Ring.Rat

/-!
# The event-driven vote collector

The sessions of an `EventDrivenVoteCollector`, the votes that come in for them and the channels that
the collector listens to.  A vote that comes in is one object, and every session that takes it keeps
that object: the collector has the objects (`heap`), and a session the places of its votes.

A call is one step.  The adding of a vote gives up control nowhere.  Weights, thresholds and rates are
rational numbers: the code's floats, without their rounding; what the Rust kernel makes of the
weights is a parameter.  Left out are the hashes that Redis keeps of sessions and votes,
`_in_memory_votes`, and the completion event, which is set when `completed` is.
-/

namespace EnhancedAgentBus.Voting

universe u

abbrev Seconds := ℚ

/-! ## Votes and sessions -/

structure VoteEvent where
  voteId : String
  messageId : String
  agentId : String
  decision : String
  reasoning : String := ""
  confidence : ℚ := 1
  weight : ℚ := 1
  timestamp : Seconds
  metadata : Json := .obj []

structure VoteSession (ν : Type u) where
  sessionId : String
  messageId : String
  requiredVotes : ℤ
  consensusThreshold : ℚ
  timeoutSeconds : ℤ
  votes : List ν := []
  agentWeights : Dict String ℚ := .empty
  createdAt : Seconds
  completed : Bool := false

/-- What `check_consensus` answers. -/
inductive Consensus where
  | insufficientVotes (received : ℕ) (required : ℤ)
  | zeroTotalWeight
  | approved (approvalRate : ℚ) (received : ℕ)
  | rejected (rejectionRate : ℚ) (received : ℕ)
  | thresholdNotMet (approvalRate rejectionRate : ℚ) (received : ℕ)
  deriving DecidableEq

/-- `consensus["consensus_reached"]` -/
def Consensus.reached : Consensus → Bool
  | approved _ _ => true
  | rejected _ _ => true
  | _ => false

abbrev Kernel := List ℚ → Option (List ℚ)

namespace VoteSession

def stabilizeWeights {ν : Type u} (kernel : Kernel) (session : VoteSession ν) : Dict String ℚ :=
  if session.agentWeights.entries = [] then session.agentWeights
  else match kernel session.agentWeights.values with
    | none => session.agentWeights
    | some stabilized =>
      let total := stabilized.sum
      let rescaled := if 0 < total then stabilized.map (· / total) else stabilized
      (session.agentWeights.keys.zip rescaled).foldl (fun d e => d.set e.1 e.2) .empty

def checkConsensus (kernel : Kernel) (session : VoteSession VoteEvent) : Consensus :=
  if (session.votes.length : ℤ) < session.requiredVotes then
    .insufficientVotes session.votes.length session.requiredVotes
  else
    let activeWeights := session.stabilizeWeights kernel
    let weight (v : VoteEvent) : ℚ := (activeWeights.get v.agentId).getD v.weight
    let totalWeight := (session.votes.map weight).sum
    let approveWeight := ((session.votes.filter fun v => v.decision = "approve").map weight).sum
    let rejectWeight := ((session.votes.filter fun v => v.decision = "reject").map weight).sum
    if totalWeight = 0 then .zeroTotalWeight
    else
      let approvalRate := approveWeight / totalWeight
      let rejectionRate := rejectWeight / totalWeight
      if session.consensusThreshold ≤ approvalRate then .approved approvalRate session.votes.length
      else if session.consensusThreshold ≤ rejectionRate then
        .rejected rejectionRate session.votes.length
      else .thresholdNotMet approvalRate rejectionRate session.votes.length

def isTimedOut {ν : Type u} (session : VoteSession ν) (now : Seconds) : Bool :=
  session.createdAt + session.timeoutSeconds < now

def resolve (heap : List VoteEvent) (session : VoteSession ℕ) : VoteSession VoteEvent where
  sessionId := session.sessionId
  messageId := session.messageId
  requiredVotes := session.requiredVotes
  consensusThreshold := session.consensusThreshold
  timeoutSeconds := session.timeoutSeconds
  votes := session.votes.filterMap fun place => heap[place]?
  agentWeights := session.agentWeights
  createdAt := session.createdAt
  completed := session.completed

/-- `vote.weight = self.agent_weights[vote.agent_id]`, if the agent has a weight there. -/
def applyWeight {ν : Type u} (session : VoteSession ν) (vote : VoteEvent) : VoteEvent :=
  match session.agentWeights.get vote.agentId with
  | none => vote
  | some weight => { vote with weight := weight }

/-- `add_vote`: the vote objects and the session after a vote that is new. -/
def addVote (heap : List VoteEvent) (session : VoteSession ℕ) (place : ℕ) :
    Option (List VoteEvent × VoteSession ℕ) :=
  match heap[place]? with
  | none => none
  | some vote =>
    if vote.agentId ∈ (session.resolve heap).votes.map VoteEvent.agentId then none
    else
      some (heap.set place (session.applyWeight vote),
        { session with votes := session.votes ++ [place] })

end VoteSession

/-! ## The collector -/

structure Collector where
  sessions : Dict String (VoteSession ℕ) := .empty
  /-- the vote objects -/
  heap : List VoteEvent := []
  /-- the messages to whose channels the collector is subscribed, if it is connected -/
  pubsub : Option (List String) := none
  maxConcurrentSessions : ℕ := 1000

namespace Collector

def Subscribed (C : Collector) (messageId : String) : Prop :=
  ∃ channels, C.pubsub = some channels ∧ messageId ∈ channels

instance (C : Collector) (messageId : String) : Decidable (C.Subscribed messageId) :=
  match h : C.pubsub with
  | none => isFalse fun ⟨_, h', _⟩ => by rw [h] at h'; cases h'
  | some channels =>
    if hmem : messageId ∈ channels then isTrue ⟨channels, h, hmem⟩
    else isFalse fun ⟨_, h', hmem'⟩ => by
      rw [h, Option.some_inj] at h'
      exact hmem (h' ▸ hmem')

/-- `await self.pubsub.subscribe(channel)` -/
def subscribe (C : Collector) (messageId : String) : Collector :=
  { C with pubsub := C.pubsub.map fun channels => messageId :: channels }

/-- `await self.pubsub.unsubscribe(channel)` -/
def unsubscribe (C : Collector) (messageId : String) : Collector :=
  { C with pubsub := C.pubsub.map fun channels => channels.filter (· ≠ messageId) }

def offer (kernel : Kernel) (messageId : String) (place : ℕ) (C : Collector)
    (sessionId : String) : Collector :=
  match C.sessions.get sessionId with
  | none => C
  | some session =>
    if session.messageId ≠ messageId then C
    else if session.completed then C
    else match session.addVote C.heap place with
      | none => C
      | some (heap, session) =>
        let consensus := (session.resolve heap).checkConsensus kernel
        { C with
          heap := heap
          sessions := C.sessions.set sessionId
            { session with completed := consensus.reached } }

def processVoteEvent (kernel : Kernel) (C : Collector) (vote : VoteEvent) : Collector :=
  C.sessions.keys.foldl (offer kernel vote.messageId C.heap.length)
    { C with heap := C.heap ++ [vote] }

/-- `_cleanup_session`; the flag says whether `UNSUBSCRIBE` succeeds. -/
def cleanupSession (C : Collector) (sessionId : String) (unsubscribes : Bool) : Collector :=
  match C.sessions.get sessionId with
  | none => C
  | some session =>
    let removed := { C with sessions := C.sessions.erase sessionId }
    if unsubscribes then removed.unsubscribe session.messageId else removed

def expired (C : Collector) (now : Seconds) : List String :=
  (C.sessions.entries.filter fun entry => entry.2.isTimedOut now).map Prod.fst

def cleanupExpiredSessions (C : Collector) (now : Seconds) (unsubscribes : String → Bool) :
    Collector :=
  (C.expired now).foldl (fun C sessionId => C.cleanupSession sessionId (unsubscribes sessionId)) C

/-- The arguments of `create_vote_session`, and what the environment adds to them. -/
structure Creation where
  messageId : String
  requiredVotes : ℤ := 3
  consensusThreshold : ℚ := 66 / 100
  timeoutSeconds : ℤ := 300
  agentWeights : Dict String ℚ := .empty
  /-- the digits that `uuid4` draws -/
  hex : String
  now : Seconds
  /-- `SUBSCRIBE` succeeds -/
  subscribes : Bool := true
  /-- `UNSUBSCRIBE` succeeds, for the sessions that are cleaned up first -/
  unsubscribes : String → Bool := fun _ => true

/-- `session_id`: the message and the digits. -/
def Creation.sessionId (creation : Creation) : String := creation.messageId ++ ":" ++ creation.hex

def Creation.session {ν : Type u} (creation : Creation) : VoteSession ν where
  sessionId := creation.sessionId
  messageId := creation.messageId
  requiredVotes := creation.requiredVotes
  consensusThreshold := creation.consensusThreshold
  timeoutSeconds := creation.timeoutSeconds
  agentWeights := creation.agentWeights
  createdAt := creation.now

def full (C : Collector) : Bool := C.maxConcurrentSessions ≤ C.sessions.keys.length

/-- The collector that `create_vote_session` makes room in. -/
def makeRoom (C : Collector) (creation : Creation) : Collector :=
  if C.full then C.cleanupExpiredSessions creation.now creation.unsubscribes else C

/-- `create_vote_session`: `RuntimeError` if there is no room; a session that fails to be subscribed
stays. -/
def createVoteSession (C : Collector) (creation : Creation) : Collector :=
  let room := C.makeRoom creation
  if room.full then room
  else
    let added := { room with sessions := room.sessions.set creation.sessionId creation.session }
    if creation.subscribes then added.subscribe creation.messageId else added

end Collector

/-! ## Runs -/

inductive Event where
  | create (creation : Collector.Creation)
  /-- a vote that `submit_vote` has published on the channel of its message -/
  | published (vote : VoteEvent)
  /-- a vote that `submit_vote` could not publish -/
  | submitted (vote : VoteEvent)
  /-- `wait_for_consensus` is completed or times out, and cleans up -/
  | finish (sessionId : String) (unsubscribes : Bool)
  | cleanup (sessionId : String) (unsubscribes : Bool)

namespace Collector

/-- The collector after an event.  `uuid4` draws digits that make a new identifier. -/
def step (kernel : Kernel) (C : Collector) : Event → Collector
  | .create creation =>
    if creation.sessionId ∈ C.sessions.keys then C else C.createVoteSession creation
  | .published vote => if C.Subscribed vote.messageId then C.processVoteEvent kernel vote else C
  | .submitted vote => C.processVoteEvent kernel vote
  | .finish sessionId unsubscribes => C.cleanupSession sessionId unsubscribes
  | .cleanup sessionId unsubscribes => C.cleanupSession sessionId unsubscribes

def view (C : Collector) (sessionId : String) : Option (VoteSession VoteEvent) :=
  (C.sessions.get sessionId).map (VoteSession.resolve C.heap)

end Collector

end EnhancedAgentBus.Voting
