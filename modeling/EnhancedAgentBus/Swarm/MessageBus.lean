import EnhancedAgentBus.Json
import EnhancedAgentBus.Lib.Dict
import EnhancedAgentBus.Lib.Machine
import Mathlib.Data.List.Sort

/-!
# The message bus of the swarm

`MessageBus`, for `send`, `broadcast`, `publish`, `receive`, `acknowledge` and
`_cleanup_expired_messages`.  An envelope is one object, however many queues it is in; so the
envelopes are kept in a list of all that were ever made, and a queue holds their places in it.  A
place stands for the id of the message too, which `uuid4` makes unique.

Each operation does its work without an await, under the lock.  There are no routing rules; the
persistent messages are kept in a second list besides, which only a replay reads, and of the
acknowledged ones an account for the statistics.  Instants are in microseconds, and the clock is
read anew for each envelope that is looked at.
-/

namespace EnhancedAgentBus.Swarm

structure AgentMessage where
  senderId : String
  recipientId : Option String
  messageType : String
  payload : Json
  acknowledged : Bool := false

structure MessageEnvelope where
  message : AgentMessage
  priority : ℤ := 5
  ttlSeconds : ℤ := 300
  persistent : Bool := false
  createdAt : ℤ
  deliveredAt : Option ℤ := none
  expiresAt : Option ℤ := none

namespace MessageEnvelope

/-- `__post_init__`, of an envelope that was given no `expires_at`. -/
def postInit (e : MessageEnvelope) : MessageEnvelope :=
  { e with
    expiresAt := if 0 < e.ttlSeconds then some (e.createdAt + e.ttlSeconds * 1000000) else none }

def isExpired (e : MessageEnvelope) (now : ℤ) : Bool := e.expiresAt.any fun t => t < now

def acknowledge (e : MessageEnvelope) : MessageEnvelope :=
  { e with message := { e.message with acknowledged := true } }

def deliver (e : MessageEnvelope) (now : ℤ) : MessageEnvelope := { e with deliveredAt := some now }

end MessageEnvelope

structure MessageBus where
  /-- All envelopes that were made. -/
  envelopes : List MessageEnvelope := []
  messages : Dict String (List ℕ) := .empty
  subscribers : Dict String (List String) := .empty
  patternSubscribers : Dict String (List String) := .empty
  deadLetterQueue : List ℕ := []
  defaultTtl : ℤ := 300
  maxDeadLetters : ℕ := 10000

/-- `l[:n]` -/
def sliceTo {α : Type} (l : List α) (n : ℤ) : List α :=
  if 0 ≤ n then l.take n.toNat else l.take (l.length - (-n).toNat)

namespace MessageBus

variable (B : MessageBus)

/-- `self._messages.get(agent_id, [])` -/
def queue (agentId : String) : List ℕ := (B.messages.get agentId).getD []

/-- `self._messages[agent_id].append(envelope)` -/
def append (i : ℕ) (agentId : String) : MessageBus :=
  { B with messages := B.messages.set agentId (B.queue agentId ++ [i]) }

def post (e : MessageEnvelope) (recipients : List String) : MessageBus :=
  let i := B.envelopes.length
  recipients.foldl (fun B => B.append i) { B with envelopes := B.envelopes ++ [e.postInit] }

/-- `ttl_seconds or self._default_ttl` -/
def ttl (ttlSeconds : Option ℤ) : ℤ :=
  if ttlSeconds.getD 0 = 0 then B.defaultTtl else ttlSeconds.getD 0

/-! ## Sending -/

structure Draft where
  senderId : String
  messageType : String
  payload : Json
  priority : ℤ := 5
  ttlSeconds : Option ℤ := none

def envelope (draft : Draft) (recipientId : Option String) (persistent : Bool) (now : ℤ) :
    MessageEnvelope where
  message :=
    { senderId := draft.senderId, recipientId := recipientId, messageType := draft.messageType,
      payload := draft.payload }
  priority := draft.priority
  ttlSeconds := B.ttl draft.ttlSeconds
  persistent := persistent
  createdAt := now

def send (draft : Draft) (recipientId : String) (persistent : Bool) (now : ℤ) : MessageBus :=
  B.post (B.envelope draft (some recipientId) persistent now) [recipientId]

def broadcastQueues (recipients : Option (List String)) : List String :=
  if recipients.getD [] = [] then ["__broadcast__"] else recipients.getD []

def broadcast (draft : Draft) (recipients : Option (List String)) (now : ℤ) : MessageBus :=
  B.post (B.envelope draft none false now) (broadcastQueues recipients)

/-- `set.add` -/
def addTo (agentId : String) (agents : List String) : List String :=
  if agentId ∈ agents then agents else agents ++ [agentId]

def subscribe (agentId topic : String) (pattern : Bool) : MessageBus :=
  if pattern then
    { B with patternSubscribers :=
        B.patternSubscribers.set topic (addTo agentId ((B.patternSubscribers.get topic).getD [])) }
  else
    { B with subscribers :=
        B.subscribers.set topic (addTo agentId ((B.subscribers.get topic).getD [])) }

def unsubscribe (agentId topic : String) (pattern : Bool) : MessageBus :=
  if pattern then
    { B with patternSubscribers :=
        B.patternSubscribers.set topic (((B.patternSubscribers.get topic).getD []).erase agentId) }
  else
    { B with subscribers :=
        B.subscribers.set topic (((B.subscribers.get topic).getD []).erase agentId) }

/-- `all_subscribers`.  What a pattern matches is `fnmatch.fnmatch`. -/
def allSubscribers (fnmatch : String → String → Bool) (topic : String) : List String :=
  ((B.subscribers.get topic).getD [] ++
    (B.patternSubscribers.entries.filter fun entry => fnmatch topic entry.1).flatMap
      Prod.snd).dedup

/-- `publish`, with the message type `topic:…` -/
def publish (fnmatch : String → String → Bool) (draft : Draft) (topic : String) (now : ℤ) :
    MessageBus :=
  if B.allSubscribers fnmatch topic = [] then B
  else
    B.post (B.envelope { draft with messageType := "topic:" ++ topic } none false now)
      (B.allSubscribers fnmatch topic)

/-! ## Receiving -/

def holds (p : MessageEnvelope → Bool) (i : ℕ) : Bool := B.envelopes[i]?.any p

def acknowledged (i : ℕ) : Bool := B.holds (fun e => e.message.acknowledged) i

/-- `expired`, in `_cleanup_expired_messages` -/
def expired (agentId : String) (clock : ℕ → ℤ) : List ℕ :=
  (B.queue agentId).filter fun i => B.holds (fun e => e.isExpired (clock i) && !e.persistent) i

def deadLetters (agentId : String) (clock : ℕ → ℤ) : List ℕ :=
  B.deadLetterQueue ++ (B.expired agentId clock).filter fun i => !B.acknowledged i

def cleanupExpiredMessages (agentId : String) (clock : ℕ → ℤ) : MessageBus :=
  if B.expired agentId clock = [] then B
  else
    { B with
      messages := B.messages.set agentId
        ((B.queue agentId).filter fun i => i ∉ B.expired agentId clock)
      deadLetterQueue := (B.deadLetters agentId clock).drop
        ((B.deadLetters agentId clock).length - B.maxDeadLetters) }

def priorityAt (i : ℕ) : ℤ := (B.envelopes[i]?.map (·.priority)).getD 0

/-- What `receive` is asked for, and the clock as it then reads it. -/
structure Request where
  messageType : Option String := none
  maxMessages : ℤ := 100
  includeExpired : Bool := false
  cleanupClock : ℕ → ℤ
  clock : ℕ → ℤ
  now : ℤ

def selected (agentId : String) (request : Request) : List ℕ :=
  let envelopes := B.queue agentId
  let envelopes :=
    if request.messageType.getD "" = "" then envelopes
    else envelopes.filter fun i =>
      B.holds (fun e => e.message.messageType = request.messageType.getD "") i
  let envelopes :=
    if request.includeExpired then envelopes
    else envelopes.filter fun i => B.holds (fun e => !e.isExpired (request.clock i)) i
  envelopes.insertionSort fun i j => B.priorityAt i ≤ B.priorityAt j

/-- `receive`, after the cleanup: what is returned, and the bus.  If nothing was filtered, it is the
queue itself that is sorted. -/
def receiveFrom (agentId : String) (request : Request) : List ℕ × MessageBus :=
  let selected := B.selected agentId request
  let received := sliceTo selected request.maxMessages
  let B :=
    if request.messageType.getD "" = "" ∧ request.includeExpired = true ∧
      (B.messages.get agentId).isSome = true then
      { B with messages := B.messages.set agentId selected }
    else B
  (received, { B with
    envelopes := received.foldl (fun es i => es.modify i fun e => e.deliver request.now)
      B.envelopes })

def receive (agentId : String) (request : Request) : List ℕ × MessageBus :=
  (B.cleanupExpiredMessages agentId request.cleanupClock).receiveFrom agentId request

def acknowledge (messageId : ℕ) : Bool × MessageBus :=
  if ∃ envelopes ∈ B.messages.values, messageId ∈ envelopes then
    (true, { B with envelopes := B.envelopes.modify messageId MessageEnvelope.acknowledge })
  else (false, B)

end MessageBus

/-! ## Runs -/

inductive BusEvent where
  | send (draft : MessageBus.Draft) (recipientId : String) (persistent : Bool) (now : ℤ)
  | broadcast (draft : MessageBus.Draft) (recipients : Option (List String)) (now : ℤ)
  | subscribe (agentId topic : String) (pattern : Bool)
  | unsubscribe (agentId topic : String) (pattern : Bool)
  | publish (draft : MessageBus.Draft) (topic : String) (now : ℤ)
  | receive (agentId : String) (request : MessageBus.Request)
  | acknowledge (agentId : String) (messageId : ℕ)
  | cleanup (agentId : String) (clock : ℕ → ℤ)

/-- What becomes of a message for an agent: it is put in the agent's queue, received, acknowledged by
the agent, or taken from the agent's queue as expired, to the dead letters or not. -/
inductive Fate where
  | addressed (agentId : String) (i : ℕ)
  | received (agentId : String) (i : ℕ)
  | acknowledged (agentId : String) (i : ℕ)
  | expired (agentId : String) (i : ℕ) (deadLettered : Bool)
  deriving DecidableEq

structure BusRun where
  bus : MessageBus
  log : List Fate := []

namespace BusRun

variable (S : BusRun)

def posted (bus : MessageBus) (recipients : List String) : BusRun where
  bus := bus
  log := recipients.map (fun agentId => .addressed agentId S.bus.envelopes.length) ++ S.log

def cleanup (agentId : String) (clock : ℕ → ℤ) : BusRun where
  bus := S.bus.cleanupExpiredMessages agentId clock
  log := (S.bus.expired agentId clock).map (fun i => .expired agentId i !S.bus.acknowledged i) ++
    S.log

def receive (agentId : String) (request : MessageBus.Request) : BusRun :=
  let S := S.cleanup agentId request.cleanupClock
  { bus := (S.bus.receiveFrom agentId request).2
    log := (S.bus.receiveFrom agentId request).1.map (.received agentId) ++ S.log }

def acknowledge (agentId : String) (messageId : ℕ) : BusRun :=
  if (S.bus.acknowledge messageId).1 then
    { bus := (S.bus.acknowledge messageId).2, log := .acknowledged agentId messageId :: S.log }
  else S

def step (fnmatch : String → String → Bool) (S : BusRun) : BusEvent → BusRun
  | .send draft recipientId persistent now =>
    S.posted (S.bus.send draft recipientId persistent now) [recipientId]
  | .broadcast draft recipients now =>
    S.posted (S.bus.broadcast draft recipients now) (MessageBus.broadcastQueues recipients)
  | .subscribe agentId topic pattern => { S with bus := S.bus.subscribe agentId topic pattern }
  | .unsubscribe agentId topic pattern => { S with bus := S.bus.unsubscribe agentId topic pattern }
  | .publish draft topic now =>
    S.posted (S.bus.publish fnmatch draft topic now) (S.bus.allSubscribers fnmatch topic)
  | .receive agentId request => S.receive agentId request
  | .acknowledge agentId messageId => S.acknowledge agentId messageId
  | .cleanup agentId clock => S.cleanup agentId clock

def run (fnmatch : String → String → Bool) (defaultTtl : ℤ) (maxDeadLetters : ℕ)
    (events : List BusEvent) : BusRun :=
  Machine.run (step fnmatch)
    ⟨{ defaultTtl := defaultTtl, maxDeadLetters := maxDeadLetters }, []⟩ events

end BusRun

end EnhancedAgentBus.Swarm
