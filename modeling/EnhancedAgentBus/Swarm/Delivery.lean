import EnhancedAgentBus.Swarm.MessageBus
import Mathlib.Data.List.Dedup

/-!
# What the message bus delivers

A message stays with each of its recipients until it is received, or goes to the dead letters
(`Kept`), and what becomes of it for one recipient does not depend on the others (`Independent`).
The queues are apart from each other, so that both hold of all that is in a queue.  But the mark of
an acknowledgement is one for all recipients, and it decides whether an expired message goes to the
dead letters; so both hold as long as no queue is cleaned up of a message that others have
acknowledged (`Careful`).
-/

namespace EnhancedAgentBus.Swarm

/-! ## What is promised -/

/-- **No message is lost**: until its recipient has received it, it is in the recipient's queue or,
expired, among the dead letters. -/
def Kept (S : BusRun) : Prop :=
  ∀ agentId i, .addressed agentId i ∈ S.log → .received agentId i ∉ S.log →
    i ∈ S.bus.queue agentId ∨ i ∈ S.bus.deadLetterQueue ∧ ∃ a, .expired a i true ∈ S.log

/-- What the agent receives of a message, and whether the message is dead-lettered for it. -/
def Fate.about (agentId : String) (i : ℕ) : Fate → Bool
  | received a j | expired a j _ => a = agentId ∧ j = i
  | _ => false

def Other (log : List Fate) (agentId : String) (i : ℕ) (a : String) : Prop :=
  a ≠ agentId ∧ .addressed a i ∈ log

instance (log : List Fate) (agentId : String) (i : ℕ) (a : String) :
    Decidable (Other log agentId i a) := inferInstanceAs (Decidable (_ ∧ _))

/-- An acknowledgement or a receive by another recipient of the message. -/
def BusEvent.byOther (log : List Fate) (agentId : String) (i : ℕ) : BusEvent → Bool
  | receive a _ | acknowledge a _ => Other log agentId i a
  | _ => false

/-- **No message depends on its other recipients**: without what they receive and acknowledge, the
same becomes of it. -/
def Independent (run : List BusEvent → BusRun) (events : List BusEvent) : Prop :=
  ∀ agentId i, .addressed agentId i ∈ (run events).log →
    (run (events.filter fun e => !e.byOther (run events).log agentId i)).log.filter
        (Fate.about agentId i) =
      (run events).log.filter (Fate.about agentId i)

/-- A queue may be cleaned up: of the messages that have expired in it and were acknowledged, each
was received by the agent, or is among the dead letters already, and it was acknowledged by the
agent, or by somebody to whom it is not addressed.  The dead letters do not exceed their limit. -/
structure MayClean (S : BusRun) (agentId : String) (clock : ℕ → ℤ) : Prop where
  kept : ∀ i ∈ S.bus.expired agentId clock, S.bus.acknowledged i = true →
    .received agentId i ∈ S.log ∨ i ∈ S.bus.deadLetterQueue
  own : ∀ i ∈ S.bus.expired agentId clock, S.bus.acknowledged i = true →
    ∃ a, .acknowledged a i ∈ S.log ∧ ¬ Other S.log agentId i a
  room : (S.bus.deadLetters agentId clock).length ≤ S.bus.maxDeadLetters

/-- **The operations under which the bus keeps its promises**, in the state that they find. -/
def Careful (S : BusRun) : BusEvent → Prop
  | .receive agentId request => MayClean S agentId request.cleanupClock
  | .cleanup agentId clock => MayClean S agentId clock
  | _ => True

/-! ## What the operations leave in the queues -/

namespace MessageBus

variable {B C : MessageBus} {agentId a : String} {i : ℕ} {clock : ℕ → ℤ} {request : Request}

theorem queue_set (l : List ℕ) :
    { B with messages := B.messages.set a l }.queue agentId =
      if agentId = a then l else B.queue agentId := by
  unfold queue
  rw [Dict.get_set]
  split <;> rfl

theorem queue_append (j : ℕ) :
    (B.append j a).queue agentId =
      if agentId = a then B.queue agentId ++ [j] else B.queue agentId := by
  unfold append
  rw [queue_set]
  split
  · next h => rw [h]
  · rfl

theorem foldl_append (agentId : String) (j : ℕ) (recipients : List String) :
    (recipients.foldl (fun B => B.append j) B).queue agentId =
        B.queue agentId ++ List.replicate (recipients.count agentId) j ∧
      { recipients.foldl (fun B => B.append j) B with messages := B.messages } = B := by
  induction recipients generalizing B with
  | nil => exact ⟨(List.append_nil _).symm, rfl⟩
  | cons a rest ih =>
    obtain ⟨hqueue, hrest⟩ := ih (B := B.append j a)
    refine ⟨?_, ?_⟩
    · rw [List.foldl_cons, hqueue, queue_append, List.count_cons]
      by_cases ha : agentId = a
      · subst ha
        rw [if_pos rfl, if_pos (beq_self_eq_true _), List.append_assoc]
        rfl
      · rw [if_neg ha, if_neg (by simpa using fun h => ha h.symm), Nat.add_zero]
    · rw [List.foldl_cons]
      exact congrArg (fun C => { C with messages := B.messages }) hrest

theorem queue_post (e : MessageEnvelope) (recipients : List String) :
    (B.post e recipients).queue agentId =
      B.queue agentId ++ List.replicate (recipients.count agentId) B.envelopes.length :=
  (foldl_append _ _ recipients).1

theorem post_eq (e : MessageEnvelope) (recipients : List String) :
    { B.post e recipients with messages := B.messages } =
      { B with envelopes := B.envelopes ++ [e.postInit] } :=
  (foldl_append "" (B := { B with envelopes := B.envelopes ++ [e.postInit] })
    B.envelopes.length recipients).2

theorem post_envelopes (e : MessageEnvelope) (recipients : List String) :
    (B.post e recipients).envelopes = B.envelopes ++ [e.postInit] := by
  have h := congrArg MessageBus.envelopes (post_eq (B := B) e recipients)
  exact h

theorem post_deadLetterQueue (e : MessageEnvelope) (recipients : List String) :
    (B.post e recipients).deadLetterQueue = B.deadLetterQueue := by
  have h := congrArg MessageBus.deadLetterQueue (post_eq (B := B) e recipients)
  exact h

theorem queue_cleanup :
    (B.cleanupExpiredMessages a clock).queue agentId =
      if agentId = a then (B.queue a).filter fun i => i ∉ B.expired a clock
      else B.queue agentId := by
  unfold cleanupExpiredMessages
  split
  · rename_i hnone
    rw [hnone]
    split
    · next h => rw [h, List.filter_eq_self.mpr (by simp)]
    · rfl
  · exact queue_set _

theorem cleanup_envelopes :
    (B.cleanupExpiredMessages a clock).envelopes = B.envelopes := by
  unfold cleanupExpiredMessages
  split <;> rfl

theorem cleanup_deadLetterQueue (hroom : (B.deadLetters a clock).length ≤ B.maxDeadLetters) :
    (B.cleanupExpiredMessages a clock).deadLetterQueue = B.deadLetters a clock := by
  unfold cleanupExpiredMessages
  split
  · rename_i hnone
    unfold deadLetters
    rw [hnone]
    exact (List.append_nil _).symm
  · show List.drop _ _ = _
    rw [Nat.sub_eq_zero_of_le hroom, List.drop_zero]

def Request.Unfiltered (request : Request) : Prop :=
  request.messageType.getD "" = "" ∧ request.includeExpired = true

instance (request : Request) : Decidable request.Unfiltered :=
  inferInstanceAs (Decidable (_ ∧ _))

theorem perm_selected (h : request.Unfiltered) : (B.selected a request).Perm (B.queue a) := by
  unfold selected
  rw [h.2]
  simp only [if_pos h.1, if_true]
  exact List.perm_insertionSort _ _

theorem queue_receiveFrom :
    (B.receiveFrom a request).2.queue agentId =
      if agentId = a ∧ request.Unfiltered then B.selected a request else B.queue agentId := by
  unfold receiveFrom
  by_cases hall : request.Unfiltered
  · by_cases hget : (B.messages.get a).isSome = true
    · simp only [if_pos (⟨hall.1, hall.2, hget⟩ : _ ∧ _ ∧ _)]
      refine (queue_set _).trans ?_
      simp only [and_iff_left hall]
    · simp only [if_neg (fun h : _ ∧ _ ∧ _ => hget h.2.2)]
      have hempty : B.queue a = [] := by
        unfold queue
        rw [Option.not_isSome_iff_eq_none.mp hget]
        rfl
      split
      · rename_i h
        have hperm := perm_selected (B := B) (a := a) hall
        rw [hempty] at hperm
        rw [h.1, hperm.eq_nil]
        exact hempty
      · rfl
  · simp only [if_neg (fun h : _ ∧ _ ∧ _ => hall ⟨h.1, h.2.1⟩), if_neg (fun h : _ ∧ _ => hall h.2)]
    rfl

theorem mem_queue_receiveFrom :
    i ∈ (B.receiveFrom a request).2.queue agentId ↔ i ∈ B.queue agentId := by
  rw [queue_receiveFrom]
  split
  · next h => rw [h.1, (perm_selected h.2).mem_iff]
  · rfl

theorem receiveFrom_deadLetterQueue :
    (B.receiveFrom a request).2.deadLetterQueue = B.deadLetterQueue := by
  unfold receiveFrom
  split <;> rfl

theorem queue_subscribe (topic : String) (pattern : Bool) :
    (B.subscribe a topic pattern).queue agentId = B.queue agentId := by
  unfold subscribe
  split <;> rfl

theorem subscribe_deadLetterQueue (topic : String) (pattern : Bool) :
    (B.subscribe a topic pattern).deadLetterQueue = B.deadLetterQueue := by
  unfold subscribe
  split <;> rfl

theorem queue_unsubscribe (topic : String) (pattern : Bool) :
    (B.unsubscribe a topic pattern).queue agentId = B.queue agentId := by
  unfold unsubscribe
  split <;> rfl

theorem unsubscribe_deadLetterQueue (topic : String) (pattern : Bool) :
    (B.unsubscribe a topic pattern).deadLetterQueue = B.deadLetterQueue := by
  unfold unsubscribe
  split <;> rfl

theorem publish_cases (fnmatch : String → String → Bool) (draft : Draft) (topic : String)
    (now : ℤ) :
    B.allSubscribers fnmatch topic = [] ∧ B.publish fnmatch draft topic now = B ∨
      ∃ e, B.publish fnmatch draft topic now = B.post e (B.allSubscribers fnmatch topic) := by
  unfold publish
  split
  · next hnone => exact .inl ⟨hnone, rfl⟩
  · exact .inr ⟨_, rfl⟩

theorem queue_acknowledge (j : ℕ) : (B.acknowledge j).2.queue agentId = B.queue agentId := by
  unfold acknowledge
  split <;> rfl

theorem acknowledge_deadLetterQueue (j : ℕ) :
    (B.acknowledge j).2.deadLetterQueue = B.deadLetterQueue := by
  unfold acknowledge
  split <;> rfl

end MessageBus

/-! ## No message is lost -/

open MessageBus

/-- What is kept, and that the dead letters are what was found to have expired. -/
structure Accounted (S : BusRun) : Prop where
  kept : Kept S
  dead : ∀ i ∈ S.bus.deadLetterQueue, ∃ a, .expired a i true ∈ S.log

theorem accounted_posted {S : BusRun} (h : Accounted S) (e : MessageEnvelope)
    (recipients : List String) : Accounted (S.posted (S.bus.post e recipients) recipients) := by
  have hdead : (S.posted (S.bus.post e recipients) recipients).bus.deadLetterQueue =
      S.bus.deadLetterQueue := post_deadLetterQueue e recipients
  have hqueue : ∀ agentId, (S.posted (S.bus.post e recipients) recipients).bus.queue agentId =
      S.bus.queue agentId ++ List.replicate (recipients.count agentId) S.bus.envelopes.length :=
    fun _ => queue_post e recipients
  refine ⟨fun agentId i haddressed hreceived => ?_, fun i hi => ?_⟩
  · rw [hqueue, hdead]
    rcases List.mem_append.mp haddressed with hnew | hold
    · obtain ⟨a, ha, heq⟩ := List.mem_map.mp hnew
      obtain ⟨rfl, rfl⟩ := Fate.addressed.inj heq
      refine .inl (List.mem_append_right _ (List.mem_replicate.mpr ⟨?_, rfl⟩))
      exact (List.count_pos_iff.mpr ha).ne'
    · rcases h.kept agentId i hold fun hmem => hreceived (List.mem_append_right _ hmem) with
        hmem | ⟨hmem, a, ha⟩
      · exact .inl (List.mem_append_left _ hmem)
      · exact .inr ⟨hmem, a, List.mem_append_right _ ha⟩
  · rw [hdead] at hi
    obtain ⟨a, ha⟩ := h.dead i hi
    exact ⟨a, List.mem_append_right _ ha⟩

theorem accounted_cleanup {S : BusRun} (h : Accounted S) {agentId : String} {clock : ℕ → ℤ}
    (hmay : MayClean S agentId clock) : Accounted (S.cleanup agentId clock) := by
  have hdead : (S.cleanup agentId clock).bus.deadLetterQueue = S.bus.deadLetterQueue ++
      (S.bus.expired agentId clock).filter fun i => !S.bus.acknowledged i :=
    cleanup_deadLetterQueue hmay.room
  have hqueue : ∀ a, (S.cleanup agentId clock).bus.queue a = if a = agentId then
      (S.bus.queue agentId).filter fun i => i ∉ S.bus.expired agentId clock
      else S.bus.queue a := fun _ => queue_cleanup
  have hlogged : ∀ i ∈ S.bus.expired agentId clock, S.bus.acknowledged i = false →
      .expired agentId i true ∈ (S.cleanup agentId clock).log := by
    intro i hi hack
    refine List.mem_append_left _ (List.mem_map.mpr ⟨i, hi, ?_⟩)
    rw [hack]
    rfl
  refine ⟨fun a i haddressed hreceived => ?_, fun i hi => ?_⟩
  · have haddressed' : .addressed a i ∈ S.log := by
      rcases List.mem_append.mp haddressed with hnew | hold
      · obtain ⟨j, -, heq⟩ := List.mem_map.mp hnew
        cases heq
      · exact hold
    have hreceived' : .received a i ∉ S.log := fun hmem =>
      hreceived (List.mem_append_right _ hmem)
    rw [hqueue, hdead]
    rcases h.kept a i haddressed' hreceived' with hmem | ⟨hmem, a', ha'⟩
    · by_cases hexpired : a = agentId ∧ i ∈ S.bus.expired agentId clock
      · obtain ⟨rfl, hexpired⟩ := hexpired
        right
        rcases hack : S.bus.acknowledged i with _ | _
        · exact ⟨List.mem_append_right _ (List.mem_filter.mpr ⟨hexpired, by rw [hack]; rfl⟩), a,
            hlogged i hexpired hack⟩
        · have hdead := (hmay.kept i hexpired hack).resolve_left hreceived'
          obtain ⟨a', ha'⟩ := h.dead i hdead
          exact ⟨List.mem_append_left _ hdead, a', List.mem_append_right _ ha'⟩
      · left
        split
        · rename_i ha
          subst ha
          exact List.mem_filter.mpr ⟨hmem, by simpa using fun h => hexpired ⟨rfl, h⟩⟩
        · exact hmem
    · exact .inr ⟨List.mem_append_left _ hmem, a', List.mem_append_right _ ha'⟩
  · rw [hdead] at hi
    rcases List.mem_append.mp hi with hi | hi
    · obtain ⟨a, ha⟩ := h.dead i hi
      exact ⟨a, List.mem_append_right _ ha⟩
    · obtain ⟨hexpired, hack⟩ := List.mem_filter.mp hi
      exact ⟨agentId, hlogged i hexpired (by simpa using hack)⟩

theorem Accounted.of_kept {S S' : BusRun} (h : Accounted S) (log : List Fate)
    (hlog : S'.log = log ++ S.log) (hnone : ∀ agentId i, .addressed agentId i ∉ log)
    (hqueue : ∀ agentId i, i ∈ S'.bus.queue agentId ↔ i ∈ S.bus.queue agentId)
    (hdead : S'.bus.deadLetterQueue = S.bus.deadLetterQueue) : Accounted S' := by
  refine ⟨fun agentId i haddressed hreceived => ?_, fun i hi => ?_⟩
  · rw [hlog] at haddressed hreceived ⊢
    rw [hqueue, hdead]
    rcases h.kept agentId i ((List.mem_append.mp haddressed).resolve_left (hnone agentId i))
      fun hmem => hreceived (List.mem_append_right _ hmem) with hmem | ⟨hmem, a, ha⟩
    · exact .inl hmem
    · exact .inr ⟨hmem, a, List.mem_append_right _ ha⟩
  · rw [hdead] at hi
    obtain ⟨a, ha⟩ := h.dead i hi
    exact ⟨a, by rw [hlog]; exact List.mem_append_right _ ha⟩

theorem accounted_step (fnmatch : String → String → Bool) {S : BusRun} (h : Accounted S)
    (e : BusEvent) (he : Careful S e) : Accounted (S.step fnmatch e) := by
  cases e with
  | send draft recipientId persistent now => exact accounted_posted h _ _
  | broadcast draft recipients now => exact accounted_posted h _ _
  | subscribe agentId topic pattern =>
    exact h.of_kept [] rfl (fun _ _ => List.not_mem_nil)
      (fun a i => by rw [BusRun.step, queue_subscribe]) (subscribe_deadLetterQueue topic pattern)
  | unsubscribe agentId topic pattern =>
    exact h.of_kept [] rfl (fun _ _ => List.not_mem_nil)
      (fun a i => by rw [BusRun.step, queue_unsubscribe])
      (unsubscribe_deadLetterQueue topic pattern)
  | publish draft topic now =>
    rw [BusRun.step]
    rcases publish_cases (B := S.bus) fnmatch draft topic now with ⟨hnone, heq⟩ | ⟨e, heq⟩
    · rw [hnone, heq]
      exact h
    · rw [heq]
      exact accounted_posted h _ _
  | receive agentId request =>
    refine (accounted_cleanup h he).of_kept _ rfl (fun a i hmem => ?_)
      (fun a i => mem_queue_receiveFrom) receiveFrom_deadLetterQueue
    obtain ⟨j, -, heq⟩ := List.mem_map.mp hmem
    cases heq
  | acknowledge agentId messageId =>
    show Accounted (if _ then _ else _)
    split
    · refine h.of_kept [.acknowledged agentId messageId] rfl (fun a i hmem => ?_)
        (fun a i => by rw [queue_acknowledge]) (acknowledge_deadLetterQueue messageId)
      cases List.mem_singleton.mp hmem
    · exact h
  | cleanup agentId clock => exact accounted_cleanup h he

/-! ## No message depends on its other recipients -/

def MessageEnvelope.fixed (e : MessageEnvelope) : MessageEnvelope :=
  { e with deliveredAt := none, message := { e.message with acknowledged := false } }

structure Alike (agentId : String) (B C : MessageBus) : Prop where
  queue : C.queue agentId = B.queue agentId
  envelopes : C.envelopes.map MessageEnvelope.fixed = B.envelopes.map MessageEnvelope.fixed
  subscribers : C.subscribers = B.subscribers
  patternSubscribers : C.patternSubscribers = B.patternSubscribers
  defaultTtl : C.defaultTtl = B.defaultTtl

section Alike

variable {B C D : MessageBus} {agentId a : String} {i : ℕ} {clock : ℕ → ℤ} {request : Request}

theorem Alike.refl (B : MessageBus) : Alike agentId B B := ⟨rfl, rfl, rfl, rfl, rfl⟩

theorem Alike.symm (h : Alike agentId B C) : Alike agentId C B :=
  ⟨h.queue.symm, h.envelopes.symm, h.subscribers.symm, h.patternSubscribers.symm,
    h.defaultTtl.symm⟩

theorem Alike.trans (h : Alike agentId B C) (h' : Alike agentId C D) : Alike agentId B D :=
  ⟨h'.queue.trans h.queue, h'.envelopes.trans h.envelopes, h'.subscribers.trans h.subscribers,
    h'.patternSubscribers.trans h.patternSubscribers, h'.defaultTtl.trans h.defaultTtl⟩

theorem Alike.length (h : Alike agentId B C) : C.envelopes.length = B.envelopes.length := by
  have hlength := congrArg List.length h.envelopes
  rwa [List.length_map, List.length_map] at hlength

theorem map_fixed_modify {f : MessageEnvelope → MessageEnvelope} (hf : ∀ e, (f e).fixed = e.fixed)
    (es : List MessageEnvelope) (j : ℕ) :
    (es.modify j f).map MessageEnvelope.fixed = es.map MessageEnvelope.fixed := by
  refine List.ext_getElem? fun k => ?_
  rw [List.getElem?_map, List.getElem?_map, List.getElem?_modify]
  rcases es[k]? with _ | e
  · rfl
  · show some (MessageEnvelope.fixed (if _ then _ else _)) = _
    split
    · rw [hf]
      rfl
    · rfl

theorem Alike.holds (h : Alike agentId B C) {p : MessageEnvelope → Bool}
    (hp : ∀ e, p e.fixed = p e) (j : ℕ) : C.holds p j = B.holds p j := by
  have hread : ∀ D : MessageBus,
      D.holds p j = ((D.envelopes.map MessageEnvelope.fixed)[j]?).any p := by
    intro D
    unfold MessageBus.holds
    rw [List.getElem?_map]
    rcases D.envelopes[j]? with _ | e
    · rfl
    · exact (hp e).symm
  rw [hread, hread, h.envelopes]

theorem Alike.expired (h : Alike agentId B C) :
    C.expired agentId clock = B.expired agentId clock := by
  unfold MessageBus.expired
  rw [h.queue]
  exact List.filter_congr fun j _ => h.holds (fun _ => rfl) j

theorem Alike.priorityAt (h : Alike agentId B C) (j : ℕ) : C.priorityAt j = B.priorityAt j := by
  have hread : ∀ D : MessageBus, D.priorityAt j =
      (((D.envelopes.map MessageEnvelope.fixed)[j]?).map (·.priority)).getD 0 := by
    intro D
    unfold MessageBus.priorityAt
    rw [List.getElem?_map, Option.map_map]
    rfl
  rw [hread, hread, h.envelopes]

theorem Alike.selected (h : Alike agentId B C) :
    C.selected agentId request = B.selected agentId request := by
  have htype : (fun j => C.holds (fun e => e.message.messageType = request.messageType.getD "") j) =
      fun j => B.holds (fun e => e.message.messageType = request.messageType.getD "") j :=
    funext fun j => h.holds (fun _ => rfl) j
  have hexpired : (fun j => C.holds (fun e => !e.isExpired (request.clock j)) j) =
      fun j => B.holds (fun e => !e.isExpired (request.clock j)) j :=
    funext fun j => h.holds (fun _ => rfl) j
  have hpriority : C.priorityAt = B.priorityAt := funext h.priorityAt
  unfold MessageBus.selected
  simp only [htype, hexpired, hpriority, h.queue]

theorem post_fields (e : MessageEnvelope) (recipients : List String) :
    (B.post e recipients).subscribers = B.subscribers ∧
      (B.post e recipients).patternSubscribers = B.patternSubscribers ∧
      (B.post e recipients).defaultTtl = B.defaultTtl := by
  have hsub := congrArg MessageBus.subscribers (post_eq (B := B) e recipients)
  have hpattern := congrArg MessageBus.patternSubscribers (post_eq (B := B) e recipients)
  have httl := congrArg MessageBus.defaultTtl (post_eq (B := B) e recipients)
  exact ⟨hsub, hpattern, httl⟩

theorem Alike.post (h : Alike agentId B C) (e : MessageEnvelope) (recipients : List String) :
    Alike agentId (B.post e recipients) (C.post e recipients) := by
  obtain ⟨hsub, hpattern, httl⟩ := post_fields (B := B) e recipients
  obtain ⟨hsub', hpattern', httl'⟩ := post_fields (B := C) e recipients
  refine ⟨?_, ?_, ?_, ?_, ?_⟩
  · rw [queue_post, queue_post, h.queue, h.length]
  · rw [post_envelopes, post_envelopes, List.map_append, List.map_append, h.envelopes]
  · rw [hsub, hsub', h.subscribers]
  · rw [hpattern, hpattern', h.patternSubscribers]
  · rw [httl, httl', h.defaultTtl]

theorem Alike.envelope (h : Alike agentId B C) (draft : Draft) (recipientId : Option String)
    (persistent : Bool) (now : ℤ) :
    C.envelope draft recipientId persistent now = B.envelope draft recipientId persistent now := by
  unfold MessageBus.envelope MessageBus.ttl
  rw [h.defaultTtl]

theorem Alike.allSubscribers (h : Alike agentId B C) (fnmatch : String → String → Bool)
    (topic : String) : C.allSubscribers fnmatch topic = B.allSubscribers fnmatch topic := by
  unfold MessageBus.allSubscribers
  rw [h.subscribers, h.patternSubscribers]

theorem Alike.subscribe (h : Alike agentId B C) (topic : String) (pattern : Bool) :
    Alike agentId (B.subscribe a topic pattern) (C.subscribe a topic pattern) := by
  refine ⟨by rw [queue_subscribe, queue_subscribe, h.queue], ?_, ?_, ?_, ?_⟩ <;>
    (unfold MessageBus.subscribe; split)
  · exact h.envelopes
  · exact h.envelopes
  · exact h.subscribers
  · simp only [h.subscribers]
  · simp only [h.patternSubscribers]
  · exact h.patternSubscribers
  · exact h.defaultTtl
  · exact h.defaultTtl

theorem Alike.unsubscribe (h : Alike agentId B C) (topic : String) (pattern : Bool) :
    Alike agentId (B.unsubscribe a topic pattern) (C.unsubscribe a topic pattern) := by
  refine ⟨by rw [queue_unsubscribe, queue_unsubscribe, h.queue], ?_, ?_, ?_, ?_⟩ <;>
    (unfold MessageBus.unsubscribe; split)
  · exact h.envelopes
  · exact h.envelopes
  · exact h.subscribers
  · simp only [h.subscribers]
  · simp only [h.patternSubscribers]
  · exact h.patternSubscribers
  · exact h.defaultTtl
  · exact h.defaultTtl

theorem cleanup_fields (B : MessageBus) (a : String) (clock : ℕ → ℤ) :
    (B.cleanupExpiredMessages a clock).subscribers = B.subscribers ∧
      (B.cleanupExpiredMessages a clock).patternSubscribers = B.patternSubscribers ∧
      (B.cleanupExpiredMessages a clock).defaultTtl = B.defaultTtl := by
  unfold MessageBus.cleanupExpiredMessages
  split <;> exact ⟨rfl, rfl, rfl⟩

theorem Alike.cleanup (h : Alike agentId B C) :
    Alike agentId (B.cleanupExpiredMessages agentId clock)
      (C.cleanupExpiredMessages agentId clock) := by
  obtain ⟨hsub, hpattern, httl⟩ := cleanup_fields B agentId clock
  obtain ⟨hsub', hpattern', httl'⟩ := cleanup_fields C agentId clock
  refine ⟨?_, ?_, ?_, ?_, ?_⟩
  · rw [queue_cleanup, queue_cleanup, h.queue, h.expired]
  · rw [cleanup_envelopes, cleanup_envelopes, h.envelopes]
  · rw [hsub, hsub', h.subscribers]
  · rw [hpattern, hpattern', h.patternSubscribers]
  · rw [httl, httl', h.defaultTtl]

theorem alike_cleanup (ha : a ≠ agentId) :
    Alike agentId B (B.cleanupExpiredMessages a clock) := by
  obtain ⟨hsub, hpattern, httl⟩ := cleanup_fields B a clock
  refine ⟨?_, by rw [cleanup_envelopes], hsub, hpattern, httl⟩
  rw [queue_cleanup, if_neg ha.symm]

theorem receiveFrom_fields (B : MessageBus) (a : String) (request : Request) :
    (B.receiveFrom a request).2.envelopes.map MessageEnvelope.fixed =
        B.envelopes.map MessageEnvelope.fixed ∧
      (B.receiveFrom a request).2.subscribers = B.subscribers ∧
      (B.receiveFrom a request).2.patternSubscribers = B.patternSubscribers ∧
      (B.receiveFrom a request).2.defaultTtl = B.defaultTtl := by
  have hdeliver : ∀ (l : List ℕ) (es : List MessageEnvelope),
      (l.foldl (fun es j => es.modify j fun e => e.deliver request.now) es).map
        MessageEnvelope.fixed = es.map MessageEnvelope.fixed := by
    intro l
    induction l with
    | nil => exact fun es => rfl
    | cons j rest ih =>
      intro es
      exact (ih _).trans
        (map_fixed_modify (f := fun e => e.deliver request.now) (fun e => rfl) es j)
  unfold MessageBus.receiveFrom
  split <;> exact ⟨hdeliver _ _, rfl, rfl, rfl⟩

theorem Alike.receiveFrom (h : Alike agentId B C) :
    Alike agentId (B.receiveFrom agentId request).2 (C.receiveFrom agentId request).2 := by
  obtain ⟨henv, hsub, hpattern, httl⟩ :=
    receiveFrom_fields B agentId request
  obtain ⟨henv', hsub', hpattern', httl'⟩ :=
    receiveFrom_fields C agentId request
  refine ⟨?_, ?_, ?_, ?_, ?_⟩
  · rw [queue_receiveFrom, queue_receiveFrom, h.queue, h.selected]
  · rw [henv, henv', h.envelopes]
  · rw [hsub, hsub', h.subscribers]
  · rw [hpattern, hpattern', h.patternSubscribers]
  · rw [httl, httl', h.defaultTtl]

theorem alike_receiveFrom (ha : a ≠ agentId) :
    Alike agentId B (B.receiveFrom a request).2 := by
  obtain ⟨henv, hsub, hpattern, httl⟩ := receiveFrom_fields B a request
  refine ⟨?_, henv, hsub, hpattern, httl⟩
  rw [queue_receiveFrom, if_neg fun h => ha h.1.symm]

theorem alike_acknowledge (j : ℕ) : Alike agentId B (B.acknowledge j).2 := by
  refine ⟨queue_acknowledge j, ?_, ?_, ?_, ?_⟩ <;> (unfold MessageBus.acknowledge; split)
  · exact map_fixed_modify (f := MessageEnvelope.acknowledge) (fun e => rfl) _ _
  all_goals rfl

/-! ### The marks -/

theorem acknowledged_post (e : MessageEnvelope) (recipients : List String)
    (hi : i < B.envelopes.length) : (B.post e recipients).acknowledged i = B.acknowledged i := by
  unfold MessageBus.acknowledged MessageBus.holds
  rw [post_envelopes, List.getElem?_append_left hi]

theorem acknowledged_cleanup :
    (B.cleanupExpiredMessages a clock).acknowledged i = B.acknowledged i := by
  unfold MessageBus.acknowledged MessageBus.holds
  rw [cleanup_envelopes]

theorem acknowledged_receiveFrom :
    (B.receiveFrom a request).2.acknowledged i = B.acknowledged i := by
  have hdeliver : ∀ (l : List ℕ) (es : List MessageEnvelope),
      ((l.foldl (fun es j => es.modify j fun e => e.deliver request.now) es)[i]?).any
        (fun e => e.message.acknowledged) = (es[i]?).any fun e => e.message.acknowledged := by
    intro l
    induction l with
    | nil => exact fun es => rfl
    | cons j rest ih =>
      intro es
      rw [List.foldl_cons, ih, List.getElem?_modify]
      rcases es[i]? with _ | e
      · rfl
      · show AgentMessage.acknowledged (MessageEnvelope.message (if _ then _ else _)) = _
        split <;> rfl
  have hread : (B.receiveFrom a request).2.envelopes =
      (B.receiveFrom a request).1.foldl
        (fun es j => es.modify j fun e => e.deliver request.now) B.envelopes := by
    unfold MessageBus.receiveFrom
    split <;> rfl
  unfold MessageBus.acknowledged MessageBus.holds
  rw [hread]
  exact hdeliver _ _

theorem acknowledge_of_mem (hi : i ∈ B.queue agentId) (hlength : i < B.envelopes.length) :
    (B.acknowledge i).1 = true ∧ (B.acknowledge i).2.acknowledged i = true := by
  have hfound : ∃ envelopes ∈ B.messages.values, i ∈ envelopes := by
    unfold MessageBus.queue at hi
    rcases hget : B.messages.get agentId with _ | l
    · rw [hget] at hi
      cases hi
    · rw [hget] at hi
      exact ⟨l, List.mem_map_of_mem (f := Prod.snd) (Dict.mem_entries_of_get hget), hi⟩
  unfold MessageBus.acknowledge
  rw [if_pos hfound]
  refine ⟨rfl, ?_⟩
  unfold MessageBus.acknowledged MessageBus.holds
  rw [List.getElem?_modify, List.getElem?_eq_getElem hlength]
  simp [MessageEnvelope.acknowledge]

theorem acknowledged_acknowledge_of_ne {j : ℕ} (hij : i ≠ j) :
    (B.acknowledge j).2.acknowledged i = B.acknowledged i := by
  unfold MessageBus.acknowledge
  split
  · unfold MessageBus.acknowledged MessageBus.holds
    rw [List.getElem?_modify]
    rcases B.envelopes[i]? with _ | e
    · rfl
    · simp [Ne.symm hij]
  · rfl

end Alike

/-! ### Two runs -/

section Runs

variable {S T : BusRun} {agentId a : String} {i : ℕ} {others : String → Prop} {L : List Fate}
  {fnmatch : String → String → Bool}

/-- What a run has to do with one that lacks the receives and acknowledgements of others. -/
structure Parallel (others : String → Prop) (agentId : String) (i : ℕ) (S T : BusRun) : Prop where
  alike : Alike agentId S.bus T.bus
  log : T.log.filter (Fate.about agentId i) = S.log.filter (Fate.about agentId i)
  marks : i ∈ S.bus.queue agentId →
    (S.bus.acknowledged i = true ↔ ∃ a, .acknowledged a i ∈ S.log) ∧
    (T.bus.acknowledged i = true ↔ ∃ a, .acknowledged a i ∈ S.log ∧ ¬ others a)
  known : ∀ a, .acknowledged a i ∈ S.log → i < S.bus.envelopes.length
  inRange : ∀ a, ∀ j ∈ S.bus.queue a, j < S.bus.envelopes.length

theorem Parallel.of_alike {S' T' : BusRun} (h : Parallel others agentId i S T)
    (halike : Alike agentId S'.bus T'.bus) (log log' : List Fate) (hS : S'.log = log ++ S.log)
    (hT : T'.log = log' ++ T.log)
    (hlog : log'.filter (Fate.about agentId i) = log.filter (Fate.about agentId i))
    (hack : ∀ a, .acknowledged a i ∉ log)
    (hqueue : ∀ a j, j ∈ S'.bus.queue a → j ∈ S.bus.queue a)
    (hmarks : S'.bus.acknowledged i = S.bus.acknowledged i ∧
      T'.bus.acknowledged i = T.bus.acknowledged i)
    (hlength : S'.bus.envelopes.length = S.bus.envelopes.length) :
    Parallel others agentId i S' T' := by
  have hmem : ∀ a, .acknowledged a i ∈ S'.log ↔ .acknowledged a i ∈ S.log := by
    intro a
    rw [hS, List.mem_append, or_iff_right (hack a)]
  refine ⟨halike, ?_, fun hi => ?_, fun a ha => ?_, fun a j hj => ?_⟩
  · rw [hS, hT, List.filter_append, List.filter_append, hlog, h.log]
  · rw [hmarks.1, hmarks.2]
    simp only [hmem]
    exact h.marks (hqueue _ _ hi)
  · rw [hlength]
    exact h.known a ((hmem a).mp ha)
  · rw [hlength]
    exact h.inRange a j (hqueue a j hj)

theorem about_map_received (l : List ℕ) (ha : a ≠ agentId) :
    (l.map (Fate.received a)).filter (Fate.about agentId i) = [] := by
  refine List.filter_eq_nil_iff.mpr fun fate hfate => ?_
  obtain ⟨j, -, rfl⟩ := List.mem_map.mp hfate
  simp [Fate.about, ha]

theorem about_map_expired (l : List ℕ) (f : ℕ → Bool) (ha : a ≠ agentId) :
    (l.map fun j => Fate.expired a j (f j)).filter (Fate.about agentId i) = [] := by
  refine List.filter_eq_nil_iff.mpr fun fate hfate => ?_
  obtain ⟨j, -, rfl⟩ := List.mem_map.mp hfate
  simp [Fate.about, ha]

theorem about_map_expired_congr (l : List ℕ) {f g : ℕ → Bool} (hfg : i ∈ l → f i = g i) :
    (l.map fun j => Fate.expired agentId j (f j)).filter (Fate.about agentId i) =
      (l.map fun j => Fate.expired agentId j (g j)).filter (Fate.about agentId i) := by
  induction l with
  | nil => rfl
  | cons j rest ih =>
    have hrest := ih fun hi => hfg (List.mem_cons_of_mem j hi)
    rw [List.map_cons, List.map_cons, List.filter_cons, List.filter_cons, hrest]
    by_cases hj : j = i
    · subst hj
      rw [hfg List.mem_cons_self]
    · simp [Fate.about, hj]

theorem Parallel.posted (h : Parallel others agentId i S T) (e : MessageEnvelope)
    (he : e.message.acknowledged = false) (recipients : List String) :
    Parallel others agentId i (S.posted (S.bus.post e recipients) recipients)
      (T.posted (T.bus.post e recipients) recipients) := by
  have hqueue : ∀ a, (S.posted (S.bus.post e recipients) recipients).bus.queue a =
      S.bus.queue a ++ List.replicate (recipients.count a) S.bus.envelopes.length :=
    fun _ => queue_post e recipients
  have henvelopes : ∀ U : BusRun, (U.posted (U.bus.post e recipients) recipients).bus.envelopes =
      U.bus.envelopes ++ [e.postInit] := fun _ => post_envelopes e recipients
  have hlog : ∀ (U : BusRun) (fate : Fate), (∀ a j, fate ≠ .addressed a j) →
      (fate ∈ (U.posted (U.bus.post e recipients) recipients).log ↔ fate ∈ U.log) := by
    intro U fate hne
    refine List.mem_append.trans (or_iff_right fun hmem => ?_)
    obtain ⟨a, -, heq⟩ := List.mem_map.mp hmem
    exact hne _ _ heq.symm
  have habout : ∀ U : BusRun, (U.posted (U.bus.post e recipients) recipients).log.filter
      (Fate.about agentId i) = U.log.filter (Fate.about agentId i) := by
    intro U
    refine (List.filter_append ..).trans ?_
    rw [List.filter_eq_nil_iff.mpr fun fate hfate => ?_, List.nil_append]
    obtain ⟨a, -, rfl⟩ := List.mem_map.mp hfate
    simp [Fate.about]
  have hlength : (S.posted (S.bus.post e recipients) recipients).bus.envelopes.length =
      S.bus.envelopes.length + 1 := by
    rw [henvelopes, List.length_append, List.length_singleton]
  refine ⟨h.alike.post e recipients, by rw [habout, habout, h.log], fun hi => ?_,
    fun a ha => ?_, fun a j hj => ?_⟩
  · simp only [hlog S (.acknowledged _ i) fun _ _ => Fate.noConfusion]
    rw [hqueue] at hi
    rcases List.mem_append.mp hi with hold | hnew
    · have hlt := h.inRange agentId i hold
      have hlt' : i < T.bus.envelopes.length := by rwa [h.alike.length]
      have hS := acknowledged_post e recipients hlt
      have hT := acknowledged_post e recipients hlt'
      show ((S.bus.post e recipients).acknowledged i = true ↔ _) ∧
        ((T.bus.post e recipients).acknowledged i = true ↔ _)
      rw [hS, hT]
      exact h.marks hold
    · obtain ⟨-, rfl⟩ := List.mem_replicate.mp hnew
      have hnone : ∀ a, .acknowledged a S.bus.envelopes.length ∉ S.log := fun a ha =>
        absurd (h.known a ha) (lt_irrefl _)
      have hfalse : ∀ U : BusRun, U.bus.envelopes.length = S.bus.envelopes.length →
          (U.bus.post e recipients).acknowledged S.bus.envelopes.length = false := by
        intro U hU
        unfold MessageBus.acknowledged MessageBus.holds
        rw [post_envelopes, ← hU, List.getElem?_concat_length]
        exact he
      show ((S.bus.post e recipients).acknowledged _ = true ↔ _) ∧
        ((T.bus.post e recipients).acknowledged _ = true ↔ _)
      rw [hfalse S rfl, hfalse T h.alike.length]
      exact ⟨iff_of_false Bool.false_ne_true fun ⟨a, ha⟩ => hnone a ha,
        iff_of_false Bool.false_ne_true fun ⟨a, ha, _⟩ => hnone a ha⟩
  · rw [hlength]
    have hold := (hlog S (.acknowledged a i) fun _ _ => Fate.noConfusion).mp ha
    exact Nat.lt_succ_of_lt (h.known a hold)
  · rw [hlength]
    rw [hqueue] at hj
    rcases List.mem_append.mp hj with hold | hnew
    · exact Nat.lt_succ_of_lt (h.inRange a j hold)
    · rw [(List.mem_replicate.mp hnew).2]
      exact Nat.lt_succ_self _

theorem mem_queue_cleanup {B : MessageBus} {b : String} {clock : ℕ → ℤ} {j : ℕ}
    (hj : j ∈ (B.cleanupExpiredMessages a clock).queue b) : j ∈ B.queue b := by
  rw [queue_cleanup] at hj
  split at hj
  · rename_i hb
    rw [hb]
    exact List.mem_of_mem_filter hj
  · exact hj

theorem receiveFrom_length {B : MessageBus} {request : Request} :
    (B.receiveFrom a request).2.envelopes.length = B.envelopes.length := by
  have hmap := congrArg List.length (receiveFrom_fields B a request).1
  rwa [List.length_map, List.length_map] at hmap

theorem Parallel.cleanup (h : Parallel others agentId i S T) {clock : ℕ → ℤ}
    (hmay : MayClean S agentId clock)
    (hothers : ∀ a, others a → i < S.bus.envelopes.length → Other S.log agentId i a) :
    Parallel others agentId i (S.cleanup agentId clock) (T.cleanup agentId clock) := by
  refine h.of_alike h.alike.cleanup _ _ rfl rfl ?_ (fun a hmem => ?_)
    (fun a j => mem_queue_cleanup) ⟨acknowledged_cleanup, acknowledged_cleanup⟩
    (congrArg List.length cleanup_envelopes)
  · rw [h.alike.expired]
    refine about_map_expired_congr _ fun hi => congrArg Bool.not ?_
    have hmem : i ∈ S.bus.queue agentId := List.mem_of_mem_filter hi
    obtain ⟨hS, hT⟩ := h.marks hmem
    rw [Bool.eq_iff_iff, hT]
    constructor
    · rintro ⟨a, ha, -⟩
      exact hS.mpr ⟨a, ha⟩
    · intro hack
      obtain ⟨a, ha, hnot⟩ := hmay.own i hi hack
      exact ⟨a, ha, fun hother => hnot (hothers a hother (h.inRange _ i hmem))⟩
  · obtain ⟨j, -, heq⟩ := List.mem_map.mp hmem
    cases heq

theorem Parallel.receive (h : Parallel others agentId i S T) {request : Request}
    (hmay : MayClean S agentId request.cleanupClock)
    (hothers : ∀ a, others a → i < S.bus.envelopes.length → Other S.log agentId i a) :
    Parallel others agentId i (S.receive agentId request) (T.receive agentId request) := by
  have hclean := h.cleanup hmay hothers
  refine hclean.of_alike hclean.alike.receiveFrom _ _ rfl rfl ?_ (fun a hmem => ?_)
    (fun a j => mem_queue_receiveFrom.mp) ⟨acknowledged_receiveFrom, acknowledged_receiveFrom⟩
    receiveFrom_length
  · unfold MessageBus.receiveFrom
    rw [hclean.alike.selected]
  · obtain ⟨j, -, heq⟩ := List.mem_map.mp hmem
    cases heq

/-! What another agent does in one of the runs. -/

theorem Parallel.cleanup_left (h : Parallel others agentId i S T) (ha : a ≠ agentId)
    (clock : ℕ → ℤ) : Parallel others agentId i (S.cleanup a clock) T := by
  refine h.of_alike ((alike_cleanup ha).symm.trans h.alike) _ [] rfl rfl ?_ (fun b hmem => ?_)
    (fun b j => mem_queue_cleanup) ⟨acknowledged_cleanup, rfl⟩
    (congrArg List.length cleanup_envelopes)
  · exact (about_map_expired _ _ ha).symm
  · obtain ⟨j, -, heq⟩ := List.mem_map.mp hmem
    cases heq

theorem Parallel.cleanup_right (h : Parallel others agentId i S T) (ha : a ≠ agentId)
    (clock : ℕ → ℤ) : Parallel others agentId i S (T.cleanup a clock) :=
  h.of_alike (h.alike.trans (alike_cleanup ha)) [] _ rfl rfl (about_map_expired _ _ ha)
    (fun _ => List.not_mem_nil) (fun _ _ hj => hj) ⟨rfl, acknowledged_cleanup⟩ rfl

theorem Parallel.receive_left (h : Parallel others agentId i S T) (ha : a ≠ agentId)
    (request : Request) : Parallel others agentId i (S.receive a request) T := by
  have hclean := h.cleanup_left ha request.cleanupClock
  refine hclean.of_alike ((alike_receiveFrom ha).symm.trans hclean.alike) _ [] rfl rfl ?_
    (fun b hmem => ?_) (fun b j => mem_queue_receiveFrom.mp) ⟨acknowledged_receiveFrom, rfl⟩
    receiveFrom_length
  · exact (about_map_received _ ha).symm
  · obtain ⟨j, -, heq⟩ := List.mem_map.mp hmem
    cases heq

theorem Parallel.receive_right (h : Parallel others agentId i S T) (ha : a ≠ agentId)
    (request : Request) : Parallel others agentId i S (T.receive a request) := by
  have hclean := h.cleanup_right ha request.cleanupClock
  exact hclean.of_alike (hclean.alike.trans (alike_receiveFrom ha)) [] _ rfl rfl
    (about_map_received _ ha) (fun _ => List.not_mem_nil) (fun _ _ hj => hj)
    ⟨rfl, acknowledged_receiveFrom⟩ rfl

theorem acknowledge_cases (S : BusRun) (a : String) (j : ℕ) :
    (S.bus.acknowledge j).1 = true ∧ S.acknowledge a j =
        ⟨(S.bus.acknowledge j).2, .acknowledged a j :: S.log⟩ ∨
      (S.bus.acknowledge j).1 = false ∧ S.acknowledge a j = S := by
  unfold BusRun.acknowledge
  cases (S.bus.acknowledge j).1 with
  | true => exact .inl ⟨rfl, rfl⟩
  | false => exact .inr ⟨rfl, rfl⟩

theorem acknowledge_envelopes_length (B : MessageBus) (j : ℕ) :
    (B.acknowledge j).2.envelopes.length = B.envelopes.length := by
  unfold MessageBus.acknowledge
  split
  · exact List.length_modify _ _ _
  · rfl

theorem Parallel.acknowledge_left_of_ne (h : Parallel others agentId i S T) (a : String) {j : ℕ}
    (hij : i ≠ j) : Parallel others agentId i (S.acknowledge a j) T := by
  rcases acknowledge_cases S a j with ⟨-, heq⟩ | ⟨-, heq⟩
  · rw [heq]
    refine h.of_alike ((alike_acknowledge j).symm.trans h.alike) [.acknowledged a j] [] rfl rfl rfl
      (fun b hmem => ?_) (fun b k => by rw [queue_acknowledge]; exact id)
      ⟨acknowledged_acknowledge_of_ne hij, rfl⟩ (acknowledge_envelopes_length _ _)
    exact hij (Fate.acknowledged.inj (List.mem_singleton.mp hmem)).2
  · rwa [heq]

theorem Parallel.acknowledge_right_of_ne (h : Parallel others agentId i S T) (a : String) {j : ℕ}
    (hij : i ≠ j) : Parallel others agentId i S (T.acknowledge a j) := by
  rcases acknowledge_cases T a j with ⟨-, heq⟩ | ⟨-, heq⟩
  · rw [heq]
    exact h.of_alike (h.alike.trans (alike_acknowledge j)) [] [.acknowledged a j] rfl rfl rfl
      (fun _ => List.not_mem_nil) (fun _ _ hk => hk) ⟨rfl, acknowledged_acknowledge_of_ne hij⟩ rfl
  · rwa [heq]

theorem Parallel.acknowledge (h : Parallel others agentId i S T) (a : String) {T' : BusRun}
    (hT : others a ∧ T' = T ∨ ¬ others a ∧ T' = T.acknowledge a i) :
    Parallel others agentId i (S.acknowledge a i) T' := by
  have halike : Alike agentId (S.acknowledge a i).bus T'.bus := by
    have hleft : Alike agentId S.bus (S.acknowledge a i).bus := by
      rcases acknowledge_cases S a i with ⟨-, heq⟩ | ⟨-, heq⟩ <;> rw [heq]
      · exact alike_acknowledge i
      · exact .refl _
    refine hleft.symm.trans ?_
    rcases hT with ⟨-, rfl⟩ | ⟨-, rfl⟩
    · exact h.alike
    · rcases acknowledge_cases T a i with ⟨-, heq⟩ | ⟨-, heq⟩ <;> rw [heq]
      · exact h.alike.trans (alike_acknowledge i)
      · exact h.alike
  have hlogS : (S.acknowledge a i).log.filter (Fate.about agentId i) =
      S.log.filter (Fate.about agentId i) := by
    rcases acknowledge_cases S a i with ⟨-, heq⟩ | ⟨-, heq⟩ <;> rw [heq]
    rfl
  have hlogT : T'.log.filter (Fate.about agentId i) = T.log.filter (Fate.about agentId i) := by
    rcases hT with ⟨-, rfl⟩ | ⟨-, rfl⟩
    · rfl
    · rcases acknowledge_cases T a i with ⟨-, heq⟩ | ⟨-, heq⟩ <;> rw [heq]
      rfl
  have hqueue : ∀ b, (S.acknowledge a i).bus.queue b = S.bus.queue b := by
    intro b
    rcases acknowledge_cases S a i with ⟨-, heq⟩ | ⟨-, heq⟩ <;> rw [heq]
    exact queue_acknowledge i
  have hlength : (S.acknowledge a i).bus.envelopes.length = S.bus.envelopes.length := by
    rcases acknowledge_cases S a i with ⟨-, heq⟩ | ⟨-, heq⟩ <;> rw [heq]
    exact acknowledge_envelopes_length _ _
  refine ⟨halike, by rw [hlogS, hlogT, h.log], fun hi => ?_, fun b hb => ?_, fun b j hj => ?_⟩
  · rw [hqueue] at hi
    have hlt := h.inRange _ i hi
    obtain ⟨hfound, hack⟩ := acknowledge_of_mem hi hlt
    have heq : S.acknowledge a i = ⟨(S.bus.acknowledge i).2, .acknowledged a i :: S.log⟩ := by
      rcases acknowledge_cases S a i with ⟨-, heq⟩ | ⟨hnot, -⟩
      · exact heq
      · rw [hfound] at hnot
        cases hnot
    rw [heq]
    refine ⟨iff_of_true hack ⟨a, List.mem_cons_self⟩, ?_⟩
    rcases hT with ⟨hother, rfl⟩ | ⟨hnot, rfl⟩
    · rw [(h.marks hi).2]
      refine exists_congr fun b => and_congr_left fun hb => ?_
      rw [List.mem_cons, or_iff_right]
      intro hsame
      rw [(Fate.acknowledged.inj hsame).1] at hb
      exact hb hother
    · have hi' : i ∈ T.bus.queue agentId := by rwa [h.alike.queue]
      have hlt' : i < T.bus.envelopes.length := by rwa [h.alike.length]
      obtain ⟨hfound', hack'⟩ := acknowledge_of_mem hi' hlt'
      rcases acknowledge_cases T a i with ⟨-, heq'⟩ | ⟨hnot', -⟩
      · rw [heq']
        exact iff_of_true hack' ⟨a, List.mem_cons_self, hnot⟩
      · rw [hfound'] at hnot'
        cases hnot'
  · rw [hlength]
    rcases acknowledge_cases S a i with ⟨hfound, heq⟩ | ⟨-, heq⟩
    · -- the message was found in a queue
      unfold MessageBus.acknowledge at hfound
      split at hfound
      · rename_i hmem
        obtain ⟨l, hl, hil⟩ := hmem
        obtain ⟨k, hk⟩ := Dict.exists_get_of_mem_values hl
        refine h.inRange k i ?_
        unfold MessageBus.queue
        rw [hk]
        exact hil
      · cases hfound
    · rw [heq] at hb
      exact h.known b hb
  · rw [hlength]
    rw [hqueue] at hj
    exact h.inRange b j hj

theorem addressed_step (fnmatch : String → String → Bool) (S : BusRun) (e : BusEvent) :
    S.bus.envelopes.length ≤ (S.step fnmatch e).bus.envelopes.length ∧
      ∀ a i, i < S.bus.envelopes.length → .addressed a i ∈ (S.step fnmatch e).log →
        .addressed a i ∈ S.log := by
  have hposted : ∀ (env : MessageEnvelope) (recipients : List String),
      S.bus.envelopes.length ≤
          (S.posted (S.bus.post env recipients) recipients).bus.envelopes.length ∧
        ∀ a i, i < S.bus.envelopes.length →
          .addressed a i ∈ (S.posted (S.bus.post env recipients) recipients).log →
            .addressed a i ∈ S.log := by
    intro env recipients
    refine ⟨?_, fun a i hi hmem => ?_⟩
    · show _ ≤ (S.bus.post env recipients).envelopes.length
      rw [post_envelopes, List.length_append]
      exact Nat.le_add_right _ _
    · rcases List.mem_append.mp hmem with hnew | hold
      · obtain ⟨b, -, heq⟩ := List.mem_map.mp hnew
        rw [(Fate.addressed.inj heq).2] at hi
        exact absurd hi (lt_irrefl _)
      · exact hold
  have hcleanup : ∀ (b : String) (clock : ℕ → ℤ),
      S.bus.envelopes.length ≤ (S.cleanup b clock).bus.envelopes.length ∧
        ∀ a i, .addressed a i ∈ (S.cleanup b clock).log → .addressed a i ∈ S.log := by
    intro b clock
    refine ⟨le_of_eq (congrArg List.length cleanup_envelopes).symm, fun a i hmem => ?_⟩
    rcases List.mem_append.mp hmem with hnew | hold
    · obtain ⟨j, -, heq⟩ := List.mem_map.mp hnew
      cases heq
    · exact hold
  cases e with
  | send draft recipientId persistent now => exact hposted _ _
  | broadcast draft recipients now => exact hposted _ _
  | subscribe b topic pattern =>
    refine ⟨le_of_eq ?_, fun _ _ _ hmem => hmem⟩
    rw [BusRun.step, MessageBus.subscribe]
    split <;> rfl
  | unsubscribe b topic pattern =>
    refine ⟨le_of_eq ?_, fun _ _ _ hmem => hmem⟩
    rw [BusRun.step, MessageBus.unsubscribe]
    split <;> rfl
  | publish draft topic now =>
    rw [BusRun.step]
    rcases publish_cases (B := S.bus) fnmatch draft topic now with ⟨hnone, heq⟩ | ⟨env, heq⟩
    · rw [hnone, heq]
      exact ⟨le_refl _, fun _ _ _ hmem => hmem⟩
    · rw [heq]
      exact hposted _ _
  | receive b request =>
    obtain ⟨hlength, hlog⟩ := hcleanup b request.cleanupClock
    refine ⟨hlength.trans (le_of_eq receiveFrom_length.symm), fun a i _ hmem => ?_⟩
    rcases List.mem_append.mp hmem with hnew | hold
    · obtain ⟨j, -, heq⟩ := List.mem_map.mp hnew
      cases heq
    · exact hlog a i hold
  | acknowledge b j =>
    rw [BusRun.step]
    rcases acknowledge_cases S b j with ⟨-, heq⟩ | ⟨-, heq⟩ <;> rw [heq]
    · refine ⟨le_of_eq (acknowledge_envelopes_length _ _).symm, fun a i _ hmem => ?_⟩
      rcases List.mem_cons.mp hmem with heq | hold
      · cases heq
      · exact hold
    · exact ⟨le_refl _, fun _ _ _ hmem => hmem⟩
  | cleanup b clock =>
    obtain ⟨hlength, hlog⟩ := hcleanup b clock
    exact ⟨hlength, fun a i _ hmem => hlog a i hmem⟩

theorem addressed_run (events : List BusEvent) (S : BusRun) (hi : i < S.bus.envelopes.length)
    (hmem : .addressed a i ∈ (Machine.run (BusRun.step fnmatch) S events).log) :
    .addressed a i ∈ S.log := by
  induction events generalizing S with
  | nil => exact hmem
  | cons e rest ih =>
    obtain ⟨hlength, hlog⟩ := addressed_step fnmatch S e
    exact hlog a i hi (ih _ (hi.trans_le hlength) hmem)

theorem Parallel.step (fnmatch : String → String → Bool)
    (h : Parallel (Other L agentId i) agentId i S T) {e : BusEvent}
    (he : Careful S e)
    (hothers : ∀ a, Other L agentId i a → i < S.bus.envelopes.length → Other S.log agentId i a) :
    Parallel (Other L agentId i) agentId i (S.step fnmatch e)
      (if e.byOther L agentId i then T else T.step fnmatch e) := by
  cases e with
  | send draft recipientId persistent now =>
    show Parallel _ _ _ (S.posted (S.bus.send ..) _) (T.posted (T.bus.send ..) _)
    unfold MessageBus.send
    rw [h.alike.envelope]
    exact h.posted _ rfl _
  | broadcast draft recipients now =>
    show Parallel _ _ _ (S.posted (S.bus.broadcast ..) _) (T.posted (T.bus.broadcast ..) _)
    unfold MessageBus.broadcast
    rw [h.alike.envelope]
    exact h.posted _ rfl _
  | subscribe b topic pattern =>
    have hmarks : ∀ B : MessageBus, (B.subscribe b topic pattern).acknowledged i =
        B.acknowledged i := by
      intro B
      unfold MessageBus.subscribe
      split <;> rfl
    refine h.of_alike (h.alike.subscribe topic pattern) [] [] rfl rfl rfl
      (fun _ => List.not_mem_nil) (fun a j hj => ?_) ⟨hmarks _, hmarks _⟩ ?_
    · rwa [BusRun.step, queue_subscribe] at hj
    · rw [BusRun.step, MessageBus.subscribe]
      split <;> rfl
  | unsubscribe b topic pattern =>
    have hmarks : ∀ B : MessageBus, (B.unsubscribe b topic pattern).acknowledged i =
        B.acknowledged i := by
      intro B
      unfold MessageBus.unsubscribe
      split <;> rfl
    refine h.of_alike (h.alike.unsubscribe topic pattern) [] [] rfl rfl rfl
      (fun _ => List.not_mem_nil) (fun a j hj => ?_) ⟨hmarks _, hmarks _⟩ ?_
    · rwa [BusRun.step, queue_unsubscribe] at hj
    · rw [BusRun.step, MessageBus.unsubscribe]
      split <;> rfl
  | publish draft topic now =>
    show Parallel _ _ _ (S.posted (S.bus.publish ..) _) (T.posted (T.bus.publish ..) _)
    unfold MessageBus.publish
    rw [h.alike.allSubscribers, h.alike.envelope]
    by_cases hnone : S.bus.allSubscribers fnmatch topic = []
    · rw [if_pos hnone, if_pos hnone, hnone]
      exact h
    · rw [if_neg hnone, if_neg hnone]
      exact h.posted _ rfl _
  | receive b request =>
    show Parallel _ _ _ _ (if decide (Other L agentId i b) = true then _ else _)
    by_cases hother : Other L agentId i b
    · rw [if_pos (decide_eq_true hother)]
      exact h.receive_left hother.1 request
    · rw [if_neg (by simpa using hother)]
      by_cases hb : b = agentId
      · subst hb
        exact h.receive he hothers
      · exact (h.receive_left hb request).receive_right hb request
  | acknowledge b j =>
    by_cases hj : i = j
    · subst hj
      refine h.acknowledge b ?_
      by_cases hother : Other L agentId i b
      · exact .inl ⟨hother, if_pos (decide_eq_true hother)⟩
      · exact .inr ⟨hother, if_neg (by simpa [BusEvent.byOther] using hother)⟩
    · have hleft := h.acknowledge_left_of_ne b hj
      split
      · exact hleft
      · exact hleft.acknowledge_right_of_ne b hj
  | cleanup b clock =>
    by_cases hb : b = agentId
    · subst hb
      exact h.cleanup he hothers
    · exact (h.cleanup_left hb clock).cleanup_right hb clock

theorem parallel_run (events : List BusEvent) {S T : BusRun}
    (hL : L = (Machine.run (BusRun.step fnmatch) S events).log)
    (h : Parallel (Other L agentId i) agentId i S T)
    (halong : Machine.Along (BusRun.step fnmatch) Careful S events) :
    Parallel (Other L agentId i) agentId i (Machine.run (BusRun.step fnmatch) S events)
      (Machine.run (BusRun.step fnmatch) T
        (events.filter fun e => !e.byOther L agentId i)) := by
  induction events generalizing S T with
  | nil => exact h
  | cons e rest ih =>
    have hothers : ∀ a, Other L agentId i a → i < S.bus.envelopes.length →
        Other S.log agentId i a := by
      rintro a ⟨hne, hmem⟩ hi
      rw [hL] at hmem
      exact ⟨hne, addressed_run (e :: rest) S hi hmem⟩
    have hstep := h.step fnmatch halong.1 hothers
    rw [List.filter_cons]
    cases hby : e.byOther L agentId i with
    | true =>
      rw [hby, if_pos rfl] at hstep
      exact ih hL hstep halong.2
    | false =>
      rw [hby, if_neg Bool.false_ne_true] at hstep
      exact ih hL hstep halong.2

end Runs

/-- **The bus delivers**: in every run whose operations are careful, no message is lost, and no
message depends on its other recipients. -/
theorem delivers_of_careful (fnmatch : String → String → Bool) (defaultTtl : ℤ)
    (maxDeadLetters : ℕ) (events : List BusEvent)
    (h : Machine.Along (BusRun.step fnmatch) Careful
      ⟨{ defaultTtl := defaultTtl, maxDeadLetters := maxDeadLetters }, []⟩ events) :
    Kept (BusRun.run fnmatch defaultTtl maxDeadLetters events) ∧
      Independent (BusRun.run fnmatch defaultTtl maxDeadLetters) events := by
  constructor
  · refine (h.invariant Accounted ⟨?_, ?_⟩ fun S e hS he => accounted_step fnmatch hS e he).kept
    · exact fun agentId i haddressed => absurd haddressed List.not_mem_nil
    · exact fun i hi => absurd hi List.not_mem_nil
  · intro agentId i _
    refine (parallel_run events rfl ⟨.refl _, rfl, fun hi => ?_, fun a ha => ?_, fun a j hj => ?_⟩
      h).log
    · exact absurd hi List.not_mem_nil
    · exact absurd ha List.not_mem_nil
    · exact absurd hj List.not_mem_nil

/-! ## A broadcast to two agents -/

def news : Draft where
  senderId := "coordinator"
  messageType := "news"
  payload := .null
  ttlSeconds := some 60

def atOnce : Request where
  cleanupClock _ := 1
  clock _ := 1
  now := 1

/-- A broadcast that one of two agents receives and acknowledges. -/
def announcement : List BusEvent :=
  [.broadcast news (some ["alice", "bob"]) 0, .receive "alice" atOnce, .acknowledge "alice" 0]

def late : ℕ → ℤ := fun _ => 61000000

/-- Her queue is cleaned up. -/
theorem delivers_of_careful_announcement :
    Kept (BusRun.run (fun _ _ => false) 300 10000 (announcement ++ [.cleanup "alice" late])) ∧
      Independent (BusRun.run (fun _ _ => false) 300 10000)
        (announcement ++ [.cleanup "alice" late]) := by
  refine delivers_of_careful (fun _ _ => false) 300 10000 _ ⟨trivial, ?_, trivial, ?_, trivial⟩
  · refine ⟨fun i hi => ?_, fun i hi => ?_, by decide⟩ <;> cases hi
  · refine ⟨by decide, fun i hi _ => ⟨"alice", ?_, fun hother => hother.1 rfl⟩, by decide⟩
    obtain rfl : i = 0 := List.mem_singleton.mp hi
    decide

/-- The other's queue is cleaned up: the message is neither there nor among the dead letters. -/
theorem not_kept_announcement : ∃ events,
    ¬ (Kept (BusRun.run (fun _ _ => false) 300 10000 events) ∧
      Independent (BusRun.run (fun _ _ => false) 300 10000) events) := by
  refine ⟨announcement ++ [.cleanup "bob" late], fun h => ?_⟩
  rcases h.1 "bob" 0 (by decide) (by decide) with hqueue | ⟨hdead, -⟩
  · revert hqueue
    decide
  · revert hdead
    decide

end EnhancedAgentBus.Swarm
